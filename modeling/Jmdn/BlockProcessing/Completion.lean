import Jmdn.BlockProcessing.Concurrent
import Jmdn.BlockProcessing.Rollback
import Jmdn.DBOPs.ReconGroups

/-!
# What a successful return means

A call returns nil when it has passed every transaction of its block, or when the
block marker says that an earlier call did.  It passes a transaction it executed,
found marked, or takes for a duplicate.  The markers it relies on are still there
at its return if no duplicate was in fact the work of another call, and no
rollback of another call revokes one of them.
-/

namespace Jmdn.BlockProcessing

open Config DBOPs Function Go List Transition

variable {restore : MapOrder (Address × AccountSnapshot)} {block : ZKBlock}
  {visit : MapOrder Address} {contents : Hash → List Hash} {loop moved : Loop}
  {system after : System} {env : Env} {shared : Shared} {phase : Phase}

/-- The hashes of the transactions the loop has passed. -/
def Loop.passed (loop : Loop) (block : ZKBlock) : List Hash :=
  (block.transactions.take loop.index).map Transaction.hash

/-- The hashes a call takes to be marked: those it has passed, and those it will
skip because the prefilter found them. -/
def Call.relied (call : Call) : List Hash :=
  match call.phase with
  | .looping loop => loop.passed call.block ++ loop.liveApplied
  | .executing loop => loop.passed call.block ++ loop.liveApplied
  | .marking _ => txHashes call.block
  | .anchoring => txHashes call.block
  | _ => []

/-- What makes a skip safe: the duplicate was passed by this very call, or its
marker is applied. -/
def SkipSafe (block : ZKBlock) (shared : Shared) (loop : Loop) : Prop :=
  ∀ tx, block.transactions[loop.index]? = some tx → tx.hash ∈ shared.processedTxs →
    tx.hash ∈ loop.passed block ∨ shared.db.txApplied tx.hash = true

/-- What makes a revocation safe: no other call relies on a revoked marker, and no
block marked as processed contains its transaction. -/
def RevokeSafe (contents : Hash → List Hash) (system : System) (id : Nat) (loop : Loop) : Prop :=
  ∀ hash ∈ loop.successful,
    (∀ other call, other ≠ id → system.calls other = some call → hash ∉ call.relied) ∧
    ∀ blockHash, system.shared.db.blockProcessed.isApplied blockHash = true →
      hash ∉ contents blockHash

/-- The condition on the steps of a run.  `contents` gives the transaction hashes
under each block hash. -/
def CompletionGuard (contents : Hash → List Hash) (system : System) : Event → Prop
  | .enter _ block => txHashes block = contents block.blockHash
  | .store _ _ => True
  | .recon _ _ _ => True
  | .advance id _ _ _ => ∀ call, system.calls id = some call →
      match call.phase with
      | .looping loop => SkipSafe call.block system.shared loop
      | .undoing _ _ loop => RevokeSafe contents system id loop
      | _ => True

/-- The invariant: what calls and block markers stand for is marked. -/
structure Complete (contents : Hash → List Hash) (system : System) : Prop where
  calls : ∀ id call, system.calls id = some call →
    txHashes call.block = contents call.block.blockHash ∧
      ∀ hash ∈ call.relied, system.shared.db.txApplied hash = true
  blocks : ∀ blockHash, system.shared.db.blockProcessed.isApplied blockHash = true →
    ∀ hash ∈ contents blockHash, system.shared.db.txApplied hash = true

/-! ## One section -/

theorem passed_of_index {tx : Transaction} (current : block.transactions[loop.index]? = some tx)
    (index : moved.index = loop.index + 1) :
    moved.passed block = loop.passed block ++ [tx.hash] := by
  simp [Loop.passed, index, take_add_one, current]

/-- At the end of the list everything was passed. -/
theorem passed_of_end (ended : block.transactions[loop.index]? = none) :
    loop.passed block = txHashes block := by
  rw [Loop.passed, take_of_length_le (List.getElem?_eq_none_iff.mp ended), txHashes]

/-- Passing one more transaction adds its hash to what the loop relies on. -/
theorem relied_of_index {tx : Transaction} {marked : Hash → Prop}
    (current : block.transactions[loop.index]? = some tx) (index : moved.index = loop.index + 1)
    (live : moved.liveApplied = loop.liveApplied)
    (before : ∀ hash ∈ loop.passed block ++ loop.liveApplied, marked hash) (new : marked tx.hash) :
    ∀ hash ∈ moved.passed block ++ moved.liveApplied, marked hash := by
  intro hash mem
  rw [passed_of_index current index, live, append_assoc] at mem
  rcases mem_append.mp mem with earlier | later
  · exact before hash (mem_append_left _ earlier)
  · rcases mem_cons.mp later with rfl | found
    · exact new
    · exact before hash (mem_append_right _ found)

/-- A marker that nothing revokes in a section is still there after it. -/
theorem advance_keeps (env : Env) (visit : MapOrder Address)
    (restore : MapOrder (Address × AccountSnapshot)) (block : ZKBlock) {hash : Hash}
    (applied : shared.db.txApplied hash = true)
    (kept : ∀ failed cause loop, phase = .undoing failed cause loop → hash ∉ loop.successful) :
    (advance env visit restore block shared phase).2.db.txApplied hash = true := by
  cases phase with
  | undoing failed cause loop =>
    exact (txApplied_failBlock (kept failed cause loop rfl)).trans applied
  | executing loop =>
    rcases execute_cases env block shared loop with
      ⟨tx, db, -, -, applies, outcome⟩ | ⟨_, outcome, -⟩
    · simp [advance, outcome, applies.txApplied, applied]
    · simpa [advance, outcome] using applied
  | _ =>
    rw [DB.txApplied, (advance_sameEffects env visit restore block shared (by simp)
      (by simp)).txProcessed]
    exact applied

/-- The block markers after a section: the call's own may be added. -/
theorem advance_blockProcessed (env : Env) (visit : MapOrder Address)
    (restore : MapOrder (Address × AccountSnapshot)) (block : ZKBlock) (shared : Shared)
    (phase : Phase) {blockHash : Hash}
    (applied : (advance env visit restore block shared phase).2.db.blockProcessed.isApplied
      blockHash = true) :
    shared.db.blockProcessed.isApplied blockHash = true ∨
      ∃ loop, phase = .marking loop ∧ blockHash = block.blockHash := by
  cases phase with
  | marking loop =>
    by_cases same : blockHash = block.blockHash
    · exact .inr ⟨loop, rfl, same⟩
    simp only [advance, markBlock] at applied
    split at applied
    · rw [Markers.isApplied_write, if_neg same] at applied
      exact .inl applied
    · exact .inl applied
  | executing loop =>
    rcases execute_cases env block shared loop with
      ⟨tx, db, -, -, applies, outcome⟩ | ⟨_, outcome, -⟩
    · have kept : db.blockProcessed = shared.db.blockProcessed := by rw [applies.others]
      exact .inl (by simpa [advance, outcome, kept] using applied)
    · exact .inl (by simpa [advance, outcome] using applied)
  | undoing hash cause loop =>
    left
    simp only [advance, undo, failBlock] at applied
    split at applied <;> exact applied
  | collecting => exact .inl (by simpa [advance] using applied)
  | looping loop =>
    rw [advance, visitTransaction_shared] at applied
    exact .inl applied
  | _ => exact .inl applied

section

variable {shared : Shared}
  (relied : ∀ hash ∈ loop.passed block ++ loop.liveApplied, shared.db.txApplied hash = true)
include relied

/-- What a call relies on after the head of its loop was marked before. -/
theorem visitTransaction_relied (safe : SkipSafe block shared loop) :
    ∀ hash ∈ (Call.mk block (visitTransaction block shared loop).1).relied,
      shared.db.txApplied hash = true := by
  cases current : block.transactions[loop.index]? with
  | none =>
    simp only [visitTransaction, current, Call.relied]
    rw [← passed_of_end current]
    exact fun hash mem => relied hash (mem_append_left _ mem)
  | some tx =>
    have further := @relied_of_index block loop loop.next tx _ current rfl rfl relied
    by_cases seen : tx.hash ∈ shared.processedTxs
    · simp only [visitTransaction, current, if_pos seen, Call.relied]
      refine further ((safe tx current seen).elim (fun earlier => ?_) id)
      exact relied tx.hash (mem_append_left _ earlier)
    by_cases live : tx.hash ∈ loop.liveApplied
    · simp only [visitTransaction, current, if_neg seen, if_pos live, Call.relied]
      exact further (relied tx.hash (mem_append_right _ live))
    · simpa only [visitTransaction, current, if_neg seen, if_neg live, Call.relied]
        using relied

theorem execute_relied :
    ∀ hash ∈ (Call.mk block (execute env block shared loop).1).relied,
      (execute env block shared loop).2.db.txApplied hash = true := by
  rcases execute_cases env block shared loop with
    ⟨tx, db, current, -, applies, outcome⟩ |
    ⟨_, outcome, ⟨tx, current, marked, rfl⟩ | ⟨_, _, rfl⟩ | rfl⟩
  · have before : ∀ hash ∈ loop.passed block ++ loop.liveApplied, db.txApplied hash = true := by
      intro hash mem
      rw [applies.txApplied, relied hash mem, Bool.or_true]
    have new : db.txApplied tx.hash = true := by
      rw [applies.txApplied, decide_eq_true rfl, Bool.true_or]
    rw [outcome]
    exact relied_of_index current rfl rfl before new
  · rw [outcome]
    exact relied_of_index current rfl rfl relied marked
  · simp [outcome, Call.relied]
  · simp [outcome, Call.relied]

end

/-- After a section, what its call relies on is marked. -/
theorem advance_relied {id : Nat} {call : Call} (complete : Complete contents system)
    (met : CompletionGuard contents system (.advance id env visit restore))
    (present : system.calls id = some call) :
    ∀ hash ∈ (Call.mk call.block
        (advance env visit restore call.block system.shared call.phase).1).relied,
      (advance env visit restore call.block system.shared call.phase).2.db.txApplied hash =
        true := by
  obtain ⟨same, relied⟩ := complete.calls id call present
  have condition := met call present
  obtain ⟨block, phase⟩ := call
  cases phase with
  | checkingBlock =>
    simp only [advance, checkBlock]
    split
    · next processed =>
      intro hash mem
      exact complete.blocks block.blockHash processed hash (same ▸ mem)
    · simp [Call.relied]
  | collecting =>
    simp only [advance, collect]
    split <;> simp [Call.relied]
  | snapshotting remaining taken =>
    simp only [advance, snapshot]
    split <;> simp [Call.relied]
  | prefiltering snapshots =>
    simp only [advance, prefilter]
    split
    · intro hash mem
      exact (mem_filterProcessedTxMarkers.mp (by simpa [Call.relied, Loop.passed] using mem)).2
    · simp [Call.relied]
  | looping loop =>
    rw [advance, visitTransaction_shared]
    exact visitTransaction_relied relied condition
  | executing loop => exact execute_relied relied
  | undoing hash cause loop => simp [advance, undo, Call.relied]
  | marking loop =>
    intro hash mem
    rw [DB.txApplied, (advance_sameEffects env visit restore block system.shared (by simp)
      (by simp)).txProcessed]
    exact relied hash mem
  | _ => simp [advance, Call.relied]

/-! ## Runs -/

theorem advance_complete {id : Nat} (complete : Complete contents system)
    (met : CompletionGuard contents system (.advance id env visit restore))
    (taken : systemStep system (.advance id env visit restore) = some after) :
    Complete contents after := by
  obtain ⟨call, moved, running, advanced, calls⟩ := systemStep_advance taken
  have relied := advance_relied complete met running.1
  have condition := met call running.1
  rw [advanced] at relied
  have shared : (advance env visit restore call.block system.shared call.phase).2 = after.shared :=
    congrArg Prod.snd advanced
  -- a marker survives when the rollback of this section spares it
  have survives : ∀ hash, system.shared.db.txApplied hash = true →
      (∀ failed cause loop, call.phase = .undoing failed cause loop → hash ∉ loop.successful) →
      after.shared.db.txApplied hash = true := fun hash applied kept =>
    shared ▸ advance_keeps _ _ _ _ applied kept
  constructor
  · intro other second present
    rw [calls] at present
    by_cases same : other = id
    · rw [same, update_self, Option.some.injEq] at present
      subst present
      exact ⟨(complete.calls id call running.1).1, relied⟩
    rw [update_of_ne same] at present
    obtain ⟨known, before⟩ := complete.calls other second present
    refine ⟨known, fun hash mem => survives hash (before hash mem) ?_⟩
    intro failed cause loop phase revoked
    rw [phase] at condition
    exact (condition hash revoked).1 other second same present mem
  · intro blockHash applied hash mem
    rw [← shared] at applied
    rcases advance_blockProcessed _ _ _ _ _ _ applied with before | ⟨loop, phase, same⟩
    · refine survives hash (complete.blocks blockHash before hash mem) ?_
      intro failed cause loop phase revoked
      rw [phase] at condition
      exact (condition hash revoked).2 blockHash before mem
    · have known := complete.calls id call running.1
      rw [same, ← known.1] at mem
      refine survives hash (known.2 hash ?_) (by simp [phase])
      simpa [Call.relied, phase] using mem

theorem systemStep_complete {event : Event} (complete : Complete contents system)
    (met : CompletionGuard contents system event) (taken : systemStep system event = some after) :
    Complete contents after := by
  cases event with
  | enter id block =>
    obtain ⟨shared, calls⟩ := systemStep_enter taken
    refine ⟨fun other call present => ?_, shared ▸ complete.blocks⟩
    rw [calls] at present
    rw [shared]
    by_cases same : other = id
    · rw [same, update_self, Option.some.injEq] at present
      subst present
      exact ⟨met, by simp [Call.relied]⟩
    · rw [update_of_ne same] at present
      exact complete.calls other call present
  | advance id env visit restore => exact advance_complete complete met taken
  | recon env number expectHash =>
    have marks := applyBlockRecon_onlyMarks env number expectHash system.shared.db
    cases taken
    refine ⟨fun id call present => ?_, fun blockHash applied hash mem => ?_⟩
    · obtain ⟨known, relied⟩ := complete.calls id call present
      exact ⟨known, fun hash mem => marks.kept hash (relied hash mem)⟩
    · rw [marks.others] at applied
      exact marks.kept hash (complete.blocks blockHash applied hash mem)
  | store number block =>
    cases taken
    exact ⟨complete.calls, complete.blocks⟩

/-- Only the last section of a call returns nil. -/
theorem anchoring_of_returned_nil {after : Shared} (running : phase.isReturned = false)
    (returned : advance env visit restore block shared phase = (.returned .nil, after)) :
    phase = .anchoring := by
  have moved := congrArg Prod.fst returned
  cases phase with
  | anchoring => rfl
  | returned result => cases running
  | executing loop =>
    rcases execute_cases env block shared loop with
      ⟨_, _, -, -, -, outcome⟩ | ⟨_, outcome, ⟨_, -, -, rfl⟩ | ⟨_, _, rfl⟩ | rfl⟩ <;>
    · rw [advance, outcome] at moved
      cases moved
  | _ =>
    simp only [advance, checkBlock, collect, snapshot, prefilter, visitTransaction] at moved
    repeat' split at moved
    all_goals cases moved

/-- In every run whose skips and revocations are all safe, a call that returns nil
leaves every transaction of its block marked at that moment. -/
theorem returned_nil_marks_block {contents : Hash → List Hash} {initial : DB}
    (consistent : ∀ blockHash, initial.blockProcessed.isApplied blockHash = true →
      ∀ hash ∈ contents blockHash, initial.txApplied hash = true)
    {events : List Event} {before after : System}
    (runs : Runs systemStep (CompletionGuard contents) (System.start initial) events before)
    {id : Nat} {env : Env} {visit : MapOrder Address}
    {restore : MapOrder (Address × AccountSnapshot)}
    (taken : systemStep before (.advance id env visit restore) = some after) {block : ZKBlock}
    (returned : after.calls id = some ⟨block, .returned .nil⟩) :
    ∀ tx ∈ block.transactions, after.shared.db.txApplied tx.hash = true := by
  have complete : Complete contents before :=
    runs.invariant ⟨by simp [System.start], consistent⟩ fun _ _ _ complete met taken =>
      systemStep_complete complete met taken
  obtain ⟨call, moved, running, advanced, calls⟩ := systemStep_advance taken
  rw [calls, update_self, Option.some.injEq, Call.mk.injEq] at returned
  obtain ⟨rfl, rfl⟩ := returned
  have last := anchoring_of_returned_nil running.2 advanced
  intro tx member
  have marked : before.shared.db.txApplied tx.hash = true := by
    apply (complete.calls id call running.1).2
    have listed : tx.hash ∈ txHashes call.block := mem_map_of_mem member
    simpa [Call.relied, last] using listed
  rw [← show (advance env visit restore call.block before.shared call.phase).2 = after.shared from
    congrArg Prod.snd advanced]
  exact advance_keeps _ _ _ _ marked (by simp [last])

/-- A block that holds one transfer, under a given hash. -/
def transferBlock (blockHash : Hash) : ZKBlock :=
  { transactions := [smallTransfer 11 0], coinbaseAddr := some 3, zkvmAddr := some 4, blockHash }

/-- Two calls reach the same transfer; the first has noted it and not yet executed
it, and the second takes it for a duplicate and goes on to its last section. -/
def skippedTransferRun : List Event :=
  [.enter 0 (transferBlock 100), .enter 1 (transferBlock 200)] ++ sections 1 9 ++ sections 0 10 ++
    sections 1 3

theorem returned_nil_skips_transfer :
    ∃ before after, run systemStep (System.start { accounts := fundedStore }) skippedTransferRun =
        some before ∧
      systemStep before (.advance 1 {} MapOrder.listed MapOrder.listed) = some after ∧
      after.calls 1 = some ⟨transferBlock 200, .returned .nil⟩ ∧
      after.shared.db.txApplied 11 = false := by
  have outcome : (run systemStep (System.start { accounts := fundedStore }) skippedTransferRun).any
      (fun before => (systemStep before (.advance 1 {} MapOrder.listed MapOrder.listed)).any
        (fun after => decide (after.calls 1 = some ⟨transferBlock 200, .returned .nil⟩ ∧
          after.shared.db.txApplied 11 = false))) = true := by
    decide +kernel
  obtain ⟨before, reached, last⟩ := (Option.any_eq_true _ _).mp outcome
  obtain ⟨after, taken, facts⟩ := (Option.any_eq_true _ _).mp last
  exact ⟨before, after, reached, taken, of_decide_eq_true facts⟩

/-- A block that fails at its second transaction. -/
def rejectedBlock : ZKBlock :=
  { transactions := [smallTransfer 31 0, smallTransfer 32 0], coinbaseAddr := some 3
    zkvmAddr := some 4, blockHash := 300 }

/-- The transactions under the hashes of three blocks. -/
def threeContents (blockHash : Hash) : List Hash :=
  if blockHash = 300 then [31, 32]
  else if blockHash = 100 ∨ blockHash = 200 then [11] else []

/-- Whether an event of three calls meets the condition. -/
def careful (system : System) : Event → Bool
  | .enter id block => id < 3 && txHashes block = threeContents block.blockHash
  | .store _ _ => true
  | .recon _ _ _ => true
  | .advance id _ _ _ =>
    match system.calls id with
    | some ⟨_, .undoing _ _ loop⟩ => loop.successful.all fun hash =>
        ([0, 1, 2].all fun other => other = id ||
          (system.calls other).all fun call => hash ∉ call.relied) &&
        [100, 200, 300].all fun blockHash =>
          !system.shared.db.blockProcessed.isApplied blockHash || hash ∉ threeContents blockHash
    | some ⟨block, .looping loop⟩ => (block.transactions[loop.index]?).all fun tx =>
        tx.hash ∉ system.shared.processedTxs || tx.hash ∈ loop.passed block ||
          system.shared.db.txApplied tx.hash
    | _ => true

/-- Only three calls have been made. -/
def ThreeCalls (system : System) : Prop :=
  ∀ id, 3 ≤ id → system.calls id = none

theorem threeCalls_of_careful (system : System) (event : Event) (after : System)
    (three : ThreeCalls system) (passed : careful system event = true)
    (taken : systemStep system event = some after) : ThreeCalls after := by
  intro other above
  cases event with
  | enter id block =>
    have below : id < 3 := by
      simp only [careful, Bool.and_eq_true, decide_eq_true_eq] at passed
      exact passed.1
    rw [(systemStep_enter taken).2, update_of_ne (by omega)]
    exact three other above
  | advance id env visit restore =>
    obtain ⟨call, moved, running, -, calls⟩ := systemStep_advance taken
    have known : other ≠ id := by
      rintro rfl
      have absent := running.1
      rw [three other above] at absent
      cases absent
    rw [calls, update_of_ne known]
    exact three other above
  | recon env number expectHash =>
    cases taken
    exact three other above
  | store number block =>
    cases taken
    exact three other above

theorem completionGuard_of_careful (system : System) (event : Event) (three : ThreeCalls system)
    (passed : careful system event = true) : CompletionGuard threeContents system event := by
  cases event with
  | enter id block =>
    simp only [careful, Bool.and_eq_true, decide_eq_true_eq] at passed
    exact passed.2
  | store number block => trivial
  | recon env number expectHash => trivial
  | advance id env visit restore =>
    rintro ⟨block, phase⟩ present
    cases phase with
    | looping loop =>
      intro tx current seen
      simpa [careful, present, current, seen] using passed
    | undoing failed cause loop =>
      intro hash revoked
      simp only [careful, present, all_eq_true, Bool.and_eq_true] at passed
      obtain ⟨others, blocks⟩ := passed hash revoked
      constructor
      · intro other call differs found
        have inside : other ∈ [0, 1, 2] := by
          have below : other < 3 := by
            by_contra above
            rw [three other (by omega)] at found
            cases found
          simp only [mem_cons, not_mem_nil, or_false]
          omega
        simpa [differs, found] using others other inside
      · intro blockHash processed listed
        have inside : blockHash ∈ [100, 200, 300] := by
          by_contra unknown
          simp only [mem_cons, not_mem_nil, or_false, not_or] at unknown
          rw [threeContents, if_neg unknown.2.2, if_neg (by tauto)] at listed
          cases listed
        simpa [processed, listed] using blocks blockHash inside
    | _ => trivial

/-- A block is rolled back.  Then two calls reach the same transfer, and the second takes
it for a duplicate after the first has executed it. -/
def executedTransferRun : List Event :=
  .enter 2 rejectedBlock :: sections 2 14 ++
    [.enter 0 (transferBlock 100), .enter 1 (transferBlock 200)] ++ sections 1 9 ++
      sections 0 11 ++ sections 1 3

theorem returned_nil_marks_executed_transfer :
    ∃ before after, Runs systemStep (CompletionGuard threeContents)
        (System.start { accounts := fundedStore }) executedTransferRun before ∧
      systemStep before (.advance 1 {} MapOrder.listed MapOrder.listed) = some after ∧
      after.calls 1 = some ⟨transferBlock 200, .returned .nil⟩ ∧
      after.shared.db.txApplied 11 = true := by
  have outcome : (runIf systemStep careful (System.start { accounts := fundedStore })
      executedTransferRun).any
      (fun before => (systemStep before (.advance 1 {} MapOrder.listed MapOrder.listed)).any
        (fun after => decide (after.calls 1 = some ⟨transferBlock 200, .returned .nil⟩))) = true := by
    decide +kernel
  obtain ⟨before, reached, last⟩ := (Option.any_eq_true _ _).mp outcome
  obtain ⟨after, taken, fact⟩ := (Option.any_eq_true _ _).mp last
  have runs : Runs systemStep (CompletionGuard threeContents) _ executedTransferRun before :=
    (runs_of_runIf (fun _ _ passed => passed) reached).imp (fun _ _ => rfl)
      threeCalls_of_careful completionGuard_of_careful
  have returned := of_decide_eq_true fact
  exact ⟨before, after, runs, taken, returned,
    returned_nil_marks_block (by simp [Markers.isApplied]) runs taken returned (smallTransfer 11 0)
      (by decide)⟩

end Jmdn.BlockProcessing
