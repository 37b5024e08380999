import Jmdn.FastsyncV2.Writes

/-!
# The applied anchor over whole runs

A run that handed a range over goes on to move the anchor to the end of the range
once the queue is empty.  Until then everything up to that end is applied or
waits in the queue, and this is what every step keeps.
-/

namespace Jmdn.FastsyncV2

open Jmdn.BlockProcessing (processBlockTransactions processes)
open Config DBOPs List Transition

variable {node : Node} {contents : Hash → List Hash} {event : Event} {pass : Pass}

/-! ## Claims of a run -/

def Pass.claims (pass : Pass) : List UInt64 :=
  if pass.clean then [pass.toBlock] else []

/-- The target of phase 8, which a catch-up keeps from its phase 5. -/
def Run.kept (run : Run) (reconClean : Bool) : List UInt64 :=
  match run.kind with
  | .sync _ => []
  | .catchUp _ remoteTip => if reconClean then [remoteTip] else []

@[simp]
theorem Run.kept_false (run : Run) : run.kept false = [] := by
  unfold Run.kept
  split <;> rfl

/-- The numbers up to which a run may still move the anchor without looking at
the blocks again. -/
def Run.claims (run : Run) : List UInt64 :=
  match run.stage with
  | .fetching => []
  | .reconciled pass => pass.claims
  | .pots reconClean => run.kept reconClean
  | .potsReconciled reconClean pass => pass.claims ++ run.kept reconClean
  | .finishing reconClean => run.kept reconClean

/-- Everything that is claimed has been handed over. -/
def Holds (node : Node) (claims : List UInt64) : Prop :=
  ∀ upTo ∈ claims, Handed node upTo

theorem Holds.grow {before after : Node} (grows : Grows before after) {claims : List UInt64}
    (holds : Holds before claims) : Holds after claims :=
  fun upTo claimed => (holds upTo claimed).grow grows

theorem holds_kept_false (node : Node) (run : Run) : Holds node (run.kept false) := by
  rw [Run.kept_false]
  exact fun _ claimed => nomatch claimed

section

variable {contents : Hash → List Hash} {env : SyncEnv} {node after : Node} {run moved : Run}

theorem holds_claims (handed : pass.clean = true → Handed node pass.toBlock) :
    Holds node pass.claims := by
  intro upTo claimed
  unfold Pass.claims at claimed
  split at claimed
  · next clean =>
    rw [mem_singleton.mp claimed]
    exact handed clean
  · cases claimed

section

variable (inv : NodeInv contents node)
include inv

/-- What the pass of `reconPass` claims, if there is one. -/
theorem holds_reconPass {fromBlock toBlock : UInt64} (reaches : Reaches node fromBlock)
    (made : (reconPass env fromBlock toBlock node).1 = some pass) :
    Holds (reconPass env fromBlock toBlock node).2 pass.claims := by
  refine holds_claims fun clean => ?_
  have target : pass.toBlock = toBlock := by
    unfold reconPass at made
    dsimp only at made
    split at made
    · cases made
    · cases made
      rfl
  rw [target]
  exact (advances_reconPass inv fromBlock toBlock).2 reaches (by rw [made]; exact clean)

theorem holds_kept_reconcile (reaches : Reaches node run.firstBlock) (stage : Stage) :
    Holds (reconPass env run.firstBlock run.lastBlock node).2
      (Run.kept { run with stage }
        ((reconPass env run.firstBlock run.lastBlock node).1.elim true Pass.clean)) := by
  intro upTo claimed
  rcases run with ⟨kind | ⟨fromBlock, remoteTip⟩, blockHeight, _⟩
  · cases claimed
  simp only [Run.kept] at claimed
  split at claimed
  · next clean =>
    rw [mem_singleton.mp claimed]
    exact (advances_reconPass inv _ _).2 reaches clean
  · cases claimed

theorem reconcileStep_keeps (reaches : Reaches node run.firstBlock)
    (taken : reconcileStep env run node = some (moved, after)) :
    Advances contents node after ∧ Holds after moved.claims := by
  unfold reconcileStep at taken
  split at taken
  · dsimp only at taken
    split at taken
    · obtain ⟨rfl, rfl⟩ := Prod.mk.inj (Option.some.inj taken)
      refine ⟨(advances_reconPass inv _ _).1, ?_⟩
      cases made : (reconPass env run.firstBlock run.lastBlock node).1 with
      | none => exact holds_kept_false _ _
      | some pass => exact holds_reconPass inv reaches made
    · obtain ⟨rfl, rfl⟩ := Prod.mk.inj (Option.some.inj taken)
      exact ⟨(advances_reconPass inv _ _).1, holds_kept_reconcile inv reaches _⟩
  · cases taken

theorem potsStep_keeps {missing : Bool}
    (reaches : missing = true → Reaches node run.potsFirstBlock) (holds : Holds node run.claims)
    (taken : potsStep env missing run node = some (moved, after)) :
    Advances contents node after ∧ Holds after moved.claims := by
  unfold potsStep at taken
  split at taken
  · next reconClean stage =>
    have kept : Holds node (run.kept reconClean) := by
      simpa only [Run.claims, stage] using holds
    split at taken
    · next answered =>
      obtain ⟨rfl, rfl⟩ := Prod.mk.inj (Option.some.inj taken)
      have advances := (@advances_reconPass contents env node inv run.potsFirstBlock
        (trueLocalHead env node)).1
      refine ⟨advances, ?_⟩
      cases made : (reconPass env run.potsFirstBlock (trueLocalHead env node) node).1 with
      | none => exact kept.grow advances.grows
      | some pass =>
        intro upTo claimed
        rcases mem_append.mp claimed with new | old
        · exact holds_reconPass inv (reaches answered) made upTo new
        · exact (kept upTo old).grow advances.grows
    · obtain ⟨rfl, rfl⟩ := Prod.mk.inj (Option.some.inj taken)
      exact ⟨inv.unchanged rfl rfl rfl, kept⟩
  · cases taken

theorem advanceStep_keeps (holds : Holds node run.claims)
    (taken : advanceStep env run node = some (moved, after)) :
    Advances contents node after ∧ Holds after moved.claims := by
  have advances : ∀ pass : Pass, Holds node pass.claims → Advances contents node
      (advanceReconAnchorIfProven env node pass.handover pass.fromBlock pass.toBlock).2 := by
    intro pass claims
    refine advances_advanceReconAnchorIfProven inv fun clean => claims _ ?_
    simp [Pass.claims, clean]
  unfold advanceStep at taken
  split at taken
  · next pass stage =>
    obtain ⟨rfl, rfl⟩ := Prod.mk.inj (Option.some.inj taken)
    rw [Run.claims, stage] at holds
    exact ⟨advances pass holds, holds_kept_false _ _⟩
  · next reconClean pass stage =>
    obtain ⟨rfl, rfl⟩ := Prod.mk.inj (Option.some.inj taken)
    rw [Run.claims, stage] at holds
    have moves := advances pass fun upTo claimed =>
      holds upTo (mem_append_left _ claimed)
    exact ⟨moves, fun upTo claimed =>
      (holds upTo (mem_append_right _ claimed)).grow moves.grows⟩
  · cases taken

theorem finishStep_keeps (holds : Holds node run.claims)
    (taken : finishStep env run node = some after) : Advances contents node after := by
  unfold finishStep at taken
  split at taken
  · cases taken
    exact advances_endSyncSession inv
  · next reconClean fromBlock remoteTip stage catchUp =>
    split at taken
    · next proven =>
      cases taken
      have claimed : remoteTip ∈ run.claims := by
        simp [Run.claims, stage, Run.kept, catchUp, proven.2]
      have marks := @advances_markReconComplete contents env node inv remoteTip
        (holds remoteTip claimed)
      split
      · have moves := marks.trans
          (advances_updateLatestBlockMonotonic marks.inv env.latestOk remoteTip)
        exact moves.trans (advances_endSyncSession moves.inv)
      · exact marks.trans (advances_endSyncSession marks.inv)
    · cases taken
      exact advances_endSyncSession inv
  · cases taken

end

end

/-! ## The system -/

/-- What an event has to meet so that the anchor keeps its meaning.
- A live block fits the anchor and what is stored.
- Data is stored for applied transactions, at or below the seed, or above the
  anchor and everything that was handed over.
- A pass starts where no unapplied block is left between the anchor and it. -/
def Proper (contents : Hash → List Hash) (system : System) : Event → Prop
  | .live _ _ block _ _ => LiveFits contents system.node block
  | .writeData data _ _ => ∀ item ∈ data,
      (∀ tx ∈ item.transactions, system.node.db.txApplied tx.hash = true) ∨
      item.blockNumber ≤ system.node.seed ∨
      (system.node.anchor < item.blockNumber ∧
        ∀ id run, system.runs id = some run → ∀ upTo ∈ run.claims, upTo < item.blockNumber)
  | .reconcile id _ => ∀ run, system.runs id = some run → Reaches system.node run.firstBlock
  | .pots id _ missing => missing = true → ∀ run, system.runs id = some run →
      Reaches system.node run.potsFirstBlock
  | _ => True

structure Inv (contents : Hash → List Hash) (system : System) : Prop where
  node : NodeInv contents system.node
  runs : ∀ id run, system.runs id = some run → Holds system.node run.claims

section

variable {contents : Hash → List Hash} {system after : System}

section

variable (inv : Inv contents system)
include inv

/-- A step of the node while the runs stay where they are. -/
theorem Inv.advances (advances : Advances contents system.node node) :
    Inv contents { system with node } :=
  ⟨advances.inv, fun id run found => (inv.runs id run found).grow advances.grows⟩

/-- A step that puts a run, or none, in the place of a run. -/
theorem Inv.update (advances : Advances contents system.node node)
    (id : Nat) {run : Option Run} (holds : ∀ new, run = some new → Holds node new.claims) :
    Inv contents { node, runs := Function.update system.runs id run } := by
  refine ⟨advances.inv, fun other found present => ?_⟩
  by_cases same : other = id
  · subst same
    exact holds found (by simpa using present)
  · exact (inv.runs other found (by simpa [same] using present)).grow advances.grows

theorem Inv.stores {fresh : ZKBlock → Prop} (stores : Stores fresh system.node node)
    (anchor : ∀ block, fresh block → Harmless system.node system.node.anchor block)
    (claims : ∀ id run, system.runs id = some run → ∀ upTo ∈ run.claims,
      ∀ block, fresh block → Harmless system.node upTo block) :
    Inv contents { system with node } :=
  ⟨inv.node.stores stores anchor, fun id run found upTo claimed =>
    (inv.runs id run found upTo claimed).stores stores (claims id run found upTo claimed)⟩

theorem move_keeps {id : Nat} {step : Run → Node → Option (Run × Node)}
    (taken : system.move id step = some after)
    (keeps : ∀ run moved node, system.runs id = some run → Holds system.node run.claims →
      step run system.node = some (moved, node) →
      Advances contents system.node node ∧ Holds node moved.claims) :
    Inv contents after ∧ system.node.anchor ≤ after.node.anchor := by
  obtain ⟨run, found, stepped⟩ := Option.bind_eq_some_iff.mp taken
  obtain ⟨⟨moved, node⟩, result, rfl⟩ := Option.map_eq_some_iff.mp stepped
  obtain ⟨advances, holds⟩ := keeps run moved node found (inv.runs id run found) result
  refine ⟨inv.update advances id fun new same => ?_, advances.anchor⟩
  cases same
  exact holds

theorem live_keeps {block : ZKBlock}
    (fits : LiveFits contents system.node block) (env : BlockProcessing.Env)
    (order : Go.MapOrder Address) (storeOk latestOk : Bool) :
    Inv contents { system with node := applyLive env order block storeOk latestOk system.node } ∧
      system.node.anchor ≤ (applyLive env order block storeOk latestOk system.node).anchor := by
  have call := processes env order block system.node.db
  unfold applyLive
  generalize processBlockTransactions env order block system.node.db = outcome at call ⊢
  obtain ⟨result, db⟩ := outcome
  have moves := advances_live inv.node fits call
  have middle := inv.advances moves
  dsimp only
  split
  · next stored =>
    have put : Stores (· = block) { system.node with db }
        { system.node with db := putBlock db block } :=
      ⟨@wrote_putBlock (· = block) block rfl db, rfl, rfl⟩
    have stores := stores_updateLatestBlockMonotonic put latestOk block.blockNumber
    have harmless : ∀ upTo other, other = block → Harmless { system.node with db } upTo other :=
      fun upTo other same => .inl (same ▸ applied_of_live inv.node fits call stored.1)
    exact ⟨middle.stores stores (harmless _) fun _ _ _ upTo _ => harmless upTo,
      by rw [stores.anchor]; exact moves.anchor⟩
  · exact ⟨middle, moves.anchor⟩

theorem writeData_keeps {data : List NonHeaders} {completed latestOk : Bool}
    (proper : Proper contents system (.writeData data completed latestOk)) :
    Inv contents { system with node := writeData system.node data completed latestOk } ∧
      system.node.anchor ≤ (writeData system.node data completed latestOk).anchor := by
  have stores := stores_writeData inv.node.keyed data completed latestOk
  -- the third case of the condition serves the anchor and the claims alike
  have harmless : ∀ upTo, (∀ item ∈ data, system.node.anchor < item.blockNumber ∧
        (∀ id run, system.runs id = some run → ∀ claim ∈ run.claims, claim < item.blockNumber) →
        upTo < item.blockNumber) →
      ∀ block : ZKBlock, (∃ item ∈ data, block.blockNumber = item.blockNumber ∧
        block.transactions = item.transactions) → Harmless system.node upTo block := by
    rintro upTo beyond block ⟨item, listed, number, transactions⟩
    rw [Harmless, number]
    rcases proper item listed with applied | low | high
    · exact .inl (by simpa [Applied, txHashes, transactions] using applied)
    · exact .inr (.inl low)
    · exact .inr (.inr (beyond item listed high))
  exact ⟨inv.stores stores (harmless _ fun _ _ high => high.1)
      fun id run found upTo claimed => harmless upTo fun _ _ high =>
        high.2 id run found upTo claimed,
    by rw [stores.anchor]; exact UInt64.le_refl _⟩

theorem writeHeaders_keeps (headers : List ZKBlock) (completed : Bool) :
    Inv contents { system with node := writeHeaders system.node headers completed } ∧
      system.node.anchor ≤ (writeHeaders system.node headers completed).anchor := by
  have stores := stores_writeHeaders inv.node.keyed headers completed
  have harmless : ∀ upTo block, txHashes block = [] → Harmless system.node upTo block :=
    fun upTo block empty => .inl (by simp [Applied, empty])
  exact ⟨inv.stores stores (harmless _) fun _ _ _ upTo _ => harmless upTo,
    by rw [stores.anchor]; exact UInt64.le_refl _⟩

/-- A proper step keeps the invariant and does not lower the anchor. -/
theorem systemStep_keeps (proper : Proper contents system event)
    (taken : systemStep system event = some after) :
    Inv contents after ∧ system.node.anchor ≤ after.node.anchor := by
  have began : Advances contents system.node (beginSyncSession system.node) :=
    inv.node.unchanged rfl rfl rfl
  have starts : ∀ id run, run.claims = [] →
      Inv contents (system.begin id run) ∧
        system.node.anchor ≤ (system.begin id run).node.anchor := by
    intro id run none
    refine ⟨inv.update began id fun new same => ?_, began.anchor⟩
    cases same
    rw [none]
    exact fun _ claimed => nomatch claimed
  cases event with
  | live env order block storeOk latestOk =>
    cases taken
    exact live_keeps inv proper env order storeOk latestOk
  | writeHeaders headers completed =>
    cases taken
    exact writeHeaders_keeps inv headers completed
  | writeData data completed latestOk =>
    cases taken
    exact writeData_keeps inv proper
  | drain recon ack index =>
    cases taken
    have advances := advances_drain inv.node recon ack index
    exact ⟨inv.advances advances, advances.anchor⟩
  | beginSync id env blockHeight =>
    simp only [systemStep] at taken
    split at taken
    · cases taken
      exact starts id _ rfl
    · cases taken
  | beginCatchUp id env fromBlock blockHeight =>
    simp only [systemStep] at taken
    split at taken
    · cases taken
      cases entered : catchUpRun env fromBlock blockHeight system.node with
      | none =>
        have ended := began.trans (@advances_endSyncSession contents env _ began.inv)
        exact ⟨inv.advances ended, ended.anchor⟩
      | some run =>
        obtain ⟨-, same⟩ := Option.ite_none_left_eq_some.mp entered
        cases same
        exact starts id _ rfl
    · cases taken
  | refresh id blockHeight =>
    refine move_keeps inv taken fun run moved node found holds result => ?_
    unfold refreshStep at result
    split at result
    · next stage =>
      cases result
      refine ⟨inv.node.unchanged rfl rfl rfl, ?_⟩
      simp only [Run.claims, stage] at holds ⊢
      exact holds
    · cases result
  | reconcile id env =>
    exact move_keeps inv taken fun run moved node found _ result =>
      reconcileStep_keeps inv.node (proper run found) result
  | advance id env =>
    exact move_keeps inv taken fun run moved node _ holds result =>
      advanceStep_keeps inv.node holds result
  | pots id env missing =>
    exact move_keeps inv taken fun run moved node found holds result =>
      potsStep_keeps inv.node (fun answered => proper answered run found) holds result
  | finish id env =>
    obtain ⟨run, found, ended⟩ := Option.bind_eq_some_iff.mp taken
    obtain ⟨node, result, rfl⟩ := Option.map_eq_some_iff.mp ended
    have advances := finishStep_keeps inv.node (inv.runs id run found) result
    exact ⟨inv.update advances id nofun, advances.anchor⟩
  | abort id env =>
    obtain ⟨run, found, rfl⟩ := Option.map_eq_some_iff.mp taken
    have advances := @advances_endSyncSession contents env system.node inv.node
    exact ⟨inv.update advances id nofun, advances.anchor⟩
  | restart kept =>
    cases taken
    -- the runs are gone, so what the queue lost was claimed by nobody
    exact ⟨⟨⟨inv.node.keyed, inv.node.marked, inv.node.unset, inv.node.covered⟩, nofun⟩,
      UInt64.le_refl _⟩

end

end

/-- A system before its first event.  The seed is the anchor it starts with, an
unset anchor counting as zero; a marked block has marked transactions. -/
structure Initial (contents : Hash → List Hash) (system : System) : Prop where
  idle : ∀ id, system.runs id = none
  keyed : Keyed system.node.db.blocks
  marked : ∀ blockHash, system.node.db.blockProcessed.isApplied blockHash = true →
    ∀ hash ∈ contents blockHash, system.node.db.txApplied hash = true
  seed : system.node.seed = system.node.anchor

theorem Initial.inv {start : System} (initial : Initial contents start) : Inv contents start := by
  refine ⟨⟨initial.keyed, initial.marked, fun absent => ?_, fun number block above below => ?_⟩,
    fun id run found => ?_⟩
  · rw [initial.seed, Node.anchor, absent]
    rfl
  · rw [initial.seed] at above
    grind
  · rw [initial.idle] at found
    cases found

/-- In every run of proper steps, the transactions of the stored blocks above the
seed and up to the anchor are applied, and no further step lowers the anchor. -/
theorem applied_up_to_anchor {contents : Hash → List Hash} {start state : System}
    {events : List Event} (initial : Initial contents start)
    (runs : Runs systemStep (Proper contents) start events state) :
    (∀ number block, state.node.seed < number → number ≤ state.node.anchor →
      state.node.db.blocks number = some block →
      ∀ hash ∈ txHashes block, state.node.db.txApplied hash = true) ∧
    ∀ event after, Proper contents state event → systemStep state event = some after →
      state.node.anchor ≤ after.node.anchor := by
  have inv : Inv contents state := runs.invariant initial.inv
    fun _ _ _ inv proper taken => (systemStep_keeps inv proper taken).1
  exact ⟨inv.node.covered, fun event after proper taken => (systemStep_keeps inv proper taken).2⟩

/-! ## Two syncs -/

def payment : Transaction :=
  { hash := 7, fromAddr := some 1, toAddr := some 2, value := some 5 }

/-- The data of a block, with a proof. -/
def provedData (blockNumber : UInt64) (transactions : List Transaction) : NonHeaders :=
  { blockNumber, zkProof := some ⟨"", [1], []⟩, transactions }

/-- Phase 5 fails to enqueue the only block of its range.  The second pass starts
after the height of the peer, finds nothing to do and advances. -/
def skippingSync : List Event :=
  [.beginSync 0 {} 1,
    .writeHeaders [{ blockNumber := 1, blockHash := 11 }] true,
    .writeData [provedData 1 [payment]] true true,
    .reconcile 0 { enqueueOk := fun _ => false },
    .advance 0 {},
    .writeHeaders [{ blockNumber := 2, blockHash := 12 }] true,
    .writeData [provedData 2 []] true true,
    .pots 0 {} true,
    .advance 0 {},
    .finish 0 {}]

theorem pots_pass_skips_a_block :
    ∃ state, Runs systemStep (fun _ _ => True) {} skippingSync state ∧ state.node.seed = 0 ∧
      state.node.anchor = 2 ∧ ∃ block, state.node.db.blocks 1 = some block ∧
        ∃ hash ∈ txHashes block, state.node.db.txApplied hash = false := by
  have outcome : (run systemStep {} skippingSync).any (fun state =>
      state.node.seed == 0 && state.node.anchor == 2 &&
        (state.node.db.blocks 1).any fun block =>
          (txHashes block).any fun hash => !state.node.db.txApplied hash) = true := by
    decide +kernel
  obtain ⟨state, reached, facts⟩ := (Option.any_eq_true _ _).mp outcome
  simp only [Bool.and_eq_true, beq_iff_eq, Option.any_eq_true, any_eq_true,
    Bool.not_eq_true'] at facts
  obtain ⟨⟨seed, anchor⟩, block, stored, hash, listed, unmarked⟩ := facts
  exact ⟨state, runs_of_run reached, seed, anchor, block, stored, hash, listed, unmarked⟩

/-- A test that only proper events pass; it settles the start of a pass by its
number. -/
def properTest (contents : Hash → List Hash) (system : System) : Event → Bool
  | .live _ _ block _ _ =>
    txHashes block == contents block.blockHash &&
      (block.blockNumber != system.node.anchor + 1 ||
        system.node.anchor < block.blockNumber &&
          (system.node.db.blocks block.blockNumber).isNone)
  | .writeData data _ _ => data.all fun item =>
    item.transactions.all fun tx => system.node.db.txApplied tx.hash
  | .reconcile id _ => (system.runs id).all fun run => run.firstBlock ≤ system.node.anchor + 1
  | .pots id _ missing => !missing ||
      (system.runs id).all fun run => run.potsFirstBlock ≤ system.node.anchor + 1
  | _ => true

theorem reaches_of_le {first : UInt64} (near : first ≤ node.anchor + 1) :
    Reaches node first := by
  intro number block above below
  grind

theorem proper_of_properTest {system : System} (passed : properTest contents system event = true) :
    Proper contents system event := by
  cases event with
  | live env order block storeOk latestOk =>
    simp only [properTest, Bool.and_eq_true, beq_iff_eq, Bool.or_eq_true, bne_iff_ne,
      decide_eq_true_eq, Option.isNone_iff_eq_none] at passed
    obtain ⟨content, near⟩ := passed
    refine ⟨content, fun next => ?_, fun next other stored => ?_⟩
    · exact (near.resolve_left (not_not_intro next)).1
    · rw [(near.resolve_left (not_not_intro next)).2] at stored
      cases stored
  | writeData data completed latestOk =>
    exact fun item listed => .inl fun tx carried =>
      all_eq_true.mp (all_eq_true.mp passed item listed) tx carried
  | reconcile id env =>
    intro run found
    simp only [properTest, found, Option.all_some, decide_eq_true_eq] at passed
    exact reaches_of_le passed
  | pots id env missing =>
    rintro rfl run found
    simp only [properTest, found, Option.all_some, Bool.not_true, Bool.false_or,
      decide_eq_true_eq] at passed
    exact reaches_of_le passed
  | _ => trivial

def pairHeaders : List ZKBlock :=
  [{ blockNumber := 1, blockHash := 11 }, { blockNumber := 2, blockHash := 12 }]

def pairData : List NonHeaders := [provedData 1 [payment], provedData 2 []]

/-- The transactions under the hashes of the two blocks. -/
def pairContents (blockHash : Hash) : List Hash :=
  if blockHash = 11 then [payment.hash] else []

/-- A node that has stored the two blocks. -/
def pairStored : System :=
  { node := writeData (writeHeaders {} pairHeaders true) pairData true true }

theorem runs_pairStored :
    Runs systemStep (Proper pairContents) {}
      [.writeHeaders pairHeaders true, .writeData pairData true true] pairStored := by
  refine Runs.snoc (Runs.snoc Runs.nil trivial rfl) (fun item listed => ?_) rfl
  refine .inr (.inr ⟨?_, nofun⟩)
  rcases mem_pair.mp listed with rfl | rfl <;> decide

/-- A catch-up over the two blocks, which waits until the first one is applied, and
a live block after it. -/
def applyingSync : List Event :=
  [.beginCatchUp 0 {} 1 2,
    .reconcile 0 {},
    .drain (fun _ => {}) true 0,
    .pots 0 {} false,
    .finish 0 {},
    .live {} .listed
      { blockNumber := 3, blockHash := 13, coinbaseAddr := some 3, zkvmAddr := some 4 } true true]

theorem initial_empty (contents : Hash → List Hash) : Initial contents {} :=
  ⟨fun _ => rfl, nofun, nofun, rfl⟩

theorem applying_sync_covers :
    ∃ events state, Runs systemStep (Proper pairContents) {} events state ∧
      state.node.anchor = 3 ∧ (state.node.db.blocks 1).map txHashes = some [payment.hash] ∧
      (∀ number block, state.node.seed < number → number ≤ state.node.anchor →
        state.node.db.blocks number = some block →
        ∀ hash ∈ txHashes block, state.node.db.txApplied hash = true) ∧
      ∀ event after, Proper pairContents state event → systemStep state event = some after →
        state.node.anchor ≤ after.node.anchor := by
  have outcome : (runIf systemStep (properTest pairContents) pairStored applyingSync).any
      (fun state => state.node.anchor == 3 &&
        (state.node.db.blocks 1).map txHashes == some [payment.hash]) = true := by
    decide +kernel
  obtain ⟨state, reached, facts⟩ := (Option.any_eq_true _ _).mp outcome
  simp only [Bool.and_eq_true, beq_iff_eq] at facts
  have runs := runs_pairStored.trans (runs_of_runIf (fun _ _ => proper_of_properTest) reached)
  exact ⟨_, state, runs, facts.1, facts.2, applied_up_to_anchor (initial_empty pairContents) runs⟩

end Jmdn.FastsyncV2
