import Jmdn.BlockProcessing.Concurrent
import Jmdn.BlockProcessing.Rollback
import Jmdn.DBOPs.ReconGroups

/-!
# Balances under concurrent application

Every balance is the initial one plus the effects of the transactions marked
applied.  Executions and reconciliations keep this by themselves.  A rollback
keeps it when it takes back exactly what its own call did: then the snapshot it
restores is the present balance less those effects.
-/

namespace Jmdn.BlockProcessing

open Config DBOPs Function Go Ledger List Transition

variable {blocks : Set ZKBlock} {after : Shared} {initial : DB}

/-- The effects of logged executions on an address. -/
def loggedEffect (log : List (ZKBlock × Transaction)) (address : Address) : Int :=
  (log.map fun entry => balanceEffect entry.1 entry.2 address).sum

theorem loggedEffect_append (first second : List (ZKBlock × Transaction)) (addr : Address) :
    loggedEffect (first ++ second) addr =
      loggedEffect first addr + loggedEffect second addr := by
  simp [loggedEffect]

theorem loggedEffect_map (block : ZKBlock) (txs : List Transaction) (addr : Address) :
    loggedEffect (txs.map fun tx => (block, tx)) addr = totalEffect block txs addr := by
  rw [loggedEffect, totalEffect_apply, map_map]
  rfl

/-- A log splits into the entries a test keeps and those it drops. -/
theorem loggedEffect_filter (log : List (ZKBlock × Transaction))
    (keep : ZKBlock × Transaction → Bool) (addr : Address) :
    loggedEffect log addr =
      loggedEffect (log.filter keep) addr + loggedEffect (log.filter fun e => !keep e) addr := by
  rw [← loggedEffect_append]
  exact ((filter_append_perm keep log).map _).sum_eq.symm

/-- The invariant: balances and markers are those of the log. -/
structure Conserved (blocks : Set ZKBlock) (initial : DB) (shared : Shared) : Prop where
  balances : ∀ address, value shared.db.accounts.amount address =
    value initial.accounts.amount address + loggedEffect shared.log address
  marked : ∀ hash, shared.db.txApplied hash = true ↔
    hash ∈ shared.log.map fun entry => entry.2.hash
  distinct : (shared.log.map fun entry => entry.2.hash).Nodup
  known : ∀ entry ∈ shared.log, entry.1 ∈ blocks ∧ entry.2 ∈ entry.1.transactions
  stored : ∀ number block, shared.db.blocks number = some block → block ∈ blocks

namespace Conserved

variable {blocks : Set ZKBlock} {initial : DB} {shared : Shared}

/-- A step without effects keeps the invariant. -/
theorem of_sameEffects (conserved : Conserved blocks initial shared)
    (same : SameEffects shared after) : Conserved blocks initial after where
  balances addr := by rw [same.accounts, same.log, conserved.balances]
  marked hash := by rw [DB.txApplied, same.txProcessed, same.log, ← conserved.marked, DB.txApplied]
  distinct := same.log ▸ conserved.distinct
  known := same.log ▸ conserved.known
  stored := same.blocks ▸ conserved.stored

/-- Transactions that were not marked are added: balances, markers and log grow
together. -/
theorem grow {block : ZKBlock} {txs : List Transaction} {touched : Set Address}
    (conserved : Conserved blocks initial shared) (mem : block ∈ blocks)
    (inside : ∀ tx ∈ txs, tx ∈ block.transactions) (nodup : (txs.map Transaction.hash).Nodup)
    (fresh : ∀ tx ∈ txs, shared.db.txApplied tx.hash = false)
    (adds : Adds shared.db.accounts.amount after.db.accounts.amount (totalEffect block txs) touched)
    (applied : ∀ hash, after.db.txApplied hash =
      (decide (hash ∈ txs.map Transaction.hash) || shared.db.txApplied hash))
    (log : after.log = shared.log ++ txs.map fun tx => (block, tx))
    (stored : after.db.blocks = shared.db.blocks) : Conserved blocks initial after := by
  have names : after.log.map (fun entry => entry.2.hash) =
      shared.log.map (fun entry => entry.2.hash) ++ txs.map Transaction.hash := by
    rw [log, map_append, map_map]
    rfl
  constructor
  case balances =>
    intro addr
    rw [adds.value_eq, conserved.balances, log, loggedEffect_append, loggedEffect_map, add_assoc]
  case marked =>
    intro hash
    rw [applied, names, mem_append, Bool.or_eq_true, decide_eq_true_iff, conserved.marked]
    exact or_comm
  case distinct =>
    rw [names]
    refine List.Nodup.append conserved.distinct nodup ?_
    intro hash earlier later
    obtain ⟨tx, listed, rfl⟩ := mem_map.mp later
    have marked := (conserved.marked tx.hash).mpr earlier
    rw [fresh tx listed] at marked
    cases marked
  case known =>
    intro entry found
    rw [log] at found
    rcases mem_append.mp found with earlier | later
    · exact conserved.known entry earlier
    · obtain ⟨tx, listed, rfl⟩ := mem_map.mp later
      exact ⟨mem, inside tx listed⟩
  case stored =>
    intro number other found
    exact conserved.stored number other (stored ▸ found)

end Conserved

/-! ## Steps that add -/

section

variable {blocks : Set ZKBlock} {initial : DB} {shared : Shared}

theorem execute_conserved (env : Env) {block : ZKBlock} (mem : block ∈ blocks) (loop : Loop)
    (conserved : Conserved blocks initial shared) :
    Conserved blocks initial (execute env block shared loop).2 := by
  rcases execute_cases env block shared loop with
    ⟨tx, db, current, unmarked, applies, outcome⟩ | ⟨phase, outcome, -⟩
  · rw [outcome]
    have blocksKept : db.blocks = shared.db.blocks := by rw [applies.others]
    apply @Conserved.grow _ _ _ _ block [tx] _ conserved mem
    case adds => exact applies.adds.congr (by simp [totalEffect]) rfl
    case inside => simpa using mem_of_getElem? current
    case nodup => simp
    case fresh => simpa using unmarked
    case applied => simpa using applies.txApplied
    case log => rfl
    case stored => exact blocksKept
  · exact outcome ▸ conserved

/-- The log of a reconciliation names the transactions it reconciled. -/
theorem reconLog_eq {number : UInt64} {before after : DB} {block : ZKBlock}
    {txs : List Transaction} (stored : before.blocks number = some block)
    (distinct : (txHashes block).Nodup) (leading : txs <+: unappliedTransactions block before)
    (reconciles : Reconciles block txs before after) (log : List (ZKBlock × Transaction)) :
    reconLog number before after log = log ++ txs.map fun tx => (block, tx) := by
  have hashes : ((unappliedTransactions block before).map Transaction.hash).Nodup :=
    (filter_sublist.map _).nodup distinct
  have chosen : block.transactions.filter (fun tx =>
      !before.txApplied tx.hash && after.txApplied tx.hash) = txs := by
    calc
      _ = (unappliedTransactions block before).filter (fun tx => after.txApplied tx.hash) := by
        rw [unappliedTransactions, filter_filter]
        exact filter_congr fun tx _ => Bool.and_comm _ _
      _ = (unappliedTransactions block before).filter (fun tx =>
          tx.hash ∈ txs.map Transaction.hash) := by
        apply filter_congr
        intro tx mem
        have unmarked : before.txApplied tx.hash = false := by
          simpa using (mem_filter.mp mem).2
        rw [reconciles.txApplied, unmarked, Bool.or_false]
      _ = txs := filter_chunk leading.sublist hashes
  simp only [reconLog, stored, chosen]

theorem recon_conserved (env : ReconEnv) (number : UInt64) (expectHash : Option Hash)
    (distinct : ∀ block ∈ blocks, (txHashes block).Nodup)
    (conserved : Conserved blocks initial shared) :
    let db := (applyBlockRecon env number expectHash shared.db).2
    Conserved blocks initial
      { shared with db, log := reconLog number shared.db db shared.log } := by
  intro db
  cases stored : shared.db.blocks number with
  | none =>
    have idle : db = shared.db := by simp [db, applyBlockRecon, applyBlockReconWithin, stored]
    simp only [reconLog, stored, idle]
    exact conserved
  | some block =>
    have mem := conserved.stored number block stored
    obtain ⟨txs, leading, reconciles, -⟩ :=
      @applyBlockRecon_reconciles _ env number _ expectHash stored (distinct block mem)
    change Reconciles block txs shared.db db at reconciles
    clear_value db
    have inside : txs.Sublist block.transactions :=
      leading.sublist.trans filter_sublist
    have blocksKept : db.blocks = shared.db.blocks := by rw [reconciles.others]
    have fresh : ∀ tx ∈ txs, shared.db.txApplied tx.hash = false := by
      intro tx listed
      simpa using (mem_filter.mp (leading.sublist.subset listed)).2
    have logged := reconLog_eq stored (distinct block mem) leading reconciles shared.log
    rw [logged]
    exact conserved.grow mem (fun tx listed => inside.subset listed)
      ((inside.map _).nodup (distinct block mem)) fresh reconciles.adds reconciles.txApplied
      rfl blocksKept

/-! ## Rollbacks -/

/-- A rollback takes back what its own call did, and nothing else: the applied
transactions it unmarks are those the call executed, no one else has changed the
net balance of an account it restores since the snapshot, and the call's
executions changed no other account. -/
structure Undoes (entries : List (Address × AccountSnapshot)) (block : ZKBlock)
    (loop : Loop) (shared : Shared) : Prop where
  own : (shared.log.filter fun entry => entry.2.hash ∈ loop.successful).Perm
    (loop.executed.map fun tx => (block, tx))
  restored : ∀ entry ∈ acceptedEntries entries, value shared.db.accounts.amount entry.1 =
    (setString entry.2.balance).getD 0 + totalEffect block loop.executed entry.1
  others : ∀ address, address ∉ (acceptedEntries entries).map Prod.fst →
    totalEffect block loop.executed address = 0

/-- A rollback is safe if its revocation fails before the first marker, so that
nothing happens, or succeeds and takes back what the call did. -/
def UndoSafe (env : Env) (restore : MapOrder (Address × AccountSnapshot)) (block : ZKBlock)
    (loop : Loop) (shared : Shared) : Prop :=
  (env.revokeFailsAt = some 0 ∧ loop.successful ≠ []) ∨
    (∀ chunk, env.revokeFailsAt = some chunk → loop.successful.length ≤ 500 * chunk) ∧
      Undoes (restore.order loop.snapshots) block loop shared

variable {env : Env} {restore : MapOrder (Address × AccountSnapshot)}
  {block : ZKBlock} {hash : Hash} {cause : TxError} {loop : Loop}

/-- A complete revocation and the rollback after it. -/
theorem undo_of_revoked
    (complete : ∀ chunk, env.revokeFailsAt = some chunk → loop.successful.length ≤ 500 * chunk) :
    (undo env restore block shared hash cause loop).2 =
      { shared with
        db := { shared.db with
          txProcessed := shared.db.txProcessed.revoke loop.successful
          accounts := restoreAll shared.db.accounts
            (acceptedEntries (restore.order loop.snapshots)) }
        log := shared.log.filter fun entry => entry.2.hash ∉ loop.successful } := by
  have revoked : revokedHashes env.revokeFailsAt loop.successful = loop.successful := by
    unfold revokedHashes
    split
    · rfl
    · next chunk fails => exact take_of_length_le (complete chunk fails)
  simp [undo, failBlock_eq complete, revoked]

theorem undo_conserved
    (conserved : Conserved blocks initial shared) (safe : UndoSafe env restore block loop shared) :
    Conserved blocks initial (undo env restore block shared hash cause loop).2 := by
  rcases safe with ⟨fails, nonempty⟩ | ⟨complete, undoes⟩
  · have unchanged : (undo env restore block shared hash cause loop).2 = shared := by
      simp [undo, failBlock, revokeTxProcessedMarkers, revokedHashes, fails, nonempty,
        Markers.revoke, Markers.writeAll]
    rw [unchanged]
    exact conserved
  · rw [undo_of_revoked complete]
    constructor
    case balances =>
      intro addr
      have logged := conserved.balances addr
      rw [loggedEffect_filter shared.log fun entry => entry.2.hash ∈ loop.successful,
        loggedEffect, (undoes.own.map _).sum_eq, ← loggedEffect, loggedEffect_map] at logged
      rcases restoreAll_cases shared.db.accounts (acceptedEntries (restore.order loop.snapshots))
          addr with ⟨listed, same⟩ | ⟨entry, mem, rfl, found⟩
      · have kept : (restoreAll shared.db.accounts (acceptedEntries
            (restore.order loop.snapshots))).amount addr = shared.db.accounts.amount addr := by
          simp only [Accounts.amount, Accounts.balance, same]
        have untouched := undoes.others addr listed
        rw [value, kept, ← value]
        simp only [decide_not]
        linarith
      · have snapped := undoes.restored entry mem
        have amount : _ = setString entry.2.balance := Accounts.amount_of_stored found
        rw [value, amount]
        simp only [decide_not]
        linarith
    case marked =>
      intro marker
      have before := conserved.marked marker
      rw [DB.txApplied] at before
      rw [DB.txApplied, Markers.isApplied_revoke, Bool.and_eq_true, before]
      simp only [mem_map, mem_filter, decide_eq_true_eq]
      constructor
      · rintro ⟨kept, entry, logged, rfl⟩
        exact ⟨entry, ⟨logged, kept⟩, rfl⟩
      · rintro ⟨entry, ⟨logged, kept⟩, rfl⟩
        exact ⟨kept, entry, logged, rfl⟩
    case distinct => exact (filter_sublist.map _).nodup conserved.distinct
    case known => exact fun entry logged => conserved.known entry (mem_filter.mp logged).1
    case stored => exact conserved.stored

end

/-! ## Runs -/

/-- The condition on the steps of a run: blocks come from a given set, and every
rollback is safe. -/
def ConservationGuard (blocks : Set ZKBlock) (system : System) : Event → Prop
  | .enter _ block => block ∈ blocks
  | .store _ block => block ∈ blocks
  | .recon _ _ _ => True
  | .advance id env _ restore => ∀ block hash cause loop,
      system.calls id = some ⟨block, .undoing hash cause loop⟩ →
        UndoSafe env restore block loop system.shared

/-- A section other than an unsafe rollback keeps the invariant. -/
theorem advance_conserved {shared : Shared} {block : ZKBlock} {phase : Phase} (env : Env)
    (visit : MapOrder Address) (restore : MapOrder (Address × AccountSnapshot))
    (mem : block ∈ blocks) (safe : ∀ hash cause loop, phase = .undoing hash cause loop →
      UndoSafe env restore block loop shared) (conserved : Conserved blocks initial shared) :
    Conserved blocks initial (advance env visit restore block shared phase).2 := by
  by_cases executing : ∃ loop, phase = .executing loop
  · obtain ⟨loop, rfl⟩ := executing
    exact execute_conserved env mem loop conserved
  by_cases undoing : ∃ hash cause loop, phase = .undoing hash cause loop
  · obtain ⟨hash, cause, loop, rfl⟩ := undoing
    exact undo_conserved conserved (safe hash cause loop rfl)
  · push Not at executing undoing
    exact conserved.of_sameEffects
      (advance_sameEffects env visit restore block shared executing undoing)

/-- What a run keeps: the balances, and that calls work on known blocks. -/
structure SystemConserved (blocks : Set ZKBlock) (initial : DB) (system : System) : Prop where
  conserved : Conserved blocks initial system.shared
  calls : ∀ id call, system.calls id = some call → call.block ∈ blocks

theorem systemStep_conserved {system after : System} {event : Event}
    (distinct : ∀ block ∈ blocks, (txHashes block).Nodup)
    (kept : SystemConserved blocks initial system) (met : ConservationGuard blocks system event)
    (taken : systemStep system event = some after) : SystemConserved blocks initial after := by
  -- a call that is added or moved works on a known block
  have updated : ∀ (id : Nat) (moved : Call), moved.block ∈ blocks →
      ∀ other call, update system.calls id (some moved) other = some call →
        call.block ∈ blocks := by
    intro id moved known other call present
    by_cases same : other = id
    · rw [same, update_self, Option.some.injEq] at present
      exact present ▸ known
    · rw [update_of_ne same] at present
      exact kept.calls other call present
  cases event with
  | enter id block =>
    obtain ⟨shared, calls⟩ := systemStep_enter taken
    exact ⟨shared ▸ kept.conserved, calls ▸ updated id _ met⟩
  | advance id env visit restore =>
    obtain ⟨call, moved, running, advanced, calls⟩ := systemStep_advance taken
    have known := kept.calls id call running.1
    refine ⟨?_, calls ▸ updated id _ known⟩
    rw [← show (advance env visit restore call.block system.shared call.phase).2 = after.shared
      from congrArg Prod.snd advanced]
    apply advance_conserved env visit restore known _ kept.conserved
    intro hash cause loop phase
    exact met call.block hash cause loop (by rw [running.1, ← phase])
  | recon env number expectHash =>
    cases taken
    exact ⟨recon_conserved env number expectHash distinct kept.conserved, kept.calls⟩
  | store number block =>
    cases taken
    refine ⟨⟨kept.conserved.balances, kept.conserved.marked, kept.conserved.distinct,
      kept.conserved.known, ?_⟩, kept.calls⟩
    intro other found present
    change update system.shared.db.blocks number (some block) other = some found at present
    by_cases same : other = number
    · subst same
      rw [update_self, Option.some.injEq] at present
      exact present ▸ met
    · rw [update_of_ne same] at present
      exact kept.conserved.stored other found present

/-- In every run whose rollbacks are all safe, every balance is the initial one
plus the effects of the transactions marked applied, each counted once, in the
block it was executed in. -/
theorem concurrent_balances_conserved {blocks : Set ZKBlock} {initial : DB}
    (distinct : ∀ block ∈ blocks, (txHashes block).Nodup)
    (unmarked : ∀ hash, initial.txApplied hash = false)
    (stored : ∀ number block, initial.blocks number = some block → block ∈ blocks)
    {events : List Event} {system : System}
    (runs : Runs systemStep (ConservationGuard blocks) (System.start initial) events system) :
    ∃ log : List (ZKBlock × Transaction),
      (∀ entry ∈ log, entry.1 ∈ blocks ∧ entry.2 ∈ entry.1.transactions) ∧
      (log.map fun entry => entry.2.hash).Nodup ∧
      (∀ hash, system.shared.db.txApplied hash = true ↔ hash ∈ log.map fun entry => entry.2.hash) ∧
      ∀ address, value system.shared.db.accounts.amount address =
        value initial.accounts.amount address + loggedEffect log address := by
  have start : SystemConserved blocks initial (System.start initial) := by
    refine ⟨⟨fun address => ?_, fun hash => ?_, nodup_nil, by simp [System.start], stored⟩,
      by simp [System.start]⟩
    · simp [System.start, loggedEffect]
    · simp [System.start, unmarked hash]
  have kept : SystemConserved blocks initial system :=
    runs.invariant start fun _ _ _ kept met taken => systemStep_conserved distinct kept met taken
  exact ⟨system.shared.log, kept.conserved.known, kept.conserved.distinct, kept.conserved.marked,
    kept.conserved.balances⟩

/-- A block that fails at its second transaction. -/
def failingBlock : ZKBlock :=
  { staleBlock [] with blockHash := 100 }

/-- A block with a transfer of 10 from 5 to 2. -/
def creditingBlock : ZKBlock :=
  { transactions := [{ smallTransfer 21 0 with fromAddr := some 5 }], coinbaseAddr := some 3
    zkvmAddr := some 4, blockHash := 200 }

/-- A call on the failing block takes its snapshot, the crediting block is applied
in full, and then the first call fails and rolls back. -/
def lostCreditRun : List Event :=
  .enter 0 failingBlock :: sections 0 9 ++ .enter 1 creditingBlock :: sections 1 14 ++ sections 0 5

/-- The credit of the second block is lost, and its marker stays. -/
theorem concurrent_rollback_loses_credit :
    ∃ system, run systemStep (System.start { accounts := fundedStore }) lostCreditRun =
        some system ∧
      system.locks = [] ∧
      (system.shared.db.txApplied 11 = false ∧ system.shared.db.txApplied 12 = false ∧
        system.shared.db.txApplied 21 = true) ∧
      system.shared.db.accounts.amount 2 = some 100 ∧
      fundedStore.amount 2 = some 100 ∧
      creditingBlock.transactions.map (fun tx => balanceEffect creditingBlock tx 2) = [10] := by
  have outcome : (run systemStep (System.start { accounts := fundedStore }) lostCreditRun).any
      (fun system => decide (system.locks = [] ∧
        (system.shared.db.txApplied 11 = false ∧ system.shared.db.txApplied 12 = false ∧
          system.shared.db.txApplied 21 = true) ∧
        system.shared.db.accounts.amount 2 = some 100)) = true := by
    decide +kernel
  obtain ⟨system, reached, facts⟩ := (Option.any_eq_true _ _).mp outcome
  obtain ⟨idle, markers, balance⟩ := of_decide_eq_true facts
  exact ⟨system, reached, idle, markers, balance, by decide +kernel, by decide +kernel⟩

/-- Whether a rollback of the failing block takes back its first transfer and nothing
else. -/
def takesBackOwn (env : Env) (restore : MapOrder (Address × AccountSnapshot)) (block : ZKBlock)
    (loop : Loop) (shared : Shared) : Bool :=
  let entries := acceptedEntries (restore.order loop.snapshots)
  env.revokeFailsAt = none && block = failingBlock && loop.executed = [smallTransfer 11 0] &&
    (shared.log.filter fun entry => entry.2.hash ∈ loop.successful) =
      [(failingBlock, smallTransfer 11 0)] &&
    [1, 2, 3, 4].all (· ∈ entries.map Prod.fst) &&
    entries.all fun entry => value shared.db.accounts.amount entry.1 =
      (setString entry.2.balance).getD 0 + totalEffect failingBlock [smallTransfer 11 0] entry.1

theorem undoSafe_of_takesBackOwn {block : ZKBlock} {loop : Loop} {shared : Shared}
    (passed : takesBackOwn env restore block loop shared = true) :
    UndoSafe env restore block loop shared := by
  simp only [takesBackOwn, Bool.and_eq_true, decide_eq_true_eq, all_eq_true] at passed
  obtain ⟨⟨⟨⟨⟨revokes, rfl⟩, executed⟩, own⟩, parties⟩, restored⟩ := passed
  refine .inr ⟨fun chunk fails => ?_, ?_, ?_, ?_⟩
  · rw [revokes] at fails
    cases fails
  · rw [own, executed]
    exact .refl _
  · rw [executed]
    exact restored
  · intro address absent
    have other : ∀ party ∈ [1, 2, 3, 4], party ≠ address := by
      rintro party listed rfl
      exact absent (parties party listed)
    simp only [forall_mem_cons, BitVec.ofNat_eq_ofNat] at other
    rw [executed, totalEffect_apply, map_singleton, sum_singleton, balanceEffect, Pi.add_apply,
      Pi.add_apply, changeAt_apply, changeAt_apply, feeEffect_apply rfl]
    simp [smallTransfer, failingBlock, staleBlock, other]

/-- Whether an event uses two blocks only and rolls back safely. -/
def orderly (system : System) : Event → Bool
  | .enter _ block => block ∈ [failingBlock, creditingBlock]
  | .store _ block => block ∈ [failingBlock, creditingBlock]
  | .recon _ _ _ => true
  | .advance id env _ restore =>
    match system.calls id with
    | some ⟨block, .undoing _ _ loop⟩ => takesBackOwn env restore block loop system.shared
    | _ => true

theorem conservationGuard_of_orderly (system : System) (event : Event)
    (passed : orderly system event = true) :
    ConservationGuard {block | block ∈ [failingBlock, creditingBlock]} system event := by
  cases event with
  | enter id block => exact (of_decide_eq_true passed : block ∈ [failingBlock, creditingBlock])
  | store number block => exact (of_decide_eq_true passed : block ∈ [failingBlock, creditingBlock])
  | recon env number expectHash => trivial
  | advance id env visit restore =>
    intro block hash cause loop present
    simp only [orderly, present] at passed
    exact undoSafe_of_takesBackOwn passed

/-- A block fails and is rolled back, and the other one is applied, stored and
reconciled. -/
def rolledBackRun : List Event :=
  .enter 0 failingBlock :: sections 0 14 ++
    .store 7 creditingBlock :: .enter 1 creditingBlock :: sections 1 14 ++ [.recon {} 7 none]

theorem concurrent_balances_conserved_over_rollback :
    ∃ system, Runs systemStep
        (ConservationGuard {block | block ∈ [failingBlock, creditingBlock]})
        (System.start { accounts := fundedStore }) rolledBackRun system ∧
      (system.shared.db.txApplied 11 = false ∧ system.shared.db.txApplied 21 = true) ∧
      ∃ log : List (ZKBlock × Transaction),
        (∀ hash, system.shared.db.txApplied hash = true ↔
          hash ∈ log.map fun entry => entry.2.hash) ∧
        ∀ address, value system.shared.db.accounts.amount address =
          value fundedStore.amount address + loggedEffect log address := by
  have outcome : (runIf systemStep orderly (System.start { accounts := fundedStore })
      rolledBackRun).any (fun system => decide (system.shared.db.txApplied 11 = false ∧
        system.shared.db.txApplied 21 = true)) = true := by
    decide +kernel
  obtain ⟨system, reached, marked⟩ := (Option.any_eq_true _ _).mp outcome
  have runs := runs_of_runIf conservationGuard_of_orderly reached
  have distinct : ∀ block ∈ [failingBlock, creditingBlock], (txHashes block).Nodup := by decide
  obtain ⟨log, -, -, applied, balances⟩ :=
    concurrent_balances_conserved distinct (fun _ => rfl) (by simp) runs
  exact ⟨system, runs, of_decide_eq_true marked, log, applied, balances⟩

end Jmdn.BlockProcessing
