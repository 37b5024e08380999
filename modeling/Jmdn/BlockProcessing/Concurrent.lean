import Jmdn.BlockProcessing.Run
import Jmdn.DBOPs.Recon
import Jmdn.Transition.Run

/-!
# Concurrent block application

Any number of `ProcessBlockTransactions` calls and reconciliations over one
database.  A step is one section that nothing interrupts: the body of
`processTransaction`, the revocation together with the rollback and the whole of
`ApplyBlockRecon` run under the state-apply lock, the duplicate check under the
mutex of `processedTxs`; each account of the snapshot is read on its own.  Calls on
one block hash exclude each other by the block-apply lock.

`log` and `executed` are history variables: no step looks at them.
-/

namespace Jmdn.BlockProcessing

open Config DBOPs Go Transition

variable {id : Nat}

/-- What the calls share: the database and the process-wide `processedTxs`.  `log`
holds the executions that no rollback took back, each with its block. -/
structure Shared where
  db : DB := {}
  processedTxs : List Hash := []
  log : List (ZKBlock × Transaction) := []

/-- The local variables of the loop.  `executed` are the transactions the call
committed itself, in contrast to those it found marked. -/
structure Loop where
  snapshots : List (Address × AccountSnapshot) := []
  liveApplied : List Hash := []
  index : Nat := 0
  successful : List Hash := []
  executed : List Transaction := []
  deriving DecidableEq

/-- Where a call stands: the name says what it does next. -/
inductive Phase where
  | checkingBlock
  | clearing
  | collecting
  | snapshotting (remaining : List Address) (taken : List (Address × AccountSnapshot))
  | prefiltering (snapshots : List (Address × AccountSnapshot))
  | looping (loop : Loop)
  | executing (loop : Loop)
  | undoing (hash : Hash) (cause : TxError) (loop : Loop)
  | marking (loop : Loop)
  | anchoring
  | returned (result : BlockResult)
  deriving DecidableEq

def Phase.isReturned : Phase → Bool
  | .returned _ => true
  | _ => false

/-! ## The sections of a call -/

/-- The check of the block marker. -/
def checkBlock (block : ZKBlock) (shared : Shared) : Phase :=
  if shared.db.blockProcessed.isApplied block.blockHash then .anchoring else .clearing

/-- `ClearProcessedTransactions`. -/
def clearProcessedTransactions (shared : Shared) : Shared :=
  { shared with processedTxs := [] }

/-- The collection of the addresses to snapshot. -/
def collect (visit : MapOrder Address) (block : ZKBlock) : Phase :=
  match affectedAccounts block with
  | some affected => .snapshotting (visit.order affected) []
  | none => .returned .nilDereference

/-- The snapshot of one account, taken outside the lock. -/
def snapshot (shared : Shared) (remaining : List Address)
    (taken : List (Address × AccountSnapshot)) : Phase :=
  match remaining with
  | [] => .prefiltering taken
  | address :: rest =>
    .snapshotting rest (taken ++ [(address, snapshotAccount shared.db.accounts address)])

/-- The marker prefilter of the whole block. -/
def prefilter (env : Env) (block : ZKBlock) (shared : Shared)
    (snapshots : List (Address × AccountSnapshot)) : Phase :=
  if env.prefilterOk then
    let liveApplied := filterProcessedTxMarkers shared.db.txProcessed (txHashes block)
    .looping { snapshots, liveApplied }
  else .returned (.error (.prefilterFailed block.blockNumber))

def Loop.next (loop : Loop) : Loop :=
  { loop with index := loop.index + 1 }

/-- The head of the loop: the duplicate check under its mutex, then the prefilter
result. -/
def visitTransaction (block : ZKBlock) (shared : Shared) (loop : Loop) : Phase × Shared :=
  match block.transactions[loop.index]? with
  | none => (.marking loop, shared)
  | some tx =>
    if tx.hash ∈ shared.processedTxs then (.looping loop.next, shared)
    else
      let noted := { shared with processedTxs := tx.hash :: shared.processedTxs }
      if tx.hash ∈ loop.liveApplied then (.looping loop.next, noted)
      else (.executing loop, noted)

/-- The history after a transaction was committed; one found marked leaves it as
it is. -/
def Shared.committed (shared : Shared) (block : ZKBlock) (tx : Transaction) (db : DB) : Shared :=
  if shared.db.txApplied tx.hash then { shared with db }
  else { shared with db, log := shared.log ++ [(block, tx)] }

def Loop.succeeded (loop : Loop) (tx : Transaction) (found : Bool) : Loop :=
  { loop with
    index := loop.index + 1
    successful := loop.successful ++ [tx.hash]
    executed := if found then loop.executed else loop.executed ++ [tx] }

/-- The body of `processTransaction`. -/
def execute (env : Env) (block : ZKBlock) (shared : Shared) (loop : Loop) : Phase × Shared :=
  match block.transactions[loop.index]?, block.coinbaseAddr, block.zkvmAddr with
  | some tx, some coinbase, some zkvm =>
    match processTransaction env tx coinbase zkvm block.feeRecipients block.timestamp
        (accountNonces block) shared.db with
    | .ok db =>
      (.looping (loop.succeeded tx (shared.db.txApplied tx.hash)), shared.committed block tx db)
    | .error (.error cause) => (.undoing tx.hash cause loop, shared)
    | .error .nilDereference => (.returned .nilDereference, shared)
  | _, _, _ => (.returned .nilDereference, shared)

/-- The hashes a revocation overwrites before it ends. -/
def revokedHashes (failsAt : Option Nat) (hashes : List Hash) : List Hash :=
  match failsAt with
  | none => hashes
  | some chunk => hashes.take (500 * chunk)

/-- The revocation and the rollback, in one locked section. -/
def undo (env : Env) (restore : MapOrder (Address × AccountSnapshot)) (block : ZKBlock)
    (shared : Shared) (hash : Hash) (cause : TxError) (loop : Loop) : Phase × Shared :=
  let ended := failBlock env (restore.order loop.snapshots) loop.successful shared.db
  (.returned (.error (.transactionFailed loop.index block.transactions.length hash cause ended.1)),
    { shared with
      db := ended.2
      log := shared.log.filter fun entry =>
        entry.2.hash ∉ revokedHashes env.revokeFailsAt loop.successful })

/-- `WriteBlockProcessedMarker`, which is skipped when nothing was processed. -/
def markBlock (env : Env) (block : ZKBlock) (shared : Shared) (loop : Loop) : Shared :=
  if loop.successful ≠ [] ∧ env.blockMarkerOk then
    { shared with db := { shared.db with
      blockProcessed := shared.db.blockProcessed.write block.blockHash env.now } }
  else shared

/-- One section of a call. -/
def advance (env : Env) (visit : MapOrder Address) (restore : MapOrder (Address × AccountSnapshot))
    (block : ZKBlock) (shared : Shared) : Phase → Phase × Shared
  | .checkingBlock => (checkBlock block shared, shared)
  | .clearing => (.collecting, clearProcessedTransactions shared)
  | .collecting =>
    (collect visit block, { shared with db := bumpCarriedOrdinals env block shared.db })
  | .snapshotting remaining taken => (snapshot shared remaining taken, shared)
  | .prefiltering snapshots => (prefilter env block shared snapshots, shared)
  | .looping loop => visitTransaction block shared loop
  | .executing loop => execute env block shared loop
  | .undoing hash cause loop => undo env restore block shared hash cause loop
  | .marking loop => (.anchoring, markBlock env block shared loop)
  | .anchoring =>
    (.returned .nil,
      { shared with db := advanceAppliedAnchor env block.blockNumber shared.db })
  | .returned result => (.returned result, shared)

/-! ## The system -/

structure Call where
  block : ZKBlock
  phase : Phase
  deriving DecidableEq

/-- The shared state, the block-apply locks held, and the calls by number. -/
structure System where
  shared : Shared
  locks : List Hash := []
  calls : Nat → Option Call := fun _ => none

/-- A node on a database, with no call in progress. -/
def System.start (db : DB) : System :=
  { shared := { db } }

/-- A call that has not returned. -/
def System.InProgress (system : System) (id : Nat) (call : Call) : Prop :=
  system.calls id = some call ∧ call.phase.isReturned = false

inductive Event where
  | enter (id : Nat) (block : ZKBlock)
  | advance (id : Nat) (env : Env) (visit : MapOrder Address)
      (restore : MapOrder (Address × AccountSnapshot))
  | recon (env : ReconEnv) (number : UInt64) (expectHash : Option Hash)
  | store (number : UInt64) (block : ZKBlock)

/-- The history after a reconciliation: the transactions it marked. -/
def reconLog (number : UInt64) (before after : DB) (log : List (ZKBlock × Transaction)) :
    List (ZKBlock × Transaction) :=
  match before.blocks number with
  | none => log
  | some block =>
    log ++ (block.transactions.filter fun tx =>
      !before.txApplied tx.hash && after.txApplied tx.hash).map fun tx => (block, tx)

/-- One step of the system.  A call enters with the lock of its block hash and
returns it at the end. -/
def systemStep : Step System Event := fun system event =>
  match event with
  | .enter id block =>
    if (system.calls id).isNone ∧ block.blockHash ∉ system.locks then
      some { system with
        locks := block.blockHash :: system.locks
        calls := Function.update system.calls id (some ⟨block, .checkingBlock⟩) }
    else none
  | .advance id env visit restore =>
    match system.calls id with
    | none => none
    | some call =>
      if call.phase.isReturned then none
      else
        let moved := advance env visit restore call.block system.shared call.phase
        some {
          shared := moved.2
          locks := if moved.1.isReturned then system.locks.erase call.block.blockHash
            else system.locks
          calls := Function.update system.calls id (some ⟨call.block, moved.1⟩) }
  | .recon env number expectHash =>
    let db := (applyBlockRecon env number expectHash system.shared.db).2
    some { system with shared := { system.shared with
      db, log := reconLog number system.shared.db db system.shared.log } }
  | .store number block =>
    some { system with shared := { system.shared with
      db := { system.shared.db with
        blocks := Function.update system.shared.db.blocks number (some block) } } }

/-! ## What a step changes -/

/-- Accounts, transaction markers, stored blocks and history are the same. -/
structure SameEffects (before after : Shared) : Prop where
  accounts : after.db.accounts = before.db.accounts
  txProcessed : after.db.txProcessed = before.db.txProcessed
  blocks : after.db.blocks = before.db.blocks
  log : after.log = before.log

theorem visitTransaction_shared (block : ZKBlock) (shared : Shared) (loop : Loop) :
    (visitTransaction block shared loop).2 = { shared with
      processedTxs := (visitTransaction block shared loop).2.processedTxs } := by
  unfold visitTransaction
  split
  · rfl
  · dsimp only
    split_ifs <;> rfl

/-- Only executions and rollbacks have effects. -/
theorem advance_sameEffects (env : Env) (visit : MapOrder Address)
    (restore : MapOrder (Address × AccountSnapshot)) (block : ZKBlock) (shared : Shared)
    {phase : Phase} (notExecuting : ∀ loop, phase ≠ .executing loop)
    (notUndoing : ∀ hash cause loop, phase ≠ .undoing hash cause loop) :
    SameEffects shared (advance env visit restore block shared phase).2 := by
  cases phase with
  | executing loop => exact absurd rfl (notExecuting loop)
  | undoing hash cause loop => exact absurd rfl (notUndoing hash cause loop)
  | looping loop =>
    rw [advance, visitTransaction_shared]
    exact ⟨rfl, rfl, rfl, rfl⟩
  | collecting =>
    exact ⟨bumped_accounts .., bumped_txProcessed ..,
      bumped_blocks .., rfl⟩
  | marking loop =>
    simp only [advance, markBlock]
    split <;> exact ⟨rfl, rfl, rfl, rfl⟩
  | _ => exact ⟨rfl, rfl, rfl, rfl⟩

/-- An execution commits its transaction, or has no effect: the transaction was
found marked or fails. -/
theorem execute_cases (env : Env) (block : ZKBlock) (shared : Shared) (loop : Loop) :
    (∃ tx db, block.transactions[loop.index]? = some tx ∧ shared.db.txApplied tx.hash = false ∧
      Applies env block tx shared.db db ∧
      execute env block shared loop =
        (.looping (loop.succeeded tx false), { shared with db, log := shared.log ++ [(block, tx)] })) ∨
    ∃ phase, execute env block shared loop = (phase, shared) ∧
      ((∃ tx, block.transactions[loop.index]? = some tx ∧ shared.db.txApplied tx.hash = true ∧
          phase = .looping (loop.succeeded tx true)) ∨
        (∃ hash cause, phase = .undoing hash cause loop) ∨ phase = .returned .nilDereference) := by
  unfold execute
  split
  · next tx coinbase zkvm current coinbaseSet zkvmSet =>
    split
    · next db accepted =>
      rcases processTransaction_ok ⟨coinbaseSet, zkvmSet⟩ accepted with
        ⟨marked, same⟩ | ⟨unmarked, applies⟩
      · exact .inr ⟨_, by simp [Shared.committed, marked, same], Or.inl ⟨tx, current, marked, rfl⟩⟩
      · exact .inl ⟨tx, db, current, unmarked, applies, by simp [Shared.committed, unmarked]⟩
    · exact .inr ⟨_, rfl, Or.inr (.inl ⟨_, _, rfl⟩)⟩
    · exact .inr ⟨_, rfl, Or.inr (.inr rfl)⟩
  · exact .inr ⟨_, rfl, Or.inr (.inr rfl)⟩

variable {system after : System}

/-- A step of a call moves that call only. -/
theorem systemStep_advance {env : Env} {visit : MapOrder Address}
    {restore : MapOrder (Address × AccountSnapshot)}
    (taken : systemStep system (.advance id env visit restore) = some after) :
    ∃ call moved, system.InProgress id call ∧
      advance env visit restore call.block system.shared call.phase = (moved, after.shared) ∧
      after.calls = Function.update system.calls id (some ⟨call.block, moved⟩) := by
  simp only [systemStep] at taken
  split at taken
  · cases taken
  next call present =>
  split at taken
  · cases taken
  · next running =>
    cases taken
    exact ⟨call, _, ⟨present, by simpa using running⟩, rfl, rfl⟩

theorem systemStep_enter {block : ZKBlock}
    (taken : systemStep system (.enter id block) = some after) :
    after.shared = system.shared ∧
      after.calls = Function.update system.calls id (some ⟨block, .checkingBlock⟩) := by
  simp only [systemStep] at taken
  split at taken
  · cases taken
    exact ⟨rfl, rfl⟩
  · cases taken

/-- `count` sections of a call in which every database call succeeds. -/
def sections (id count : Nat) : List Event :=
  List.replicate count (.advance id {} MapOrder.listed MapOrder.listed)

end Jmdn.BlockProcessing
