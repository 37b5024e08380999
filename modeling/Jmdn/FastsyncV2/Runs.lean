import Jmdn.BlockProcessing.Block
import Jmdn.FastsyncV2.Recon
import Jmdn.Transition.Run

/-!
# Sync runs

`handleSyncInternal` and `HandleCatchUpSync` with the second pass of
`executePoTS`, cut where a run waits for a peer or for the queue.  Between two
steps of a run anything else may happen: live blocks, writes of headers and data,
the drain worker, steps of other runs, a restart.  What peers answer is part of
the events.
-/

namespace Jmdn.FastsyncV2

open Jmdn.BlockProcessing (processBlockTransactions)
open Config DBOPs Go Transition

/-- The two entry points, with the local height a sync started from, or the first
block and the remote tip of a catch-up. -/
inductive Kind where
  | sync (localBlockNum : UInt64)
  | catchUp (fromBlock remoteTip : UInt64)
  deriving DecidableEq, Repr

structure Pass where
  fromBlock : UInt64
  toBlock : UInt64
  handover : Handover
  deriving DecidableEq, Repr

/-- Whether a hand-over went through. -/
def Pass.clean (pass : Pass) : Bool :=
  !pass.handover.failed && pass.handover.failedBlocks.length == 0

/-- How far a run is.  `reconClean` is the flag a catch-up keeps from its phase 5
for its phase 8. -/
inductive Stage where
  | fetching
  | reconciled (pass : Pass)
  | pots (reconClean : Bool)
  | potsReconciled (reconClean : Bool) (pass : Pass)
  | finishing (reconClean : Bool)
  deriving DecidableEq, Repr

/-- A run; `blockHeight` is the height in the availability response. -/
structure Run where
  kind : Kind
  blockHeight : UInt64
  stage : Stage := .fetching
  deriving DecidableEq, Repr

structure System where
  node : Node := {}
  runs : Nat → Option Run := fun _ => none

inductive Event where
  | live (env : BlockProcessing.Env) (order : MapOrder Address) (block : ZKBlock)
      (storeOk latestOk : Bool)
  | writeHeaders (headers : List ZKBlock) (completed : Bool)
  | writeData (data : List NonHeaders) (completed latestOk : Bool)
  | drain (recon : BlockReconRef → ReconEnv) (ack : Bool) (index : Nat)
  | beginSync (id : Nat) (env : SyncEnv) (blockHeight : UInt64)
  | beginCatchUp (id : Nat) (env : SyncEnv) (fromBlock blockHeight : UInt64)
  | refresh (id : Nat) (blockHeight : UInt64)
  | reconcile (id : Nat) (env : SyncEnv)
  | advance (id : Nat) (env : SyncEnv)
  | pots (id : Nat) (env : SyncEnv) (missing : Bool)
  | finish (id : Nat) (env : SyncEnv)
  | abort (id : Nat) (env : SyncEnv)
  | restart (kept : List Nat)

/-! ## Steps -/

/-- The live path: apply, then store, then move the marker. -/
def applyLive (env : BlockProcessing.Env) (order : MapOrder Address) (block : ZKBlock)
    (storeOk latestOk : Bool) (node : Node) : Node :=
  let outcome := processBlockTransactions env order block node.db
  let applied := { node with db := outcome.2 }
  if outcome.1 = .nil ∧ storeOk ∧ (outcome.2.blocks block.blockNumber).isNone then
    updateLatestBlockMonotonic { applied with db := putBlock outcome.2 block } latestOk
      block.blockNumber
  else applied

/-- The pass over a requested range, `none` when it is skipped. -/
def reconPass (env : SyncEnv) (fromBlock toBlock : UInt64) (node : Node) : Option Pass × Node :=
  let range := effectiveReconRange env node fromBlock toBlock
  let seeded := seedFromLegacy env node
  if range.2 then (none, seeded)
  else
    let outcome := reconcileBlocksLocally env seeded range.1 toBlock
    (some { fromBlock := range.1, toBlock, handover := outcome.1 }, outcome.2)

/-- The first block phase 5 asks for. -/
def Run.firstBlock (run : Run) : UInt64 :=
  match run.kind with
  | .sync localBlockNum => localBlockNum + 1
  | .catchUp fromBlock _ => fromBlock

/-- The last block of phase 5. -/
def Run.lastBlock (run : Run) : UInt64 :=
  match run.kind with
  | .sync _ => if run.blockHeight = 0 then 18446744073709551615 else run.blockHeight
  | .catchUp _ remoteTip => remoteTip

/-- The first block the second pass asks for. -/
def Run.potsFirstBlock (run : Run) : UInt64 :=
  if run.blockHeight = 0 then 1 else run.blockHeight + 1

/-- The availability response a sync asks for again. -/
def refreshStep (blockHeight : UInt64) (run : Run) (node : Node) : Option (Run × Node) :=
  match run.kind, run.stage with
  | .sync _, .fetching => some ({ run with blockHeight }, node)
  | _, _ => none

/-- Phase 5 up to the hand-over. -/
def reconcileStep (env : SyncEnv) (run : Run) (node : Node) : Option (Run × Node) :=
  match run.stage with
  | .fetching =>
    let outcome := reconPass env run.firstBlock run.lastBlock node
    match run.kind with
    | .sync _ =>
      some ({ run with stage := outcome.1.elim (.pots false) .reconciled }, outcome.2)
    | .catchUp _ _ =>
      some ({ run with stage := .pots (outcome.1.elim true Pass.clean) }, outcome.2)
  | _ => none

/-- `executePoTS` up to the hand-over of its second pass; `missing` is whether the
peer named blocks and their data came. -/
def potsStep (env : SyncEnv) (missing : Bool) (run : Run) (node : Node) : Option (Run × Node) :=
  match run.stage with
  | .pots reconClean =>
    if missing then
      let outcome := reconPass env run.potsFirstBlock (trueLocalHead env node) node
      some ({ run with
        stage := outcome.1.elim (.finishing reconClean) (.potsReconciled reconClean) }, outcome.2)
    else some ({ run with stage := .finishing reconClean }, node)
  | _ => none

/-- The anchor advance after a hand-over. -/
def advanceStep (env : SyncEnv) (run : Run) (node : Node) : Option (Run × Node) :=
  match run.stage with
  | .reconciled pass =>
    some ({ run with stage := .pots false },
      (advanceReconAnchorIfProven env node pass.handover pass.fromBlock pass.toBlock).2)
  | .potsReconciled reconClean pass =>
    some ({ run with stage := .finishing reconClean },
      (advanceReconAnchorIfProven env node pass.handover pass.fromBlock pass.toBlock).2)
  | _ => none

/-- The end of a run: phase 8 of a catch-up, then the end of the session. -/
def finishStep (env : SyncEnv) (run : Run) (node : Node) : Option Node :=
  match run.stage, run.kind with
  | .finishing _, .sync _ => some (endSyncSession env node)
  | .finishing reconClean, .catchUp fromBlock remoteTip =>
    if buildDataMissingTag env node.db fromBlock remoteTip = some [] ∧ reconClean then
      let marked := markReconComplete env node remoteTip
      some (endSyncSession env
        (if marked.1 then updateLatestBlockMonotonic marked.2 env.latestOk remoteTip
          else marked.2))
    else some (endSyncSession env node)
  | _, _ => none

/-- The run of a catch-up, `none` if it returns before it fetches anything. -/
def catchUpRun (env : SyncEnv) (fromBlock blockHeight : UInt64) (node : Node) : Option Run :=
  let fromBlock := if fromBlock = 0 then 1 else fromBlock
  let remoteTip := if blockHeight = 0 then getBlockNumber env node else blockHeight
  if remoteTip = 0 ∨ remoteTip < fromBlock then none
  else some { kind := .catchUp fromBlock remoteTip, blockHeight }

/-- A step of one run, which goes on. -/
def System.move (system : System) (id : Nat) (step : Run → Node → Option (Run × Node)) :
    Option System :=
  (system.runs id).bind fun run => (step run system.node).map fun moved =>
    { node := moved.2, runs := Function.update system.runs id (some moved.1) }

def System.begin (system : System) (id : Nat) (run : Run) : System :=
  { node := beginSyncSession system.node
    runs := Function.update system.runs id (some run) }

def System.leave (system : System) (id : Nat) (node : Node) : System :=
  { node, runs := Function.update system.runs id none }

def systemStep : Step System Event := fun system event =>
  match event with
  | .live env order block storeOk latestOk =>
    some { system with node := applyLive env order block storeOk latestOk system.node }
  | .writeHeaders headers completed =>
    some { system with node := writeHeaders system.node headers completed }
  | .writeData data completed latestOk =>
    some { system with node := writeData system.node data completed latestOk }
  | .drain recon ack index => some { system with node := drain system.node recon ack index }
  | .beginSync id env blockHeight =>
    if (system.runs id).isNone then
      some (system.begin id
        { kind := .sync (getBlockDetails env system.node), blockHeight })
    else none
  | .beginCatchUp id env fromBlock blockHeight =>
    if (system.runs id).isNone then
      -- a catch-up that returns at once still ends its session
      some (((catchUpRun env fromBlock blockHeight system.node).map (system.begin id)).getD
        { system with node := endSyncSession env (beginSyncSession system.node) })
    else none
  | .refresh id blockHeight => system.move id (refreshStep blockHeight)
  | .reconcile id env => system.move id (reconcileStep env)
  | .advance id env => system.move id (advanceStep env)
  | .pots id env missing => system.move id (potsStep env missing)
  | .finish id env =>
    (system.runs id).bind fun run => (finishStep env run system.node).map (system.leave id)
  | .abort id env =>
    (system.runs id).map fun _ => system.leave id (endSyncSession env system.node)
  | .restart kept =>
    -- the queue is kept outside the process, and may lose entries
    some { node := { system.node with
             queue := kept.filterMap fun index => system.node.queue[index]?
             session := {} } }

end Jmdn.FastsyncV2
