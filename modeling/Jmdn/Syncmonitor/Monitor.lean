import Jmdn.Go.Strings
import Jmdn.Merkle.Fingerprint

/-!
# The sync monitor

`internal/syncmonitor`: a check compares the node's fingerprint with the sequencer's
through the seed node, and starts a reconciliation after several checks that found the
node out of sync.  Checks exclude each other; a reconciliation runs beside them and
cleans up in three separate steps.  The timer that starts the checks is left out: they
come in any order with the steps of the reconciliations.
-/

namespace Jmdn.Syncmonitor

open Go Transition

/-! ## Data -/

/-- `PeerInfo`. -/
structure PeerInfo where
  peerID : String := ""
  multiaddrs : List String := []
  region : String := ""
  deriving DecidableEq, Repr

/-- `SyncStatus`, the answer of the seed node. -/
structure SyncStatus where
  isSynced : Bool := false
  sequencerHead : UInt64 := 0
  sequencerRoot : List UInt8 := []
  goodPeers : List PeerInfo := []
  message : String := ""
  deriving DecidableEq, Repr

/-- `Status`; times and durations in nanoseconds. -/
structure Status where
  localHead : UInt64 := 0
  merkleRoot : String := ""
  isSynced : Bool := false
  sequencerHead : UInt64 := 0
  sequencerRoot : String := ""
  goodPeers : List String := []
  message : String := ""
  lastCheckedAt : Int := 0
  error : String := ""
  consecutiveOutOfSync : Nat := 0
  seednodeUnreachable : Bool := false
  currentInterval : Int := 0
  deriving DecidableEq, Repr

/-- The configuration of a monitor, with the defaults of `New`. -/
structure Config where
  baseInterval : Int := 600000000000
  blockPropagationWindow : Int := 30000000000
  outOfSyncThreshold : Nat := 2
  propagationToleranceBlocks : UInt64 := 1
  seednodeGracePeriod : Nat := 3
  deriving DecidableEq, Repr

/-- The variables of a monitor. -/
structure Monitor where
  lastStatus : Status := {}
  reconciling : Bool := false
  consecutiveOutOfSync : Nat := 0
  consecutiveSeednodeErrors : Nat := 0
  currentInterval : Int := 0
  immediateRecheck : Bool := false
  deriving DecidableEq, Repr

/-- `defaultMinCheckInterval`. -/
def defaultMinCheckInterval : Int := 60000000000

/-- `defaultMaxInterval`. -/
def defaultMaxInterval : Int := 1800000000000

/-- `hex.EncodeToString`. -/
def hexBytes (data : List UInt8) : String :=
  String.ofList (data.flatMap fun byte => (@hexEncode 2 byte.toBitVec).toList)

/-! ## A check -/

/-- What a check meets: the time since the last block if one is known, the results of
the fingerprint and of the report, and whether a reconciliation is registered. -/
structure CheckEnv where
  sinceBlock : Option Int := none
  fingerprint : Except String Merkle.Result := .ok {}
  report : Except String SyncStatus := .ok {}
  reconcileSet : Bool := true
  now : Int := 0

/-- The exits of a check. -/
inductive Exit where
  | skipped
  | merkleFailed
  | seednodeFailed (unreachable : Bool)
  | inSync
  | propagationLag
  | outOfSync
  deriving DecidableEq, Repr

/-- What a check comes to: how it left, the status it returns, the peers of the
reconciliation it started, and the monitor. -/
structure Checked where
  exit : Exit
  status : Status
  started : Option (List PeerInfo) := none
  monitor : Monitor

section

variable (config : Config) (env : CheckEnv) (m : Monitor)

/-- The propagation guard. -/
def CheckEnv.skips : Bool :=
  env.sinceBlock.any fun since => since < config.blockPropagationWindow

/-- The next seed node failure is one too many. -/
def unreachable : Bool :=
  m.consecutiveSeednodeErrors + 1 ≥ config.seednodeGracePeriod

/-- The block-delta filter: a small gap to the sequencer's head. -/
def lags (result : Merkle.Result) (syncSt : SyncStatus) : Bool :=
  syncSt.sequencerHead > result.head &&
    syncSt.sequencerHead - result.head ≤ config.propagationToleranceBlocks

/-- `adjustInterval`. -/
def adjustInterval (inSync : Bool) : Monitor :=
  { m with currentInterval :=
      if inSync then min (m.currentInterval * 3 / 2) defaultMaxInterval
      else max (m.currentInterval / 2) defaultMinCheckInterval }

/-- `triggerReconcile` up to the start of the goroutine. -/
def triggerReconcile (peers : List PeerInfo) : Option (List PeerInfo) × Monitor :=
  if !env.reconcileSet then (none, m)
  else if m.reconciling then (none, m)
  else (some peers, { m with reconciling := true })

/-- The status before the answer of the seed node is judged. -/
def reportedStatus (result : Merkle.Result) (syncSt : SyncStatus) : Status :=
  { localHead := result.head
    merkleRoot := @hexEncode 64 result.root
    sequencerHead := syncSt.sequencerHead
    sequencerRoot := hexBytes syncSt.sequencerRoot
    goodPeers := syncSt.goodPeers.map PeerInfo.peerID
    message := syncSt.message
    lastCheckedAt := env.now
    currentInterval := m.currentInterval }

/-- The exit for an unreachable seed node. -/
def seednodeFailed (result : Merkle.Result) (err : String) : Checked :=
  let unreachable := unreachable config m
  let m := { m with consecutiveSeednodeErrors := m.consecutiveSeednodeErrors + 1 }
  let st : Status :=
    { localHead := result.head
      merkleRoot := @hexEncode 64 result.root
      isSynced := !unreachable
      seednodeUnreachable := unreachable
      consecutiveOutOfSync := m.consecutiveOutOfSync
      error := err
      lastCheckedAt := env.now
      currentInterval := m.currentInterval }
  { exit := .seednodeFailed unreachable, status := st, monitor := { m with lastStatus := st } }

/-- The exits after an answer of the seed node. -/
def reported (result : Merkle.Result) (syncSt : SyncStatus) : Checked :=
  let m := { m with consecutiveSeednodeErrors := 0 }
  let st := reportedStatus env m result syncSt
  if syncSt.isSynced then
    let m := adjustInterval { m with consecutiveOutOfSync := 0 } true
    let st := { st with isSynced := true, consecutiveOutOfSync := 0 }
    { exit := .inSync, status := st, monitor := { m with lastStatus := st } }
  else if lags config result syncSt then
    let delta := syncSt.sequencerHead - result.head
    let st :=
      { st with
        isSynced := true
        message := "propagation lag: behind by " ++ toString delta.toNat ++ " block(s)" }
    { exit := .propagationLag, status := st, monitor := { m with lastStatus := st } }
  else
    let m := { m with consecutiveOutOfSync := m.consecutiveOutOfSync + 1 }
    let st := { st with isSynced := false, consecutiveOutOfSync := m.consecutiveOutOfSync }
    let m := adjustInterval m false
    let outcome :=
      if m.consecutiveOutOfSync ≥ config.outOfSyncThreshold then
        triggerReconcile env m syncSt.goodPeers
      else (none, m)
    { exit := .outOfSync, status := st, started := outcome.1,
      monitor := { outcome.2 with lastStatus := st } }

/-- `runCheck`. -/
def runCheck : Checked :=
  if env.skips config then { exit := .skipped, status := m.lastStatus, monitor := m }
  else
    match env.fingerprint with
    | .error err =>
      let st : Status :=
        { error := err, lastCheckedAt := env.now, currentInterval := m.currentInterval }
      { exit := .merkleFailed, status := st, monitor := { m with lastStatus := st } }
    | .ok result =>
      match env.report with
      | .error err => seednodeFailed config env m result err
      | .ok syncSt => reported config env m result syncSt

end

/-! ## Reconciliations -/

/-- The stages of a reconciliation: the function runs; it has returned; counter and
interval are reset; the flag is released; a recheck is asked for. -/
inductive Stage where
  | running (peers : List PeerInfo)
  | returned (failed : Bool)
  | cleaned (failed : Bool)
  | released (failed : Bool)
  | done
  deriving DecidableEq, Repr

/-- A monitor with its reconciliations and the exits of its checks, the last one first. -/
structure System where
  monitor : Monitor
  jobs : List Stage := []
  exits : List Exit := []

/-- What happens: a check, or the next step of a reconciliation.  The flag is released
outside the lock of the checks; as a check reads it only once, it then counts as
released before or after the check. -/
inductive Event where
  | check (env : CheckEnv)
  | returns (job : Nat) (failed : Bool)
  | cleans (job : Nat)
  | releases (job : Nat)
  | rechecks (job : Nat)

variable (config : Config)

/-- A monitor before its first check. -/
def System.initial : System :=
  { monitor := { currentInterval := config.baseInterval } }

/-- One event. -/
def System.step : Step System Event := fun state event =>
  match event with
  | .check env =>
    let checked := runCheck config env state.monitor
    some
      { monitor := checked.monitor
        jobs := state.jobs ++ (checked.started.map Stage.running).toList
        exits := checked.exit :: state.exits }
  | .returns job failed =>
    match state.jobs[job]? with
    | some (.running _) => some { state with jobs := state.jobs.set job (.returned failed) }
    | _ => none
  | .cleans job =>
    match state.jobs[job]? with
    | some (.returned failed) => some
        { state with
          monitor :=
            { state.monitor with
              currentInterval := config.baseInterval, consecutiveOutOfSync := 0 }
          jobs := state.jobs.set job (.cleaned failed) }
    | _ => none
  | .releases job =>
    match state.jobs[job]? with
    | some (.cleaned failed) => some
        { state with
          monitor := { state.monitor with reconciling := false }
          jobs := state.jobs.set job (.released failed) }
    | _ => none
  | .rechecks job =>
    match state.jobs[job]? with
    | some (.released failed) => some
        { state with
          monitor :=
            { state.monitor with
              immediateRecheck := state.monitor.immediateRecheck || !failed }
          jobs := state.jobs.set job .done }
    | _ => none

end Jmdn.Syncmonitor
