import Jmdn.Syncmonitor.Monitor

/-!
# When a reconciliation is started

The counter of checks that found the node out of sync against the history of the
checks.  Two exits publish a synced status and leave the counter as it is, so checks
from before such a status may count for a reconciliation after it.
-/

namespace Jmdn.Syncmonitor

open Go List Transition

variable {env : CheckEnv} {result : Merkle.Result}

/-! ## The history of a monitor -/

/-- The `IsSynced` a check publishes, if it publishes a status. -/
def Exit.published : Exit → Option Bool
  | .skipped => none
  | .merkleFailed => some false
  | .seednodeFailed unreachable => some !unreachable
  | .inSync => some true
  | .propagationLag => some true
  | .outOfSync => some false

/-- How many checks found the node out of sync since the last one that published a synced
status, or since the start. -/
def foundSince : List Exit → Nat
  | [] => 0
  | exit :: earlier =>
    if exit.published = some true then 0
    else foundSince earlier + if exit = .outOfSync then 1 else 0

/-- The reconciliations whose function runs. -/
def System.running (state : System) : Nat :=
  state.jobs.countP fun job => match job with
    | .running _ => true
    | _ => false

/-! ## The exits of a check -/

section

variable {config : Config} {env : CheckEnv} {m : Monitor}

/-- A check that publishes a synced status without the report that the node is in sync:
a seed node failure within the grace period, or a small gap. -/
def excuses (config : Config) (env : CheckEnv) (m : Monitor) : Bool :=
  !env.skips config &&
    match env.fingerprint, env.report with
    | .ok _, .error _ => !unreachable config m
    | .ok result, .ok syncSt => !syncSt.isSynced && lags config result syncSt
    | .error _, _ => false

/-- What a check does to the counter, and when it starts a reconciliation. -/
inductive CheckCase (config : Config) (env : CheckEnv) (m : Monitor) : Checked → Prop
  | quiet {checked : Checked} :
      checked.exit = .skipped ∨ checked.exit = .merkleFailed ∨
        checked.exit = .seednodeFailed true →
      checked.started = none → checked.monitor.reconciling = m.reconciling →
      checked.monitor.consecutiveOutOfSync = m.consecutiveOutOfSync →
      CheckCase config env m checked
  | excused {checked : Checked} : excuses config env m = true →
      checked.exit = .seednodeFailed false ∨ checked.exit = .propagationLag →
      checked.started = none → checked.monitor.reconciling = m.reconciling →
      checked.monitor.consecutiveOutOfSync = m.consecutiveOutOfSync →
      CheckCase config env m checked
  | inSync {checked : Checked} : checked.exit = .inSync →
      checked.started = none → checked.monitor.reconciling = m.reconciling →
      checked.monitor.consecutiveOutOfSync = 0 → CheckCase config env m checked
  | outOfSync {checked : Checked} : checked.exit = .outOfSync →
      checked.monitor.consecutiveOutOfSync = m.consecutiveOutOfSync + 1 →
      (checked.started = none ∧ checked.monitor.reconciling = m.reconciling ∨
        checked.started.isSome ∧ m.reconciling = false ∧ checked.monitor.reconciling = true ∧
          config.outOfSyncThreshold ≤ m.consecutiveOutOfSync + 1) →
      CheckCase config env m checked

theorem triggerReconcile_counter (env : CheckEnv) (m : Monitor) (peers : List PeerInfo) :
    (triggerReconcile env m peers).2.consecutiveOutOfSync = m.consecutiveOutOfSync := by
  unfold triggerReconcile
  split
  · rfl
  · split <;> rfl

/-- A reconciliation is started only while the flag is free, and takes it. -/
theorem triggerReconcile_cases (env : CheckEnv) (m : Monitor) (peers : List PeerInfo) :
    ((triggerReconcile env m peers).1 = none ∧
        (triggerReconcile env m peers).2.reconciling = m.reconciling) ∨
      ((triggerReconcile env m peers).1.isSome = true ∧ m.reconciling = false ∧
        (triggerReconcile env m peers).2.reconciling = true) := by
  unfold triggerReconcile
  split
  · exact .inl ⟨rfl, rfl⟩
  · split
    · exact .inl ⟨rfl, rfl⟩
    · next free => exact .inr ⟨rfl, Bool.eq_false_iff.mpr free, rfl⟩

theorem seednodeFailed_cases {err : String} (goes : env.skips config = false)
    (folded : env.fingerprint = .ok result) (fails : env.report = .error err) :
    CheckCase config env m (seednodeFailed config env m result err) := by
  cases lost : unreachable config m with
  | true => exact CheckCase.quiet (.inr (.inr (congrArg _ lost))) rfl rfl rfl
  | false =>
    refine CheckCase.excused ?_ (.inl (congrArg _ lost)) rfl rfl rfl
    simp [excuses, goes, folded, fails, lost]

theorem reported_cases {syncSt : SyncStatus} (goes : env.skips config = false)
    (folded : env.fingerprint = .ok result) (answers : env.report = .ok syncSt) :
    CheckCase config env m (reported config env m result syncSt) := by
  unfold reported
  dsimp only
  split
  · exact CheckCase.inSync rfl rfl rfl rfl
  next synced =>
  split
  · next lag =>
    refine CheckCase.excused ?_ (.inr rfl) rfl rfl rfl
    simp [excuses, goes, folded, answers, synced, lag]
  refine CheckCase.outOfSync rfl ?_ ?_
  · dsimp only
    split
    · exact triggerReconcile_counter _ _ _
    · rfl
  · dsimp only
    split
    · next enough =>
      rcases triggerReconcile_cases env (adjustInterval { m with
        consecutiveSeednodeErrors := 0
        consecutiveOutOfSync := m.consecutiveOutOfSync + 1 } false) syncSt.goodPeers with
        ⟨nothing, same⟩ | ⟨started, free, taken⟩
      · exact .inl ⟨nothing, same⟩
      · exact .inr ⟨started, free, taken, enough⟩
    · exact .inl ⟨rfl, rfl⟩

theorem runCheck_cases (config : Config) (env : CheckEnv) (m : Monitor) :
    CheckCase config env m (runCheck config env m) := by
  unfold runCheck
  split
  · exact CheckCase.quiet (.inl rfl) rfl rfl rfl
  next skips =>
  have goes := Bool.eq_false_iff.mpr skips
  cases folded : env.fingerprint with
  | error err => exact CheckCase.quiet (.inr (.inl rfl)) rfl rfl rfl
  | ok result =>
    cases answer : env.report with
    | error err => exact seednodeFailed_cases goes folded answer
    | ok syncSt => exact reported_cases goes folded answer

/-- The status a check leaves on show is synced as its exit says; a skipped check leaves
the one before. -/
theorem isSynced_lastStatus_runCheck (config : Config) (env : CheckEnv) (m : Monitor) :
    (runCheck config env m).monitor.lastStatus.isSynced =
      (runCheck config env m).exit.published.getD m.lastStatus.isSynced := by
  unfold runCheck
  split
  · rfl
  cases env.fingerprint with
  | error err => rfl
  | ok result =>
    cases env.report with
    | error err => rfl
    | ok syncSt =>
      dsimp only [reported]
      split
      · rfl
      split <;> rfl

end

/-- A check starts nothing and leaves the flag, or takes the free flag with the counter
at the threshold. -/
theorem CheckCase.starts {config : Config} {m : Monitor} {checked : Checked}
    (outcome : CheckCase config env m checked) :
    (checked.started = none ∧ checked.monitor.reconciling = m.reconciling) ∨
      checked.started.isSome ∧ m.reconciling = false ∧ checked.monitor.reconciling = true ∧
        config.outOfSyncThreshold ≤ checked.monitor.consecutiveOutOfSync := by
  cases outcome with
  | quiet _ nothing same _ => exact .inl ⟨nothing, same⟩
  | excused _ _ nothing same _ => exact .inl ⟨nothing, same⟩
  | inSync _ nothing same _ => exact .inl ⟨nothing, same⟩
  | outOfSync _ more outcome =>
    rw [more]
    exact outcome

/-! ## Runs -/

section

variable {config : Config} {state after : System} {event : Event}

/-- The stages in which a reconciliation holds the flag. -/
def Stage.holds : Stage → Bool
  | .running _ => true
  | .returned _ => true
  | .cleaned _ => true
  | .released _ => false
  | .done => false

/-- One reconciliation holds the flag while it is set, none otherwise. -/
def Exclusive (state : System) : Prop :=
  state.jobs.countP Stage.holds = state.monitor.reconciling.toNat

theorem countP_set {jobs : List Stage} {job : Nat} {old : Stage} (found : jobs[job]? = some old)
    (new : Stage) :
    (jobs.set job new).countP Stage.holds + old.holds.toNat =
      jobs.countP Stage.holds + new.holds.toNat := by
  have one : ∀ stage : Stage, (if stage.holds = true then 1 else 0) = stage.holds.toNat := by
    intro stage
    cases stage.holds <;> rfl
  induction jobs generalizing job with
  | nil => cases found
  | cons first rest ih =>
    cases job with
    | zero =>
      have same : first = old := Option.some.inj found
      rw [set_cons_zero, countP_cons, countP_cons, one, one, same]
      omega
    | succ job =>
      have later := ih found
      rw [set_cons_succ, countP_cons, countP_cons]
      omega

/-- A check adds a reconciliation only when it takes the free flag. -/
theorem exclusive_check (exclusive : Exclusive state) (env : CheckEnv) :
    (state.jobs ++ ((runCheck config env state.monitor).started.map Stage.running).toList).countP
        Stage.holds =
      (runCheck config env state.monitor).monitor.reconciling.toNat := by
  rw [countP_append, exclusive]
  rcases (runCheck_cases config env state.monitor).starts with ⟨nothing, same⟩ |
    ⟨some_, free, taken, -⟩
  · rw [nothing, same]
    rfl
  · obtain ⟨peers, started⟩ := Option.isSome_iff_exists.mp some_
    rw [started, free, taken]
    rfl

/-- A step of a reconciliation: it moves to another stage, may reset the counter, and
gives up the flag in one of its steps. -/
structure JobStep (state after : System) : Prop where
  exits : after.exits = state.exits
  counter : after.monitor.consecutiveOutOfSync ≤ state.monitor.consecutiveOutOfSync
  stages : ∃ job old new, state.jobs[job]? = some old ∧ after.jobs = state.jobs.set job new ∧
    (old.holds = new.holds ∧ after.monitor.reconciling = state.monitor.reconciling ∨
      old.holds = true ∧ new.holds = false ∧ after.monitor.reconciling = false)

theorem step_cases (taken : System.step config state event = some after) :
    (∃ env, event = .check env ∧ after =
      { monitor := (runCheck config env state.monitor).monitor
        jobs := state.jobs ++
          ((runCheck config env state.monitor).started.map Stage.running).toList
        exits := (runCheck config env state.monitor).exit :: state.exits }) ∨
      JobStep state after := by
  cases event with
  | check env => exact .inl ⟨env, rfl, (Option.some.inj taken).symm⟩
  | cleans job =>
    simp only [System.step] at taken
    split at taken
    · next found =>
      cases taken
      exact .inr ⟨rfl, Nat.zero_le _, _, _, _, found, rfl, Or.inl ⟨rfl, rfl⟩⟩
    · cases taken
  | releases job =>
    simp only [System.step] at taken
    split at taken
    · next found =>
      cases taken
      exact .inr ⟨rfl, Nat.le_refl _, _, _, _, found, rfl, Or.inr ⟨rfl, rfl, rfl⟩⟩
    · cases taken
  | _ =>
    simp only [System.step] at taken
    split at taken
    · next found =>
      cases taken
      exact .inr ⟨rfl, Nat.le_refl _, _, _, _, found, rfl, Or.inl ⟨rfl, rfl⟩⟩
    · cases taken

theorem exclusive_step (exclusive : Exclusive state)
    (taken : System.step config state event = some after) : Exclusive after := by
  rcases step_cases taken with ⟨env, -, rfl⟩ | ⟨-, -, job, old, new, found, jobs, flag⟩
  · exact exclusive_check exclusive env
  have count := countP_set found new
  rw [← jobs, exclusive] at count
  rcases flag with ⟨same, kept⟩ | ⟨held, freed, released⟩
  · rw [same, ← kept] at count
    exact Nat.add_right_cancel count
  have most : state.monitor.reconciling.toNat ≤ 1 := Bool.toNat_le _
  rw [held, freed, Bool.toNat_true, Bool.toNat_false] at count
  rw [Exclusive, released, Bool.toNat_false]
  omega

/-- An excused check finds the counter at zero. -/
def Guarded (config : Config) (state : System) : Event → Prop
  | .check env => excuses config env state.monitor = true →
      state.monitor.consecutiveOutOfSync = 0
  | _ => True

/-- The counter counts no more than the history has. -/
def Counted (state : System) : Prop :=
  state.monitor.consecutiveOutOfSync ≤ foundSince state.exits

theorem counted_check (counted : Counted state) (guarded : Guarded config state (.check env)) :
    (runCheck config env state.monitor).monitor.consecutiveOutOfSync ≤
      foundSince ((runCheck config env state.monitor).exit :: state.exits) := by
  unfold Counted at counted
  rw [foundSince]
  cases runCheck_cases config env state.monitor with
  | quiet exit _ _ same =>
    rw [same]
    rcases exit with exit | exit | exit <;> simpa [exit, Exit.published] using counted
  | excused excused exit _ _ same =>
    rw [same, guarded excused]
    exact Nat.zero_le _
  | inSync _ _ _ zero =>
    rw [zero]
    exact Nat.zero_le _
  | outOfSync exit more _ =>
    rw [more]
    simpa [exit, Exit.published] using counted

theorem counted_step (counted : Counted state) (guarded : Guarded config state event)
    (taken : System.step config state event = some after) : Counted after := by
  rcases step_cases taken with ⟨env, rfl, rfl⟩ | moved
  · exact counted_check counted guarded
  · rw [Counted, moved.exits]
    exact Nat.le_trans moved.counter counted

/-- A reconciliation that runs holds the flag. -/
theorem running_le_one (exclusive : Exclusive state) : state.running ≤ 1 := by
  have held : state.running ≤ state.jobs.countP Stage.holds := by
    refine countP_mono_left fun stage _ runs => ?_
    cases stage <;> first | rfl | cases runs
  rw [exclusive] at held
  exact Nat.le_trans held (Bool.toNat_le _)

/-- A check that starts a reconciliation found the node out of sync for the last of as
many times as the counter says. -/
theorem started_le (started : (runCheck config env state.monitor).started.isSome = true) :
    config.outOfSyncThreshold ≤
      (runCheck config env state.monitor).monitor.consecutiveOutOfSync := by
  rcases (runCheck_cases config env state.monitor).starts with ⟨nothing, -⟩ | ⟨-, -, -, enough⟩
  · rw [nothing] at started
    cases started
  · exact enough

end

/-- In every run at most one reconciliation runs.  In every run whose excused checks find
the counter at zero, a check that starts a reconciliation is at least the threshold's
check that found the node out of sync since the last synced status. -/
theorem reconcile_after_threshold (config : Config) :
    (∀ events state, Runs (System.step config) (fun _ _ => True) (System.initial config)
        events state → state.running ≤ 1) ∧
    ∀ events state env, Runs (System.step config) (Guarded config) (System.initial config)
        events state → Guarded config state (.check env) →
      (runCheck config env state.monitor).started.isSome = true →
      config.outOfSyncThreshold ≤
        foundSince ((runCheck config env state.monitor).exit :: state.exits) := by
  constructor
  · intro events state runs
    have initially : Exclusive (System.initial config) := rfl
    exact running_le_one (runs.invariant initially fun _ _ _ exclusive _ taken =>
      exclusive_step exclusive taken)
  · intro events state env runs guarded started
    have initially : Counted (System.initial config) := Nat.le_refl 0
    have counted : Counted state := runs.invariant initially
      fun _ _ _ counted met taken => counted_step counted met taken
    exact Nat.le_trans (started_le started) (counted_check counted guarded)

/-! ## Two checks out of sync -/

/-- A check that finds the node far behind. -/
def behind : CheckEnv :=
  { fingerprint := .ok { head := 5 }, report := .ok { sequencerHead := 100 } }

/-- A check that finds it one block behind. -/
def lagging : CheckEnv :=
  { fingerprint := .ok { head := 5 }, report := .ok { sequencerHead := 6 } }

/-- A check without an answer of the seed node. -/
def unanswered : CheckEnv :=
  { fingerprint := .ok { head := 5 }, report := .error "timeout" }

/-- The first of them. -/
def foundOnce : System :=
  { monitor := (runCheck {} behind (System.initial {}).monitor).monitor, exits := [.outOfSync] }

/-- With the default threshold of two, two checks far behind start a reconciliation. -/
theorem second_check_starts :
    (runCheck {} behind foundOnce.monitor).started = some [] ∧
      2 ≤ foundSince ((runCheck {} behind foundOnce.monitor).exit :: foundOnce.exits) := by
  have first : Guarded {} (System.initial {}) (.check behind) := fun _ => rfl
  have second : Guarded {} foundOnce (.check behind) := fun excused =>
    absurd excused (by decide)
  have runs : Runs (System.step {}) (Guarded {}) (System.initial {}) [.check behind] foundOnce :=
    Runs.snoc Runs.nil first rfl
  exact ⟨by decide,
    (reconcile_after_threshold {}).2 _ foundOnce behind runs second (by decide)⟩

/-- A check far behind, one that finds a small gap or gets no answer, and publishes a
synced status, and another one far behind: a reconciliation is started after a single
check out of sync since that status. -/
theorem excused_check_keeps_the_count :
    (∃ state, run (System.step {}) (System.initial {}) [.check behind, .check lagging] =
        some state ∧ state.monitor.lastStatus.isSynced = true ∧
      (runCheck {} behind state.monitor).started = some [] ∧
      foundSince ((runCheck {} behind state.monitor).exit :: state.exits) = 1) ∧
    ∃ state, run (System.step {}) (System.initial {}) [.check behind, .check unanswered] =
        some state ∧ state.monitor.lastStatus.isSynced = true ∧
      (runCheck {} behind state.monitor).started = some [] ∧
      foundSince ((runCheck {} behind state.monitor).exit :: state.exits) = 1 :=
  ⟨⟨_, rfl, by decide, by decide, by decide⟩, ⟨_, rfl, by decide, by decide, by decide⟩⟩

end Jmdn.Syncmonitor
