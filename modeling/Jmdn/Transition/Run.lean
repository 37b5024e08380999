import Mathlib.Data.List.Basic

/-!
# Runs of a transition system

A system is a partial function from a state and an action to the next state;
`none` means that the action cannot happen there.  `Runs` restricts the steps of
a run to those that meet a condition on the state before the step and the
action.
-/

namespace Jmdn.Transition

variable {σ α : Type}

variable {actions : List α} {guard : σ → α → Prop} {start final : σ}

/-- One step: the state after an action, if the action can happen. -/
def Step (σ α : Type) := σ → α → Option σ

/-- The state after a list of actions. -/
def run (next : Step σ α) : σ → List α → Option σ
  | state, [] => some state
  | state, action :: rest => (next state action).bind fun middle => run next middle rest

theorem run_snoc (next : Step σ α) (start : σ) (actions : List α) (action : α) :
    run next start (actions ++ [action]) =
      (run next start actions).bind fun state => next state action := by
  induction actions generalizing start with
  | nil => simp [run]
  | cons first rest ih =>
    rw [List.cons_append, run, run, Option.bind_assoc]
    simp only [ih]

/-- The states reached by steps that all meet `guard`. -/
inductive Runs (next : Step σ α) (guard : σ → α → Prop) (start : σ) : List α → σ → Prop
  | nil : Runs next guard start [] start
  | snoc {middle final : σ} {actions : List α} {action : α} :
      Runs next guard start actions middle → guard middle action →
      next middle action = some final → Runs next guard start (actions ++ [action]) final

namespace Runs

variable {next : Step σ α} {guard : σ → α → Prop} {start middle final : σ} {actions more : List α}

/-- What holds at the start and is kept by every step holds in every state
reached. -/
theorem invariant {Inv : σ → Prop} (initially : Inv start)
    (step : ∀ state action after, Inv state → guard state action →
      next state action = some after → Inv after)
    (runs : Runs next guard start actions final) : Inv final := by
  induction runs with
  | nil => exact initially
  | snoc _ met taken ih => exact step _ _ _ ih met taken

/-- A condition may be replaced by one that an invariant makes weaker. -/
theorem imp {Inv : σ → Prop} {weaker : σ → α → Prop} (initially : Inv start)
    (step : ∀ state action after, Inv state → guard state action →
      next state action = some after → Inv after)
    (sound : ∀ state action, Inv state → guard state action → weaker state action)
    (runs : Runs next guard start actions final) : Runs next weaker start actions final := by
  induction runs with
  | nil => exact Runs.nil
  | snoc before met taken ih =>
    exact Runs.snoc ih (sound _ _ (before.invariant initially step) met) taken

theorem trans (first : Runs next guard start actions middle)
    (second : Runs next guard middle more final) :
    Runs next guard start (actions ++ more) final := by
  induction second with
  | nil => simpa using first
  | snoc _ met taken ih =>
    rw [← List.append_assoc]
    exact Runs.snoc ih met taken

end Runs

variable {next : Step σ α}

theorem Runs.run_eq (runs : Runs next guard start actions final) :
    run next start actions = some final := by
  induction runs with
  | nil => rfl
  | snoc _ _ taken ih => rw [run_snoc, ih, Option.bind_some, taken]

theorem Runs.earlier {history : List α} (runs : Runs next guard start actions final)
    (first : history <+: actions) :
    ∃ middle, Runs next guard start history middle := by
  induction runs with
  | nil =>
    rw [List.prefix_nil] at first
    subst first
    exact ⟨start, Runs.nil⟩
  | snoc before met taken ih =>
    rcases List.prefix_concat_iff.mp first with rfl | within
    · exact ⟨_, Runs.snoc before met taken⟩
    · exact ih within

/-- A list of actions that can be taken is a run without a condition. -/
theorem runs_of_run (taken : run next start actions = some final) :
    Runs next (fun _ _ => True) start actions final := by
  induction actions generalizing start with
  | nil =>
    cases taken
    exact Runs.nil
  | cons action rest ih =>
    obtain ⟨middle, first, later⟩ := Option.bind_eq_some_iff.mp taken
    exact (Runs.snoc Runs.nil trivial first).trans (ih later)

/-- The state after a list of actions that all pass a test. -/
def runIf (next : Step σ α) (test : σ → α → Bool) : σ → List α → Option σ
  | state, [] => some state
  | state, action :: rest =>
    if test state action then (next state action).bind fun middle => runIf next test middle rest
    else none

theorem runs_of_runIf {test : σ → α → Bool}
    (sound : ∀ state action, test state action = true → guard state action)
    (taken : runIf next test start actions = some final) :
    Runs next guard start actions final := by
  induction actions generalizing start with
  | nil =>
    cases taken
    exact Runs.nil
  | cons action rest ih =>
    rw [runIf] at taken
    split at taken
    · next passed =>
      obtain ⟨middle, first, later⟩ := Option.bind_eq_some_iff.mp taken
      exact (Runs.snoc Runs.nil (sound _ _ passed) first).trans (ih later)
    · cases taken

end Jmdn.Transition
