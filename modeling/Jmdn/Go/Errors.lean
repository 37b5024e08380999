import Mathlib.Tactic.Common

/-!
# Fallible calls in sequence

A Go function that returns at its first error is a chain of `Except` binds.  A
chain that ends well went well at each link.
-/

namespace Jmdn.Go

variable {ε ε' α β : Type}

variable {next : α → Except ε β} {first outcome : Except ε α} {result : α} {cause : ε}

theorem bind_eq_ok {result : β} (done : (first >>= next) = .ok result) :
    ∃ middle, first = .ok middle ∧ next middle = .ok result := by
  cases first with
  | error cause => cases done
  | ok middle => exact ⟨middle, rfl, done⟩

theorem exists_bind_eq_ok_iff :
    (∃ result, (first >>= next) = .ok result) ↔
      ∃ middle, first = .ok middle ∧ ∃ result, next middle = .ok result := by
  cases first with
  | error cause => exact iff_of_false (fun done => by cases done.choose_spec) (by simp)
  | ok middle => simp [bind, Except.bind]

/-- A chain that fails fails at its first link or after it. -/
theorem bind_eq_error (failed : (first >>= next) = .error cause) :
    first = .error cause ∨ ∃ middle, first = .ok middle ∧ next middle = .error cause := by
  cases first with
  | error earlier =>
    cases failed
    exact .inl rfl
  | ok middle => exact .inr ⟨middle, rfl, failed⟩

theorem bind_eq_error_iff :
    (first >>= next) = .error cause ↔
      first = .error cause ∨ ∃ middle, first = .ok middle ∧ next middle = .error cause := by
  constructor
  · exact bind_eq_error
  · rintro (rfl | ⟨middle, rfl, late⟩)
    · rfl
    · exact late

/-- A loop over fallible calls returns exactly when every call does. -/
theorem exists_mapM_eq_ok_iff {items : List α} {call : α → Except ε β} :
    (∃ results, items.mapM call = .ok results) ↔
      ∀ item ∈ items, ∃ result, call item = .ok result := by
  induction items with
  | nil =>
    have done : ([] : List α).mapM call = .ok [] := rfl
    simp [done]
  | cons item rest ih =>
    rw [List.mapM_cons, List.forall_mem_cons, ← ih]
    simp only [exists_bind_eq_ok_iff, pure, Except.pure, Except.ok.injEq, exists_eq', and_true,
      exists_and_right]

theorem mapError_eq_ok {wrap : ε → ε'} (done : outcome.mapError wrap = .ok result) :
    outcome = .ok result := by
  cases outcome with
  | error cause => cases done
  | ok value =>
    cases done
    rfl

theorem eq_ok_of_toOption (done : outcome.toOption = some result) :
    outcome = .ok result := by
  cases outcome with
  | error cause => cases done
  | ok value =>
    cases done
    rfl

end Jmdn.Go
