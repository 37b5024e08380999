import Mathlib.Logic.Basic

/-!
# Loops

A loop is a function from a state to a result or the next state.  It is run with
a bound on the number of rounds; it returns if some bound is enough.
-/

namespace Jmdn.Transition

variable {σ ρ : Type}

/-- Run a loop for at most `fuel` rounds. -/
def loop (round : σ → ρ ⊕ σ) : Nat → σ → Option ρ
  | 0, _ => none
  | fuel + 1, state =>
    match round state with
    | .inl result => some result
    | .inr next => loop round fuel next

theorem loop_mono {round : σ → ρ ⊕ σ} {fuel more : Nat} {state : σ} {result : ρ}
    (finished : loop round fuel state = some result) (enough : fuel ≤ more) :
    loop round more state = some result := by
  induction fuel generalizing state more with
  | zero => cases finished
  | succ fuel ih =>
    obtain ⟨rest, rfl⟩ := Nat.exists_eq_add_of_le enough
    rw [Nat.succ_add, loop]
    rw [loop] at finished
    cases outcome : round state with
    | inl left =>
      rw [outcome] at finished
      exact finished
    | inr next =>
      rw [outcome] at finished
      exact ih finished (Nat.le_add_right fuel rest)

/-- A loop leaves with a result after finitely many rounds. -/
def Returns (round : σ → ρ ⊕ σ) (state : σ) (result : ρ) : Prop :=
  ∃ fuel, loop round fuel state = some result

namespace Returns

variable {round : σ → ρ ⊕ σ} {state next : σ} {result other : ρ}

theorem leave (left : round state = .inl result) : Returns round state result := by
  refine ⟨1, ?_⟩
  rw [loop, left]

theorem step (goes : round state = .inr next) (returns : Returns round next result) :
    Returns round state result := by
  obtain ⟨fuel, finished⟩ := returns
  refine ⟨fuel + 1, ?_⟩
  rw [loop, goes]
  exact finished

/-- A loop that returns leaves at once or after the next state returns. -/
theorem cases (returns : Returns round state result) :
    round state = .inl result ∨ ∃ next, round state = .inr next ∧ Returns round next result := by
  obtain ⟨fuel, finished⟩ := returns
  cases fuel with
  | zero => cases finished
  | succ fuel =>
    rw [loop] at finished
    cases outcome : round state with
    | inl left =>
      rw [outcome] at finished
      cases finished
      exact .inl rfl
    | inr next =>
      rw [outcome] at finished
      exact .inr ⟨next, rfl, fuel, finished⟩

theorem of_leave (left : round state = .inl other) (returns : Returns round state result) :
    result = other := by
  rcases returns.cases with now | ⟨next, later, -⟩
  · rw [left] at now
    exact (Sum.inl.inj now).symm
  · rw [left] at later
    cases later

theorem leave_iff (left : round state = .inl other) :
    Returns round state result ↔ result = other := by
  constructor
  · exact of_leave left
  · rintro rfl
    exact leave left

theorem step_iff (goes : round state = .inr next) :
    Returns round state result ↔ Returns round next result := by
  constructor
  · intro returns
    rcases returns.cases with now | ⟨after, later, finished⟩
    · rw [goes] at now
      cases now
    · rw [goes] at later
      cases later
      exact finished
  · exact step goes

/-- A loop that differs from another only where that one leaves with a bad result
leaves with each of its other results. -/
theorem of_agrees {round' : σ → ρ ⊕ σ} {Bad : ρ → Prop}
    (agrees : ∀ state, round' state = round state ∨ ∃ left, round state = .inl left ∧ Bad left)
    (returns : Returns round state result) (fine : ¬ Bad result) :
    Returns round' state result := by
  obtain ⟨fuel, finished⟩ := returns
  induction fuel generalizing state with
  | zero => cases finished
  | succ fuel ih =>
    have here : Returns round state result := ⟨fuel + 1, finished⟩
    rcases agrees state with same | ⟨left, leaves, bad⟩
    · rcases here.cases with now | ⟨next, goes, -⟩
      · exact leave (same.trans now)
      · rw [loop, goes] at finished
        exact step (same.trans goes) (ih finished)
    · rw [of_leave leaves here] at fine
      exact absurd bad fine

end Returns

/-- A loop that goes on from every state of a set never returns from one. -/
theorem not_returns {round : σ → ρ ⊕ σ} {Inside : σ → Prop}
    (goes : ∀ state, Inside state → ∃ next, round state = .inr next ∧ Inside next) {state : σ}
    (inside : Inside state) (result : ρ) : ¬ Returns round state result := by
  rintro ⟨fuel, finished⟩
  induction fuel generalizing state with
  | zero => cases finished
  | succ fuel ih =>
    obtain ⟨next, moved, still⟩ := goes state inside
    rw [loop, moved] at finished
    exact ih still finished

end Jmdn.Transition
