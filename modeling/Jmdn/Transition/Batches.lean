import Mathlib.Data.List.Basic

/-!
# Sequences read in batches

A method of an iterator returns a batch of elements, or does not return one, and
changes the iterator.  It enumerates a sequence if finitely many calls return the
sequence piece by piece and all later calls return nothing more.
-/

namespace Jmdn.Transition

variable {σ α : Type} {batch : List α}

/-- The batch of the call after `count` earlier ones. -/
def batchAfter (method : σ → Option (List α) × σ) : Nat → σ → Option (List α)
  | 0, state => (method state).1
  | count + 1, state => batchAfter method count (method state).2

/-- Successive calls return the given batches. -/
inductive Yields (method : σ → Option (List α) × σ) : σ → List (List α) → σ → Prop
  | nil {state : σ} : Yields method state [] state
  | snoc {first last next : σ} {batches : List (List α)} {batch : List α}
      (earlier : Yields method first batches last) (returned : method last = (some batch, next)) :
      Yields method first (batches ++ [batch]) next

/-- Finitely many calls return a sequence piece by piece, and all later ones an
empty batch. -/
def Enumerates (method : σ → Option (List α) × σ) (state : σ) (sequence : List α) : Prop :=
  ∃ batches last, Yields method state batches last ∧ batches.flatten = sequence ∧
    ∀ count, batchAfter method count last = some []

variable {method : σ → Option (List α) × σ} {state last : σ} {batches : List (List α)}

/-- The calls after those that returned some batches. -/
theorem Yields.batchAfter_add (yields : Yields method state batches last) (count : Nat) :
    batchAfter method (batches.length + count) state = batchAfter method count last := by
  induction yields generalizing count with
  | nil => rw [List.length_nil, Nat.zero_add]
  | snoc _ returned ih =>
    rw [List.length_append, List.length_singleton, Nat.add_assoc, ih, Nat.add_comm 1 count,
      batchAfter, returned]

theorem Yields.batchAfter_isSome (yields : Yields method state batches last) {count : Nat}
    (earlier : count < batches.length) : (batchAfter method count state).isSome := by
  induction yields with
  | nil => cases earlier
  | snoc before returned ih =>
    rw [List.length_append, List.length_singleton] at earlier
    rcases Nat.lt_succ_iff_lt_or_eq.mp earlier with less | rfl
    · exact ih less
    · rw [← Nat.add_zero (List.length _), before.batchAfter_add, batchAfter, returned]
      rfl

/-- Every call of an iterator that enumerates something returns. -/
theorem Enumerates.returns {sequence : List α} (enumerates : Enumerates method state sequence)
    (count : Nat) : (batchAfter method count state).isSome := by
  obtain ⟨batches, last, yields, -, empty⟩ := enumerates
  rcases Nat.lt_or_ge count batches.length with earlier | later
  · exact yields.batchAfter_isSome earlier
  · obtain ⟨more, rfl⟩ := Nat.exists_eq_add_of_le later
    rw [yields.batchAfter_add, empty]
    rfl

/-- A call that does not return ends the enumeration. -/
theorem Yields.not_enumerates (yields : Yields method state batches last)
    (stuck : (method last).1 = none) (sequence : List α) :
    ¬ Enumerates method state sequence := by
  intro enumerates
  have returned := enumerates.returns (batches.length + 0)
  rw [yields.batchAfter_add, batchAfter, stuck] at returned
  cases returned

/-- An iterator that an empty call does not change has nothing more to return. -/
theorem batchAfter_exhausted (fixed : method state = (some [], state)) (count : Nat) :
    batchAfter method count state = some [] := by
  induction count with
  | zero => rw [batchAfter, fixed]
  | succ count ih => rw [batchAfter, fixed, ih]

theorem Yields.enumerates (yields : Yields method state batches last)
    (fixed : method last = (some [], last)) : Enumerates method state batches.flatten :=
  ⟨batches, last, yields, rfl, batchAfter_exhausted fixed⟩

theorem Yields.cons {next : σ} (returned : method state = (some batch, next))
    (later : Yields method next batches last) : Yields method state (batch :: batches) last := by
  induction later with
  | nil => exact .snoc .nil returned
  | snoc _ finally_ ih => exact .snoc ih finally_

theorem Enumerates.cons {next : σ} {rest : List α} (returned : method state = (some batch, next))
    (later : Enumerates method next rest) :
    Enumerates method state (batch ++ rest) := by
  obtain ⟨batches, last, yields, rfl, empty⟩ := later
  exact ⟨batch :: batches, last, .cons returned yields, List.flatten_cons, empty⟩

theorem Enumerates.exhausted (fixed : method state = (some [], state)) :
    Enumerates method state [] :=
  Yields.nil.enumerates fixed

end Jmdn.Transition
