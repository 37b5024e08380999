import Mathlib.Data.List.Basic

/-!
# Joined texts

Texts over an arbitrary alphabet that are split at a symbol, and lists of
key-value pairs written one after the other.  Two splits of one text at the same
symbol are equal or one of them lies inside the other.
-/

namespace Jmdn.Text

open List

variable {α : Type} {symbol : α}

/-- Two splits of a text at a symbol are equal, or one comes before the other. -/
theorem split_cases {left right left' right' : List α}
    (same : left ++ symbol :: right = left' ++ symbol :: right') :
    (left = left' ∧ right = right') ∨
      (∃ middle, left' = left ++ symbol :: middle ∧ right = middle ++ symbol :: right') ∨
        ∃ middle, left = left' ++ symbol :: middle ∧ right' = middle ++ symbol :: right := by
  rcases append_eq_append_iff.mp same with ⟨between, first, second⟩ | ⟨between, first, second⟩
  · cases between with
    | nil =>
      rw [nil_append, List.cons.injEq] at second
      exact .inl ⟨by rw [first, append_nil], second.2⟩
    | cons head middle =>
      rw [cons_append, List.cons.injEq] at second
      exact .inr (.inl ⟨middle, by rw [first, ← second.1], second.2⟩)
  · cases between with
    | nil =>
      rw [nil_append, List.cons.injEq] at second
      exact .inl ⟨by rw [first, append_nil], second.2.symm⟩
    | cons head middle =>
      rw [cons_append, List.cons.injEq] at second
      exact .inr (.inr ⟨middle, by rw [first, ← second.1], second.2⟩)

/-- A text is split in one way if the symbol occurs in neither front. -/
theorem split_eq_of_not_mem {left right left' right' : List α}
    (same : left ++ symbol :: right = left' ++ symbol :: right') (clean : symbol ∉ left)
    (clean' : symbol ∉ left') : left = left' ∧ right = right' := by
  rcases split_cases same with equal | ⟨middle, inside, -⟩ | ⟨middle, inside, -⟩
  · exact equal
  · exact absurd (by simp [inside]) clean'
  · exact absurd (by simp [inside]) clean

section

variable (colon comma : α)

/-- A key, a colon and a value. -/
def pairText (pair : List α × List α) : List α :=
  pair.1 ++ colon :: pair.2

/-- The texts of the pairs with commas between them. -/
def joined (pairs : List (List α × List α)) : List α :=
  [comma].intercalate (pairs.map (pairText colon))

/-- What stands before the last value of a joined text. -/
def front : List α × List α → List (List α × List α) → List α
  | first, [] => first.1
  | first, next :: rest => pairText colon first ++ comma :: front next rest

/-- The last value of a list of pairs. -/
def lastValue : List α × List α → List (List α × List α) → List α
  | first, [] => first.2
  | _, next :: rest => lastValue next rest

theorem joined_eq_front (first : List α × List α) (rest : List (List α × List α)) :
    joined colon comma (first :: rest) =
      front colon comma first rest ++ colon :: lastValue first rest := by
  induction rest generalizing first with
  | nil => simp [joined, front, lastValue, pairText]
  | cons next rest ih =>
    have tail := ih next
    rw [joined, map_cons] at tail
    rw [joined, map_cons, map_cons, intercalate_cons_cons, tail, front, lastValue]
    simp

theorem lastValue_mem (first : List α × List α) (rest : List (List α × List α)) :
    ∃ pair ∈ first :: rest, pair.2 = lastValue first rest := by
  induction rest generalizing first with
  | nil => exact ⟨first, mem_cons_self, rfl⟩
  | cons next rest ih =>
    obtain ⟨pair, mem, value⟩ := ih next
    exact ⟨pair, mem_cons_of_mem _ mem, value⟩

end

end Jmdn.Text
