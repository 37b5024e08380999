import Mathlib.Data.List.Sort

/-!
# Sorting a slice

`sort.Slice` returns a sorted permutation and leaves a sorted slice as it is; how
it orders other slices with equal elements is left open.  A `SortSlice` is one
such behaviour.
-/

namespace Jmdn.Go

/-- `sort.Slice` for an order in which `before first second` means that `second`
may follow `first`. -/
structure SortSlice {α : Type} (before : α → α → Prop) where
  sort : List α → List α
  perm : ∀ items, (sort items).Perm items
  sorted : ∀ items, (sort items).Pairwise before
  fixed : ∀ items, items.Pairwise before → sort items = items

/-- Comparing by a key. -/
instance totalByKey {α κ : Type} [LinearOrder κ] (key : α → κ) :
    Std.Total fun first second : α => key first ≤ key second :=
  ⟨fun first second => le_total (key first) (key second)⟩

instance transByKey {α κ : Type} [LinearOrder κ] (key : α → κ) :
    IsTrans α fun first second => key first ≤ key second :=
  ⟨fun _ _ _ => le_trans⟩

namespace SortSlice

variable {α : Type} {before : α → α → Prop}

/-- Sorting by insertion, as for short slices. -/
def insertion [DecidableRel before] [Std.Total before] [IsTrans α before] :
    SortSlice before where
  sort := List.insertionSort before
  perm := List.perm_insertionSort before
  sorted := List.pairwise_insertionSort before
  fixed _ := List.Pairwise.insertionSort_eq

@[simp]
theorem sort_singleton (slice : SortSlice before) (item : α) : slice.sort [item] = [item] :=
  slice.fixed [item] (List.pairwise_singleton before item)

theorem sort_ne_nil (slice : SortSlice before) {items : List α} (nonempty : items ≠ []) :
    slice.sort items ≠ [] := by
  intro empty
  have perm := slice.perm items
  rw [empty] at perm
  exact nonempty perm.symm.eq_nil

end SortSlice

end Jmdn.Go
