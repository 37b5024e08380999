import Mathlib.Data.List.Perm.Basic

/-!
# Iteration over a map

A `range` over a Go map visits every key once, in an order the language leaves
open.  A `MapOrder` is one such choice.
-/

namespace Jmdn.Go

/-- A visiting order for the keys of a map. -/
structure MapOrder (α : Type) where
  order : List α → List α
  perm : ∀ keys, (order keys).Perm keys

namespace MapOrder

variable {α : Type}

/-- Visit the keys as listed. -/
def listed : MapOrder α where
  order keys := keys
  perm _ := List.Perm.refl _

/-- Visit one chosen key before all others. -/
def first [DecidableEq α] (key : α) : MapOrder α where
  order keys := keys.filter (· = key) ++ keys.filter (· ≠ key)
  perm keys := by
    have split := List.filter_append_perm (fun other => decide (other = key)) keys
    simpa using split

theorem mem_order (mapOrder : MapOrder α) {keys : List α} {key : α} :
    key ∈ mapOrder.order keys ↔ key ∈ keys :=
  (mapOrder.perm keys).mem_iff

theorem first_order [DecidableEq α] {key : α} {keys : List α} (mem : key ∈ keys) :
    ∃ rest, (first key).order keys = key :: rest := by
  cases found : keys.filter (· = key) with
  | nil => exact absurd mem (by simpa using List.filter_eq_nil_iff.mp found key)
  | cons other rest =>
    have listed : other ∈ keys.filter (· = key) := found ▸ List.mem_cons_self
    have same : other = key := by simpa using (List.mem_filter.mp listed).2
    exact ⟨rest ++ keys.filter (· ≠ key), by simp only [first, found, same, List.cons_append]⟩

end MapOrder

end Jmdn.Go
