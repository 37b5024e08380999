import Mathlib.Algebra.BigOperators.Fin
import Jmdn.Ledger.Effect

/-!
# The total of a ledger

The sum of the numbers under all keys of a finite ledger.  A write changes it by
the sum of its effect, and an effect that sums to zero leaves it alone.
-/

namespace Jmdn.Ledger

variable {κ G : Type} [Fintype κ] [AddCommGroup G] {delta : κ → G}

/-- The sum of all numbers of a ledger. -/
def total (ledger : κ → Option G) : G :=
  ∑ key, value ledger key

theorem Adds.total_eq {before after : κ → Option G} {touched : Set κ}
    (adds : Adds before after delta touched) :
    total after = total before + ∑ key, delta key := by
  simp only [total, adds.value_eq, Finset.sum_add_distrib]

/-- Several effects sum to the sum of their sums. -/
theorem sum_map_sum {α : Type} (effect : α → κ → G) (items : List α) :
    ∑ key, (items.map effect).sum key = (items.map fun item => ∑ key, effect item key).sum := by
  induction items with
  | nil => simp
  | cons item rest ih =>
    simp only [List.map_cons, List.sum_cons, Pi.add_apply, Finset.sum_add_distrib, ih]

theorem sum_single [DecidableEq κ] (key : κ) (change : G) :
    ∑ other, (Pi.single key change : κ → G) other = change := by
  simp

/-- An effect that is zero outside a list of distinct keys sums to its sum over
the list. -/
theorem sum_eq_list_sum [DecidableEq κ] {keys : List κ} (distinct : keys.Nodup)
    (idle : ∀ key ∉ keys, delta key = 0) : ∑ key, delta key = (keys.map delta).sum := by
  rw [← List.sum_toFinset delta distinct]
  symm
  apply Finset.sum_subset (Finset.subset_univ _)
  intro key _ outside
  exact idle key fun mem => outside (List.mem_toFinset.mpr mem)

end Jmdn.Ledger
