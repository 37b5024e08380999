import Mathlib.Combinatorics.Enumerative.DoubleCounting

/-!
# Selection without clashes

Items come one at a time, and one is kept unless it clashes with an item kept
before.  When clashing is transitive, the number of items kept is the number of
classes of items that came, in whatever order they came.
-/

namespace Jmdn.Quorum

open List

variable {α : Type} {clash : α → α → Bool} {items first second kept : List α}

/-- Take one more item. -/
def keep (clash : α → α → Bool) (kept : List α) (item : α) : List α :=
  if kept.any (clash item) then kept else item :: kept

/-- The items kept of a list. -/
def select (clash : α → α → Bool) (items : List α) : List α :=
  items.foldl (keep clash) []

/-- What is kept: items that do not clash, one for every item to clash with. -/
structure Selected (clash : α → α → Bool) (items kept : List α) : Prop where
  known : ∀ item ∈ kept, item ∈ items
  apart : kept.Pairwise fun one other => clash one other = false
  covered : ∀ item ∈ items, ∃ other ∈ kept, clash item other

section

variable (refl : ∀ item, clash item item)
include refl

theorem Selected.keep (selected : Selected clash items kept)
    (item : α) : Selected clash (items ++ [item]) (keep clash kept item) := by
  unfold Quorum.keep
  split
  · next clashes =>
    refine ⟨fun other mem => mem_append_left _ (selected.known other mem),
      selected.apart, fun other mem => ?_⟩
    rcases mem_append.mp mem with before | last
    · exact selected.covered other before
    · rw [mem_singleton.mp last]
      exact any_eq_true.mp clashes
  · next free =>
    refine ⟨fun other mem => ?_, pairwise_cons.mpr ⟨?_, selected.apart⟩,
      fun other mem => ?_⟩
    · rcases mem_cons.mp mem with rfl | before
      · exact mem_append_right _ (mem_singleton_self other)
      · exact mem_append_left _ (selected.known other before)
    · simpa using free
    · rcases mem_append.mp mem with before | last
      · obtain ⟨partner, inKept, clashes⟩ := selected.covered other before
        exact ⟨partner, mem_cons_of_mem _ inKept, clashes⟩
      · rw [mem_singleton.mp last]
        exact ⟨item, mem_cons_self, refl item⟩

theorem selected_select (items : List α) :
    Selected clash items (select clash items) := by
  induction items using List.reverseRecOn with
  | nil => exact ⟨by simp [select], List.Pairwise.nil, by simp⟩
  | append_singleton items item ih =>
    rw [select, foldl_append]
    exact ih.keep refl item

theorem Selected.nodup (selected : Selected clash items kept) :
    kept.Nodup := by
  apply selected.apart.imp
  rintro one _ apart rfl
  rw [refl] at apart
  cases apart

/-- More items keep at least as many: each one kept has a partner of its own. -/
theorem length_select_le (symm : ∀ one other, clash one other = clash other one)
    (trans : ∀ one ∈ second, ∀ two ∈ second, ∀ three ∈ second,
      clash one two → clash two three → clash one three)
    (subset : ∀ item ∈ first, item ∈ second) :
    (select clash first).length ≤ (select clash second).length := by
  classical
  have : Std.Symm fun one other => clash one other = false := ⟨fun _ _ => (symm _ _).trans⟩
  have one := selected_select refl first
  have two := selected_select refl second
  rw [← toFinset_card_of_nodup (one.nodup refl),
    ← toFinset_card_of_nodup (two.nodup refl)]
  have inSecond := fun item mem => subset item (one.known item mem)
  apply Finset.card_le_card_of_forall_subsingleton fun item partner => clash item partner = true
  · intro item mem
    obtain ⟨partner, found, clashes⟩ :=
      two.covered item (inSecond item (mem_toFinset.mp mem))
    exact ⟨partner, mem_toFinset.mpr found, clashes⟩
  · rintro partner found item ⟨mem, clashes⟩ other ⟨listed, again⟩
    rw [mem_toFinset] at found mem listed
    have shared := trans item (inSecond item mem) partner (two.known partner found) other
      (inSecond other listed) clashes (symm other partner ▸ again)
    by_contra distinct
    have apart := one.apart.forall mem listed distinct
    rw [shared] at apart
    cases apart

end

end Jmdn.Quorum
