import Mathlib.Data.Finset.Card

/-!
# Quorum intersection

Two thirds of a finite set, rounded up, as the size of a quorum: any two quorums
share more members than the number of faults the set tolerates, for every size of
the set.
-/

namespace Jmdn.Quorum

variable {α : Type}

/-- Two thirds of `n`, rounded up. -/
def twoThirds (n : Nat) : Nat := (2 * n + 2) / 3

/-- The number of faulty members a set of size `n` tolerates. -/
def tolerated (n : Nat) : Nat := (n - 1) / 3

/-- Two subsets overlap in what their sizes exceed the whole by. -/
theorem card_add_card_le [DecidableEq α] {members first second : Finset α} (firstIn : first ⊆ members)
    (secondIn : second ⊆ members) :
    first.card + second.card ≤ members.card + (first ∩ second).card := by
  rw [← Finset.card_union_add_card_inter first second]
  exact Nat.add_le_add_right (Finset.card_le_card (Finset.union_subset firstIn secondIn)) _

theorem tolerated_lt_overlap {n : Nat} (positive : 1 ≤ n) :
    n + tolerated n + 1 ≤ 2 * twoThirds n := by
  unfold tolerated twoThirds
  omega

theorem countP_or_le (p q : α → Bool) (members : List α) :
    members.countP (fun member => p member || q member) ≤ members.countP p + members.countP q := by
  induction members with
  | nil => simp
  | cons member rest ih =>
    simp only [List.countP_cons]
    cases p member <;> cases q member <;> simp <;> omega

/-- Members that meet one of two conditions which exclude each other. -/
theorem countP_add_le_countP_or {p q : α → Bool} (members : List α)
    (exclusive : ∀ member, p member = true → q member = false) :
    members.countP p + members.countP q ≤ members.countP fun member => p member || q member := by
  induction members with
  | nil => simp
  | cons member rest ih =>
    simp only [List.countP_cons]
    cases meets : p member
    · cases q member <;> simp <;> omega
    · simp [exclusive member meets]
      omega

/-- Two choices cannot both be supported by a quorum less the faulty members. -/
theorem not_both_supported {n faulty first second : Nat} (positive : 1 ≤ n)
    (few : faulty ≤ tolerated n) (exclusive : faulty + first + second ≤ n)
    (firstQuorum : twoThirds n ≤ faulty + first)
    (secondQuorum : twoThirds n ≤ faulty + second) : False := by
  have arithmetic := tolerated_lt_overlap positive
  omega

/-- Two lists without repetition that are together longer than the whole share a
member. -/
theorem exists_common {members first second : List α} (firstNodup : first.Nodup)
    (secondNodup : second.Nodup) (firstIn : first ⊆ members) (secondIn : second ⊆ members)
    (long : members.length < first.length + second.length) :
    ∃ member ∈ first, member ∈ second := by
  by_contra disjoint
  push Not at disjoint
  have nodup : (first ++ second).Nodup :=
    List.nodup_append'.mpr ⟨firstNodup, secondNodup, fun member inFirst => disjoint member inFirst⟩
  have short := (nodup.subperm (List.append_subset.mpr ⟨firstIn, secondIn⟩)).length_le
  rw [List.length_append] at short
  omega

/-- Two quorums share more than the tolerated number of members. -/
theorem tolerated_lt_card_inter [DecidableEq α] {members first second : Finset α}
    (nonempty : members.Nonempty)
    (firstIn : first ⊆ members) (secondIn : second ⊆ members)
    (firstQuorum : twoThirds members.card ≤ first.card)
    (secondQuorum : twoThirds members.card ≤ second.card) :
    tolerated members.card + 1 ≤ (first ∩ second).card := by
  have overlap := card_add_card_le firstIn secondIn
  have arithmetic := tolerated_lt_overlap (Finset.card_pos.mpr nonempty)
  omega

end Jmdn.Quorum
