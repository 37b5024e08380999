import Jmdn.Messaging.Certificate

/-!
# The order of the votes

`countEligibleYes` counts a vote unless it clashes with one counted before.  A
member without a bound key can present several keys, and then one vote may clash
with two votes that do not clash with each other: counting it first costs a vote.
-/

namespace Jmdn.Messaging

open List Quorum

section

variable (config : CommitteeConfig) (verifier : VoteVerifier) (blockHashHex : String)
  (height : UInt64) (committee : List (String × String)) (filterByMembership : Bool)

/-- The number of yes votes and the verdict depend on the responses alone, and more
responses never lower the number. -/
structure OrderFree : Prop where
  ordered : ∀ first second : List BLSresponse, first.Perm second →
    countEligibleYes config verifier first blockHashHex height committee filterByMembership =
      countEligibleYes config verifier second blockHashHex height committee filterByMembership
  grows : ∀ first second : List BLSresponse, first ⊆ second →
    countEligibleYes config verifier first blockHashHex height committee filterByMembership ≤
      countEligibleYes config verifier second blockHashHex height committee filterByMembership
  verdict : eligibleMembers config = .ok committee →
    filterByMembership = config.enforceCommitteeRegistry → ∀ first second : List BLSresponse,
      first ⊆ second → second ⊆ first →
        verifyCertificate config verifier first blockHashHex height =
          verifyCertificate config verifier second blockHashHex height

/-- Votes that clash with one vote clash with each other. -/
def ClashesShared : Prop :=
  ∀ one two three : BLSresponse,
    counted config verifier blockHashHex height committee filterByMembership one →
    counted config verifier blockHashHex height committee filterByMembership two →
    counted config verifier blockHashHex height committee filterByMembership three →
    clash config one two → clash config two three → clash config one three

variable {config verifier blockHashHex height committee filterByMembership}

theorem clash_symm (one other : BLSresponse) : clash config one other = clash config other one := by
  rw [Bool.eq_iff_iff]
  simp only [clash, Bool.or_eq_true, Bool.and_eq_true, decide_eq_true_eq]
  grind

theorem orderFree_of_clashesShared
    (shared : ClashesShared config verifier blockHashHex height committee filterByMembership) :
    OrderFree config verifier blockHashHex height committee filterByMembership := by
  have grows : ∀ first second : List BLSresponse, first ⊆ second →
      countEligibleYes config verifier first blockHashHex height committee filterByMembership ≤
        countEligibleYes config verifier second blockHashHex height committee
          filterByMembership := by
    intro first second subset
    rw [countEligibleYes_eq, countEligibleYes_eq]
    apply length_select_le (clash_self config) clash_symm
    · intro one inOne two inTwo three inThree
      exact shared one two three (mem_filter.mp inOne).2 (mem_filter.mp inTwo).2
        (mem_filter.mp inThree).2
    · exact filter_subset _ subset
  refine ⟨?_, grows, ?_⟩
  · intro first second perm
    exact le_antisymm (grows _ _ perm.subset) (grows _ _ perm.symm.subset)
  · rintro eligible rfl first second subset superset
    simp only [verifyCertificate, eligible, le_antisymm (grows _ _ subset) (grows _ _ superset)]

/-- Votes are counted alike in every order exactly when votes that clash with one
vote clash with each other. -/
theorem votes_order_free_iff :
    OrderFree config verifier blockHashHex height committee filterByMembership ↔
      ClashesShared config verifier blockHashHex height committee filterByMembership := by
  refine ⟨fun free one two three isOne isTwo isThree first second => ?_, orderFree_of_clashesShared⟩
  by_contra apart
  -- the middle vote comes first in one order and last in the other
  have same := free.ordered ([two] ++ [one, three]) _ perm_append_comm
  rw [countEligibleYes_eq, countEligibleYes_eq] at same
  simp [isOne, isTwo, isThree, select, keep, first, second, clash_symm three, clash_symm two one,
    apart] at same

/-- A counted vote has the key its member is bound to. -/
theorem lookup_of_counted (bound : ∀ member ∈ committee, member.2 ≠ "") {response : BLSresponse}
    (passed : counted config verifier blockHashHex height committee true response) :
    committee.lookup response.peerID = some (normalizeBLSPub config response.pubKey) ∧
      normalizeBLSPub config response.pubKey ≠ "" := by
  simp only [counted, countable, Bool.not_true, Bool.false_or, Bool.and_eq_true] at passed
  obtain ⟨⟨-, matching⟩, -⟩ := passed
  split at matching
  · cases matching
  next key found =>
  have filled := bound _ (mem_of_lookup found)
  simp only [Bool.or_eq_true, decide_eq_true_eq, filled, false_or] at matching
  rw [matching]
  exact ⟨found, filled⟩

/-- When every member has a bound key, the order does not matter. -/
theorem orderFree_of_bound (bound : ∀ member ∈ committee, member.2 ≠ "") :
    OrderFree config verifier blockHashHex height committee true := by
  apply orderFree_of_clashesShared
  intro one two three isOne isTwo isThree
  obtain ⟨boundOne, filledOne⟩ := lookup_of_counted bound isOne
  obtain ⟨boundTwo, filledTwo⟩ := lookup_of_counted bound isTwo
  obtain ⟨boundThree, -⟩ := lookup_of_counted bound isThree
  simp only [clash, Bool.or_eq_true, Bool.and_eq_true, decide_eq_true_eq]
  grind

end

/-- Two members without bound keys. -/
def unboundBuddies : CommitteeConfig :=
  { source := some (.ok [("a", ""), ("b", "")]) }

/-- A vote of one of them with a key. -/
def voteWith (peerID pubKey : String) : BLSresponse := ⟨"", true, pubKey, peerID⟩

/-- One member's second vote, counted first, shuts out the other member's. -/
theorem second_key_blocks_quorum :
    verifyCertificate unboundBuddies acceptingVerifier
        [voteWith "a" "k2", voteWith "b" "k1", voteWith "a" "k1"] "x" 9 = .ok ⟨2, 2, 2, true⟩ ∧
      verifyCertificate unboundBuddies acceptingVerifier
        [voteWith "a" "k1", voteWith "a" "k2", voteWith "b" "k1"] "x" 9 = .ok ⟨2, 2, 1, false⟩ := by
  decide +kernel

end Jmdn.Messaging
