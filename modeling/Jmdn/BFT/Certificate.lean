import Jmdn.BFT.Rejection

/-!
# The proof of a COMMIT

The loop of `validateCommit` checks that the votes of a proof are fresh, signed
and from distinct buddies, and counts those with the decision of the COMMIT.  It
does not look at their round and block hash.
-/

namespace Jmdn.BFT

open List

section

variable {δ : Type} (signatures : Signatures δ) (setup : Setup δ)

/-- A proof holds the signed votes of a threshold of buddies for a decision, in
the round and for the block of the engine. -/
def Certified (decision : Bytes) (proof : List PrepareMessage) : Prop :=
  ∃ votes : List PrepareMessage, votes.Sublist proof ∧ setup.threshold ≤ votes.length ∧
    (votes.map PrepareMessage.buddyID).Nodup ∧
    ∀ vote ∈ votes, vote.round = setup.round ∧ vote.blockHash = setup.blockHash ∧
      vote.decision = decision ∧
      ∃ buddy, buddyOf setup.buddies vote.buddyID = some buddy ∧
        signatures.verify buddy.publicKey (signatures.sha256 vote.payload) vote.signature = true

/-- The votes of a proof that count for a decision. -/
def supporting (decision : Bytes) (proof : List PrepareMessage) : List PrepareMessage :=
  proof.filter fun vote => vote.decision = decision

/-- A vote of the round and for the block of the engine. -/
def current (vote : PrepareMessage) : Bool :=
  vote.round = setup.round && vote.blockHash = setup.blockHash

/-- The number of votes that count for a decision and were cast in another round
or for another block. -/
def foreign (decision : Bytes) (proof : List PrepareMessage) : Nat :=
  (supporting decision proof).countP fun vote => !current setup vote

variable {signatures setup}

theorem length_supporting (decision : Bytes) (proof : List PrepareMessage) :
    (supporting decision proof).length =
      (supporting decision proof).countP (current setup) + foreign setup decision proof := by
  rw [length_eq_countP_add_countP (current setup), foreign]
  simp

/-- The proof of an accepted COMMIT is a certificate exactly when enough of its
supporting votes remain without those of other rounds and blocks. -/
theorem certified_iff_few_foreign (required : setup.config.requireSignatures = true) {now : Int}
    {engine : Engine} {msg : CommitMessage}
    (valid : (validateCommit signatures setup now engine msg).1 = none) :
    Certified signatures setup msg.decision msg.prepareProof ↔
      setup.threshold + foreign setup msg.decision msg.prepareProof ≤
        (supporting msg.decision msg.prepareProof).length := by
  obtain ⟨nodup, checked, -⟩ := supported_of_validateCommit valid
  rw [length_supporting, Nat.add_le_add_iff_right]
  constructor
  · rintro ⟨votes, listed, enough, -, cast⟩
    have decided : supporting msg.decision votes = votes :=
      filter_eq_self.mpr fun vote member => by simpa using (cast vote member).2.2.1
    have supports : votes.Sublist (supporting msg.decision msg.prepareProof) :=
      decided ▸ listed.filter _
    have isCurrent : votes.countP (current setup) = votes.length :=
      countP_eq_length.mpr fun vote member => by
        simp [current, (cast vote member).1, (cast vote member).2.1]
    calc
      setup.threshold ≤ votes.length := enough
      _ = votes.countP (current setup) := isCurrent.symm
      _ ≤ (supporting msg.decision msg.prepareProof).countP (current setup) := supports.countP_le
  · intro enough
    refine ⟨(supporting msg.decision msg.prepareProof).filter (current setup), ?_, ?_, ?_, ?_⟩
    · exact filter_sublist.trans filter_sublist
    · rwa [← countP_eq_length_filter]
    · exact nodup.sublist ((filter_sublist.trans filter_sublist).map _)
    · intro vote listed
      obtain ⟨supports, isCurrent⟩ := mem_filter.mp listed
      obtain ⟨member, decided⟩ := mem_filter.mp supports
      obtain ⟨buddy, found, verified⟩ := (checked vote member).authentic
      rw [current, Bool.and_eq_true, decide_eq_true_eq, decide_eq_true_eq] at isCurrent
      exact ⟨isCurrent.1, isCurrent.2, of_decide_eq_true decided, buddy, found,
        (verified required).2⟩

end

/-! ## Votes of an earlier round -/

/-- The PREPARE of a buddy in a round, signed. -/
def roundPrepare (round : UInt64) (name : UInt8) : PrepareMessage :=
  let msg := { quadPrepare name accept with round }
  { msg with signature := [11 * name] ++ msg.payload }

/-- The COMMIT of the second buddy with the votes of a round.  A proof is not part
of what is signed. -/
def commitOnVotesOf (round : UInt64) : CommitMessage :=
  { quadCommit 2 with prepareProof := [1, 2, 3].map (roundPrepare round) }

theorem votes_of_the_round_certify :
    (validateCommit quad.signatures quadSetup 100000000000 {} (commitOnVotesOf 7)).1 = none ∧
      Certified quad.signatures quadSetup accept (commitOnVotesOf 7).prepareProof := by
  have accepted : (validateCommit quad.signatures quadSetup 100000000000 {}
      (commitOnVotesOf 7)).1 = none := by decide
  exact ⟨accepted, (certified_iff_few_foreign rfl accepted).mpr (by decide)⟩

/-- The votes of round 6 carry a COMMIT of round 7. -/
theorem replayed_votes_pass :
    (validateCommit quad.signatures quadSetup 100000000000 {} (commitOnVotesOf 6)).1 = none ∧
      ¬Certified quad.signatures quadSetup accept (commitOnVotesOf 6).prepareProof := by
  refine ⟨by decide, ?_⟩
  rintro ⟨votes, listed, enough, -, cast⟩
  have other : ∀ vote ∈ (commitOnVotesOf 6).prepareProof, vote.round ≠ quadSetup.round := by decide
  cases votes with
  | nil => exact absurd enough (by decide)
  | cons vote rest =>
    exact other vote (listed.subset mem_cons_self) (cast vote mem_cons_self).1

end Jmdn.BFT
