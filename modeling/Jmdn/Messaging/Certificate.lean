import Jmdn.Go.Strings
import Jmdn.Quorum.Intersection
import Jmdn.Quorum.Selection

/-!
# Committee certificates

The eligible committee and the certificate verifier of
`messaging/consensus_hardening.go`.  Signature verification is a parameter.
-/

namespace Jmdn.Messaging

open Go List Quorum

variable {committee entries : List (String × String)}

/-- `BLS_Signer.BLSresponse`, without the rejection reasons, which only logging
reads. -/
structure BLSresponse where
  signature : String := ""
  agree : Bool := false
  pubKey : String := ""
  peerID : String := ""
  deriving DecidableEq, Repr

/-- The BLS verifiers: `VerifyForBlock` and the legacy `Verify`, true when they
return no error. -/
structure VoteVerifier where
  verifyForBlock : BLSresponse → UInt64 → UInt64 → String → Int → Bool
  verify : BLSresponse → Int → Bool

/-- Settings and sources the certificate check reads.  `source` is the wired
eligibility source, with the buddies in the order the map is iterated. -/
structure CommitteeConfig where
  source : Option (Except Unit (List (String × String))) := none
  blockBuddy : List String := []
  maxValidators : Int := 0
  rejectLegacyVotes : Bool := true
  enforceCommitteeRegistry : Bool := true
  domainChainID : UInt64 := 0
  lowerRune : Char → Char := id

variable {config : CommitteeConfig}

inductive CommitteeError where
  | notConfigured
  | sourceFailed
  | emptyBuddySet
  | emptyAfterBlocklist
  deriving DecidableEq, Repr

/-- `normalizeBLSPub`. -/
def normalizeBLSPub (config : CommitteeConfig) (key : String) : String :=
  trimStart (toLower config.lowerRune (trimSpace key)) "0x"

/-- `blockedBuddies`. -/
def blockedBuddies (config : CommitteeConfig) : List String :=
  (config.blockBuddy.map trimSpace).filter (· ≠ "")

/-- `committeeSizeLimit`. -/
def committeeSizeLimit (config : CommitteeConfig) : Nat :=
  config.maxValidators.toNat

/-- Assignment to a key of a map kept as a list of entries. -/
def assign (entries : List (String × String)) (key value : String) : List (String × String) :=
  (key, value) :: entries.filter fun entry => entry.1 ≠ key

/-- The loop of `eligibleMembers` over the buddies. -/
def admitBuddies (config : CommitteeConfig) :
    List (String × String) → List (String × String) → List (String × String)
  | [], eligible => eligible
  | (peer, blsPub) :: rest, eligible =>
    let pid := trimSpace peer
    if pid = "" ∨ pid ∈ blockedBuddies config then admitBuddies config rest eligible
    else admitBuddies config rest (assign eligible pid (normalizeBLSPub config blsPub))

/-- The cap by sorted peer id. -/
def capCommittee (limit : Nat) (eligible : List (String × String)) : List (String × String) :=
  if limit > 0 ∧ eligible.length > limit then
    (eligible.insertionSort fun first second => first.1 ≤ second.1).take limit
  else eligible

/-- `eligibleMembers`: the entries of the committee map. -/
def eligibleMembers (config : CommitteeConfig) :
    Except CommitteeError (List (String × String)) :=
  match config.source with
  | none => .error .notConfigured
  | some (.error _) => .error .sourceFailed
  | some (.ok buddies) =>
    if buddies = [] then .error .emptyBuddySet
    else
      let eligible := admitBuddies config buddies []
      if eligible = [] then .error .emptyAfterBlocklist
      else .ok (capCommittee (committeeSizeLimit config) eligible)

/-- `ByzantineQuorum`. -/
def byzantineQuorum (n : Nat) : Nat :=
  if n < 1 then 1 else (2 * n + 2) / 3

/-- The counters of `countEligibleYes`. -/
structure VoteCount where
  countedPeers : List String := []
  countedKeys : List String := []
  yes : Nat := 0

/-- Whether a response passes the signature and membership filters. -/
def countable (config : CommitteeConfig) (verifier : VoteVerifier) (blockHashHex : String)
    (height : UInt64) (committee : List (String × String)) (filterByMembership : Bool)
    (response : BLSresponse) : Bool :=
  let vote : Int := if response.agree then 1 else -1
  (verifier.verifyForBlock response config.domainChainID height blockHashHex vote ||
      (!config.rejectLegacyVotes && verifier.verify response vote)) &&
    (!filterByMembership ||
      match committee.lookup response.peerID with
      | none => false
      | some boundKey =>
        boundKey = "" || normalizeBLSPub config response.pubKey = boundKey)

/-- One round of the loop of `countEligibleYes`. -/
def countVote (config : CommitteeConfig) (verifier : VoteVerifier) (blockHashHex : String)
    (height : UInt64) (committee : List (String × String)) (filterByMembership : Bool)
    (count : VoteCount) (response : BLSresponse) : VoteCount :=
  let pubKey := normalizeBLSPub config response.pubKey
  if !countable config verifier blockHashHex height committee filterByMembership response then
    count
  else if !response.agree then count
  else if response.peerID ∈ count.countedPeers ∨ (pubKey ≠ "" ∧ pubKey ∈ count.countedKeys) then
    count
  else
    { countedPeers := response.peerID :: count.countedPeers
      countedKeys := if pubKey ≠ "" then pubKey :: count.countedKeys else count.countedKeys
      yes := count.yes + 1 }

/-- `countEligibleYes`. -/
def countEligibleYes (config : CommitteeConfig) (verifier : VoteVerifier)
    (responses : List BLSresponse) (blockHashHex : String) (height : UInt64)
    (committee : List (String × String)) (filterByMembership : Bool) : Nat :=
  (responses.foldl
    (countVote config verifier blockHashHex height committee filterByMembership) {}).yes

structure CertificateResult where
  committeeSize : Nat
  threshold : Nat
  yesVotes : Nat
  reached : Bool
  deriving DecidableEq, Repr

/-- `VerifyCertificate`. -/
def verifyCertificate (config : CommitteeConfig) (verifier : VoteVerifier)
    (responses : List BLSresponse) (blockHashHex : String) (height : UInt64) :
    Except CommitteeError CertificateResult :=
  match eligibleMembers config with
  | .error cause => .error cause
  | .ok committee =>
    let yesVotes := countEligibleYes config verifier responses blockHashHex height committee
      config.enforceCommitteeRegistry
    let threshold := byzantineQuorum committee.length
    .ok
      { committeeSize := committee.length
        threshold
        yesVotes
        reached := yesVotes ≥ threshold }

/-! ## The committee -/

theorem nodup_assign (key value : String) (nodup : (entries.map Prod.fst).Nodup) :
    ((assign entries key value).map Prod.fst).Nodup := by
  rw [assign, map_cons, nodup_cons]
  refine ⟨?_, nodup.sublist (filter_sublist.map _)⟩
  intro mem
  obtain ⟨entry, found, same⟩ := mem_map.mp mem
  have different := (mem_filter.mp found).2
  simp [same] at different

theorem nodup_admitBuddies (config : CommitteeConfig) (buddies : List (String × String)) :
    ∀ eligible : List (String × String), (eligible.map Prod.fst).Nodup →
      ((admitBuddies config buddies eligible).map Prod.fst).Nodup := by
  induction buddies with
  | nil => exact fun _ nodup => nodup
  | cons buddy rest ih =>
    intro eligible nodup
    unfold admitBuddies
    dsimp only
    split
    · exact ih eligible nodup
    · exact ih _ (nodup_assign _ _ nodup)

theorem nodup_capCommittee {limit : Nat} {eligible : List (String × String)}
    (nodup : (eligible.map Prod.fst).Nodup) :
    ((capCommittee limit eligible).map Prod.fst).Nodup := by
  unfold capCommittee
  split
  · have sorted := (perm_insertionSort
      (fun first second : String × String => first.1 ≤ second.1) eligible).map Prod.fst
    exact (sorted.nodup_iff.mpr nodup).sublist ((take_sublist _ _).map _)
  · exact nodup

/-- The committee is a non-empty map: no peer id occurs twice. -/
theorem eligibleMembers_ok (eligible : eligibleMembers config = .ok committee) :
    (committee.map Prod.fst).Nodup ∧ committee ≠ [] := by
  unfold eligibleMembers at eligible
  split at eligible
  · cases eligible
  · cases eligible
  next buddies _ =>
  split at eligible
  · cases eligible
  dsimp only at eligible
  split at eligible
  · cases eligible
  next nonempty =>
  cases eligible
  refine ⟨nodup_capCommittee (nodup_admitBuddies config buddies [] nodup_nil), ?_⟩
  unfold capCommittee
  split
  · next capped =>
    intro none
    have length := congrArg List.length none
    simp only [length_take, length_insertionSort, length_nil] at length
    omega
  · exact nonempty

/-! ## Counted votes -/

/-- A member's bound key verifies a block-bound yes vote in the list. -/
def VotedFor (config : CommitteeConfig) (verifier : VoteVerifier) (responses : List BLSresponse)
    (blockHashHex : String) (height : UInt64) (member : String × String) : Prop :=
  ∃ response ∈ responses, response.agree = true ∧ response.peerID = member.1 ∧
    normalizeBLSPub config response.pubKey = member.2 ∧
    verifier.verifyForBlock response config.domainChainID height blockHashHex 1 = true

theorem mem_of_lookup {key value : String} (found : entries.lookup key = some value) :
    (key, value) ∈ entries := by
  obtain ⟨before, after, rfl, -⟩ := lookup_eq_some_iff.mp found
  exact mem_append_right before mem_cons_self

/-- A yes vote that passes the filters. -/
def counted (config : CommitteeConfig) (verifier : VoteVerifier) (blockHashHex : String)
    (height : UInt64) (committee : List (String × String)) (filterByMembership : Bool)
    (response : BLSresponse) : Bool :=
  countable config verifier blockHashHex height committee filterByMembership response &&
    response.agree

/-- Two votes of which at most one is counted: they share the peer id or a key. -/
def clash (config : CommitteeConfig) (one other : BLSresponse) : Bool :=
  one.peerID = other.peerID || (normalizeBLSPub config one.pubKey ≠ "" &&
    normalizeBLSPub config one.pubKey = normalizeBLSPub config other.pubKey)

theorem clash_self (config : CommitteeConfig) (response : BLSresponse) :
    clash config response response = true := by
  simp [clash]

/-- The counters once some votes have been counted. -/
def tallyOf (config : CommitteeConfig) (votes : List BLSresponse) : VoteCount where
  countedPeers := votes.map BLSresponse.peerID
  countedKeys := (votes.map fun response => normalizeBLSPub config response.pubKey).filter (· ≠ "")
  yes := votes.length

variable {responses : List BLSresponse}

section

variable {config : CommitteeConfig} {verifier : VoteVerifier} {blockHashHex : String}
variable {height : UInt64} {committee : List (String × String)} {filterByMembership : Bool}

theorem countVote_tallyOf (votes : List BLSresponse) (response : BLSresponse) :
    countVote config verifier blockHashHex height committee filterByMembership
        (tallyOf config votes) response =
      tallyOf config
        (if counted config verifier blockHashHex height committee filterByMembership response then
          keep (clash config) votes response else votes) := by
  have taken : (response.peerID ∈ (tallyOf config votes).countedPeers ∨
      normalizeBLSPub config response.pubKey ≠ "" ∧
        normalizeBLSPub config response.pubKey ∈ (tallyOf config votes).countedKeys) ↔
      votes.any (clash config response) = true := by
    simp only [tallyOf, clash, any_eq_true, mem_map, mem_filter, Bool.or_eq_true,
      Bool.and_eq_true, decide_eq_true_eq]
    grind
  unfold countVote counted
  dsimp only
  by_cases passed : countable config verifier blockHashHex height committee filterByMembership
      response = true <;> by_cases agrees : response.agree = true
  · simp only [passed, agrees, Bool.not_true, Bool.false_eq_true, if_false, Bool.and_self, if_true,
      taken, keep]
    split
    · rfl
    · simp only [tallyOf, map_cons, filter_cons, decide_eq_true_eq, length_cons]
  · simp [passed, agrees]
  · simp [passed]
  · simp [passed]

/-- The votes are counted by a selection without clashes. -/
theorem countEligibleYes_eq (responses : List BLSresponse) :
    countEligibleYes config verifier responses blockHashHex height committee filterByMembership =
      (select (clash config) (responses.filter
        (counted config verifier blockHashHex height committee filterByMembership))).length := by
  have general : ∀ (responses votes : List BLSresponse),
      responses.foldl (countVote config verifier blockHashHex height committee filterByMembership)
          (tallyOf config votes) =
        tallyOf config ((responses.filter (counted config verifier blockHashHex height committee
          filterByMembership)).foldl (keep (clash config)) votes) := by
    intro responses
    induction responses with
    | nil => exact fun votes => rfl
    | cons response rest ih =>
      intro votes
      rw [foldl_cons, countVote_tallyOf, ih, filter_cons]
      split <;> rfl
  exact congrArg VoteCount.yes (general responses [])

/-- A counted peer is a member whose bound key voted yes for this block. -/
theorem votedFor_of_countable (strict : config.rejectLegacyVotes = true)
    (keys : ∀ member ∈ committee, member.2 ≠ "") {response : BLSresponse}
    (listed : response ∈ responses) (agrees : response.agree = true)
    (passed : countable config verifier blockHashHex height committee true response = true) :
    (response.peerID, normalizeBLSPub config response.pubKey) ∈ committee ∧
      VotedFor config verifier responses blockHashHex height
        (response.peerID, normalizeBLSPub config response.pubKey) := by
  simp only [countable, agrees, strict, if_true, Bool.not_true, Bool.false_and, Bool.or_false,
    Bool.false_or, Bool.and_eq_true] at passed
  obtain ⟨verified, bound⟩ := passed
  split at bound
  · cases bound
  next boundKey found =>
  have inCommittee := mem_of_lookup found
  have matching : normalizeBLSPub config response.pubKey = boundKey := by
    have nonempty := keys _ inCommittee
    simpa [nonempty] using bound
  rw [matching]
  exact ⟨inCommittee, response, listed, agrees, rfl, matching, verified⟩

/-- The members that voted for a block: as many as were counted. -/
theorem exists_voters (verifier : VoteVerifier) (blockHashHex : String) (height : UInt64)
    (strict : config.rejectLegacyVotes = true)
    (keys : ∀ member ∈ committee, member.2 ≠ "") (responses : List BLSresponse) :
    ∃ voters : Finset (String × String), (∀ member ∈ voters, member ∈ committee ∧
        VotedFor config verifier responses blockHashHex height member) ∧
      countEligibleYes config verifier responses blockHashHex height committee true =
        voters.card := by
  let voter (response : BLSresponse) : String × String :=
    (response.peerID, normalizeBLSPub config response.pubKey)
  rw [countEligibleYes_eq]
  generalize chosen : select (clash config) _ = votes
  have selected := chosen ▸ selected_select (clash_self config) _
  refine ⟨(votes.map voter).toFinset, ?_, ?_⟩
  · intro member found
    obtain ⟨response, kept, rfl⟩ := mem_map.mp (mem_toFinset.mp found)
    obtain ⟨listed, passed⟩ := mem_filter.mp (selected.known response kept)
    rw [counted, Bool.and_eq_true] at passed
    exact votedFor_of_countable strict keys listed passed.2 passed.1
  · rw [toFinset_card_of_nodup, length_map]
    apply List.Pairwise.map _ _ selected.apart
    intro one other apart same
    simp [clash, (Prod.mk.inj same).1] at apart

end

theorem verifyCertificate_ok {verifier : VoteVerifier} {blockHashHex : String} {height : UInt64}
    {result : CertificateResult} (eligible : eligibleMembers config = .ok committee)
    (enforced : config.enforceCommitteeRegistry = true)
    (verified : verifyCertificate config verifier responses blockHashHex height = .ok result) :
    result.yesVotes =
        countEligibleYes config verifier responses blockHashHex height committee true ∧
      (result.reached = true → twoThirds committee.length ≤ result.yesVotes) := by
  have nonempty := (eligibleMembers_ok eligible).2
  have pos : 0 < committee.length := length_pos_iff.mpr nonempty
  rw [verifyCertificate, eligible, enforced] at verified
  cases verified
  refine ⟨rfl, fun reached => ?_⟩
  have quorum : byzantineQuorum committee.length = twoThirds committee.length := by
    rw [byzantineQuorum, if_neg (by omega), twoThirds]
  rw [← quorum]
  simpa using reached

/-- Two certificates over one committee at one height share more members than
the committee tolerates faults, and no count exceeds the committee. -/
theorem certificates_share_voters {config : CommitteeConfig} {committee : List (String × String)}
    (verifier : VoteVerifier) (eligible : eligibleMembers config = .ok committee)
    (keys : ∀ member ∈ committee, member.2 ≠ "")
    (enforced : config.enforceCommitteeRegistry = true)
    (strict : config.rejectLegacyVotes = true) (height : UInt64) :
    (∀ responses blockHashHex result,
      verifyCertificate config verifier responses blockHashHex height = .ok result →
      result.yesVotes ≤ committee.length) ∧
    ∀ first second firstHash secondHash one two,
      verifyCertificate config verifier first firstHash height = .ok one →
      verifyCertificate config verifier second secondHash height = .ok two →
      one.reached = true → two.reached = true →
      ∃ shared : Finset (String × String), (committee.length - 1) / 3 + 1 ≤ shared.card ∧
        ∀ member ∈ shared, member ∈ committee ∧
          VotedFor config verifier first firstHash height member ∧
          VotedFor config verifier second secondHash height member := by
  classical
  obtain ⟨distinct, nonempty⟩ := eligibleMembers_ok eligible
  have size : committee.toFinset.card = committee.length :=
    toFinset_card_of_nodup (List.Nodup.of_map _ distinct)
  have inside : ∀ {voters : Finset (String × String)}, (∀ member ∈ voters, member ∈ committee) →
      voters ⊆ committee.toFinset := fun all member found =>
    mem_toFinset.mpr (all member found)
  constructor
  · intro responses blockHashHex result verified
    obtain ⟨voters, facts, count⟩ := exists_voters verifier blockHashHex height strict keys
      responses
    rw [(verifyCertificate_ok eligible enforced verified).1, count, ← size]
    exact Finset.card_le_card (inside fun member found => (facts member found).1)
  · intro first second firstHash secondHash one two firstOk secondOk firstReached secondReached
    obtain ⟨firstVoters, firstFacts, firstCount⟩ := exists_voters verifier firstHash height
      strict keys first
    obtain ⟨secondVoters, secondFacts, secondCount⟩ := exists_voters verifier secondHash height
      strict keys second
    obtain ⟨firstYes, firstQuorum⟩ := verifyCertificate_ok eligible enforced firstOk
    obtain ⟨secondYes, secondQuorum⟩ := verifyCertificate_ok eligible enforced secondOk
    refine ⟨firstVoters ∩ secondVoters, ?_, fun member found => ?_⟩
    · rw [← size]
      apply tolerated_lt_card_inter
      · exact toFinset_nonempty_iff _ |>.mpr nonempty
      · exact inside fun member found => (firstFacts member found).1
      · exact inside fun member found => (secondFacts member found).1
      · rw [size, ← firstCount, ← firstYes]
        exact firstQuorum firstReached
      · rw [size, ← secondCount, ← secondYes]
        exact secondQuorum secondReached
    · obtain ⟨inFirst, inSecond⟩ := Finset.mem_inter.mp found
      exact ⟨(firstFacts member inFirst).1, (firstFacts member inFirst).2,
        (secondFacts member inSecond).2⟩

/-- Four buddies with bound keys. -/
def fourBuddies : CommitteeConfig :=
  { source := some (.ok [("a", "0xA1"), ("b", "B2"), ("c", "c3"), ("d", "d4")]) }

/-- Yes votes of three buddies, one of them sent twice in another case. -/
def threeVotes : List BLSresponse :=
  [⟨"", true, "a1", "a"⟩, ⟨"", true, "0xa1", "a"⟩, ⟨"", true, "b2", "b"⟩, ⟨"", true, "C3", "c"⟩]

/-- A verifier that accepts every block-bound vote. -/
def acceptingVerifier : VoteVerifier :=
  ⟨fun _ _ _ _ _ => true, fun _ _ => false⟩

theorem certificates_share_voters_of_four_buddies :
    ∃ shared : Finset (String × String), 2 ≤ shared.card ∧
      ∀ member ∈ shared, member ∈ [("d", "d4"), ("c", "c3"), ("b", "b2"), ("a", "a1")] ∧
        VotedFor fourBuddies acceptingVerifier threeVotes "x" 9 member ∧
        VotedFor fourBuddies acceptingVerifier threeVotes "y" 9 member := by
  have eligible : eligibleMembers fourBuddies =
      .ok [("d", "d4"), ("c", "c3"), ("b", "b2"), ("a", "a1")] := by
    decide +kernel
  exact (certificates_share_voters acceptingVerifier eligible (by decide) rfl rfl 9).2
    threeVotes threeVotes "x" "y" ⟨4, 3, 3, true⟩ ⟨4, 3, 3, true⟩ (by decide +kernel)
    (by decide +kernel) rfl rfl

end Jmdn.Messaging
