import Jmdn.BFT.Rejection

/-!
# What a digest tells apart

`DigestPrepare` and `DigestCommit` hash four strings and three numbers one after
another, with no length before a string and no tag for the kind of the message.
Messages whose strings have the same lengths can be told apart by their digests;
for other lengths with the same sum there are messages that cannot.  The version,
which could serve as the tag, is not looked at by a receiver, so every COMMIT the
engine accepts has a PREPARE with the same digest that it accepts as well.
-/

namespace Jmdn.BFT

open List

variable {engine : Engine} {now : Int} {msg : CommitMessage} {id : Bytes}

/-- The fields both digests cover. -/
structure SignedFields where
  version : Bytes
  seq : UInt64
  round : UInt64
  blockHash : Bytes
  buddyID : Bytes
  decision : Bytes
  timestamp : Int64
  deriving DecidableEq, Repr

namespace SignedFields

def payload (fields : SignedFields) : Bytes :=
  BFT.payload fields.version fields.seq fields.round fields.blockHash fields.buddyID
    fields.decision fields.timestamp

end SignedFields

def PrepareMessage.signedFields (msg : PrepareMessage) : SignedFields :=
  ⟨msg.version, msg.seq, msg.round, msg.blockHash, msg.buddyID, msg.decision, msg.timestamp⟩

def CommitMessage.signedFields (msg : CommitMessage) : SignedFields :=
  ⟨msg.version, msg.seq, msg.round, msg.blockHash, msg.buddyID, msg.decision, msg.timestamp⟩

section

variable {δ : Type} (signatures : Signatures δ)

/-- `DigestPrepare`. -/
def digestPrepare (msg : PrepareMessage) : δ :=
  signatures.sha256 msg.payload

/-- `DigestCommit`. -/
def digestCommit (msg : CommitMessage) : δ :=
  signatures.sha256 msg.payload

end

/-! ## Lengths -/

structure Lengths where
  version : Nat
  blockHash : Nat
  buddyID : Nat
  decision : Nat
  deriving DecidableEq, Repr

def Lengths.total (lengths : Lengths) : Nat :=
  lengths.version + lengths.blockHash + lengths.buddyID + lengths.decision

def SignedFields.lengths (fields : SignedFields) : Lengths :=
  ⟨fields.version.length, fields.blockHash.length, fields.buddyID.length, fields.decision.length⟩

theorem length_payload (fields : SignedFields) :
    fields.payload.length = fields.lengths.total + 24 := by
  simp only [SignedFields.payload, payload, SignedFields.lengths, Lengths.total,
    length_append, length_bigEndian]
  omega

/-- Fields with strings of the same lengths are read back from the payload. -/
theorem SignedFields.eq_of_payload_eq {first second : SignedFields}
    (lengths : first.lengths = second.lengths) (same : first.payload = second.payload) :
    first = second := by
  obtain ⟨versions, hashes, ids, decisions⟩ := Lengths.mk.inj lengths
  obtain ⟨same, timestamp⟩ := append_inj' same (by simp)
  obtain ⟨same, decision⟩ := append_inj' same decisions
  obtain ⟨same, buddyID⟩ := append_inj' same ids
  obtain ⟨same, blockHash⟩ := append_inj' same hashes
  obtain ⟨same, round⟩ := append_inj' same (by simp)
  obtain ⟨version, seq⟩ := append_inj' same (by simp)
  cases first
  cases second
  simp only [SignedFields.mk.injEq]
  exact ⟨version, bigEndian_injective seq, bigEndian_injective round, blockHash, buddyID, decision,
    congrArg UInt64.toInt64 (bigEndian_injective timestamp)⟩

/-- Fields of given lengths, all zero. -/
def zeroFields (lengths : Lengths) : SignedFields where
  version := List.replicate lengths.version 0
  seq := 0
  round := 0
  blockHash := List.replicate lengths.blockHash 0
  buddyID := List.replicate lengths.buddyID 0
  decision := List.replicate lengths.decision 0
  timestamp := 0

@[simp]
theorem lengths_zeroFields (lengths : Lengths) : (zeroFields lengths).lengths = lengths := by
  simp [zeroFields, SignedFields.lengths]

/-- Wherever it is cut, a payload of zeros is a payload of zeros. -/
theorem payload_zeroFields (lengths : Lengths) :
    (zeroFields lengths).payload = List.replicate (lengths.total + 24) 0 := by
  have zeros : bigEndian 0 = List.replicate 8 0 := by decide
  have timestamp : bigEndian (0 : Int64).toUInt64 = List.replicate 8 0 := by decide
  simp only [SignedFields.payload, zeroFields, payload, zeros, timestamp,
    replicate_append_replicate, Lengths.total]
  congr 1
  omega

/-- Payloads of two families of lengths determine the fields exactly when the
lengths are the same or differ in their sum. -/
theorem fields_determined_iff (lengths lengths' : Lengths) :
    (∀ first second : SignedFields, first.lengths = lengths → second.lengths = lengths' →
      first.payload = second.payload → first = second) ↔
      lengths = lengths' ∨ lengths.total ≠ lengths'.total := by
  constructor
  · intro determined
    by_contra neither
    obtain ⟨differ, sameTotal⟩ := not_or.mp neither
    rw [not_not] at sameTotal
    have collision : (zeroFields lengths).payload = (zeroFields lengths').payload := by
      rw [payload_zeroFields, payload_zeroFields, sameTotal]
    have same := determined _ _ (lengths_zeroFields _) (lengths_zeroFields _) collision
    exact differ (by simpa using congrArg SignedFields.lengths same)
  · rintro (rfl | differ) first second isFirst isSecond same
    · exact SignedFields.eq_of_payload_eq (isFirst.trans isSecond.symm) same
    · have sums := congrArg List.length same
      rw [length_payload, length_payload, isFirst, isSecond, Nat.add_right_cancel_iff] at sums
      exact absurd sums differ

/-- The versions the engine writes itself keep a PREPARE and a COMMIT apart. -/
theorem own_versions_separate {prepare commit : SignedFields}
    (isPrepare : prepare.version = prepareVersionV1) (isCommit : commit.version = commitVersionV1) :
    prepare.payload ≠ commit.payload := by
  intro same
  have first := congrArg List.head? same
  simp [SignedFields.payload, payload, isPrepare, isCommit, prepareVersionV1, commitVersionV1,
    bytes] at first

section

variable {δ : Type} {signatures : Signatures δ}

/-- The same for the digests of a kind of message that carries the fields. -/
theorem digests_determined_iff (collisionFree : Function.Injective signatures.sha256) {α : Type}
    {fields : α → SignedFields} (every : Function.Surjective fields) {digest : α → δ}
    (digested : ∀ msg, digest msg = signatures.sha256 (fields msg).payload)
    (lengths lengths' : Lengths) :
    (∀ first second : α, (fields first).lengths = lengths → (fields second).lengths = lengths' →
      digest first = digest second → fields first = fields second) ↔
      lengths = lengths' ∨ lengths.total ≠ lengths'.total := by
  rw [← fields_determined_iff, every.forall₂]
  simp only [digested, collisionFree.eq_iff]

theorem digestPrepare_eq (msg : PrepareMessage) :
    digestPrepare signatures msg = signatures.sha256 msg.signedFields.payload := rfl

theorem digestCommit_eq (msg : CommitMessage) :
    digestCommit signatures msg = signatures.sha256 msg.signedFields.payload := rfl

theorem signedFields_prepare_surjective : Function.Surjective PrepareMessage.signedFields :=
  fun fields => ⟨⟨fields.version, fields.seq, fields.round, fields.blockHash, fields.buddyID,
    fields.decision, fields.timestamp, []⟩, rfl⟩

theorem signedFields_commit_surjective : Function.Surjective CommitMessage.signedFields :=
  fun fields => ⟨⟨fields.version, fields.seq, fields.round, fields.blockHash, fields.buddyID,
    fields.decision, [], fields.timestamp, []⟩, rfl⟩

end

/-! ## Engines that can accept a COMMIT -/

section

variable {δ : Type} {signatures : Signatures δ} {setup : Setup δ}

variable (setup) in
/-- The engine can still accept a COMMIT: some buddy has a sequence number left,
and a threshold of buddies fits into a proof. -/
structure CanCommit (engine : Engine) : Prop where
  number : ∃ buddy ∈ setup.buddies, engine.lastSeqSeen buddy.id < 18446744073709551615
  buddies : setup.threshold ≤ (setup.buddies.map BuddyInput.id).dedup.length
  proofSize : (setup.threshold : Int) ≤ setup.config.maxProofSize

/-- At every time some timestamp is fresh: the time itself, or one second if that
is the zero the engine refuses. -/
theorem exists_fresh (now : Int) : ∃ timestamp, isTimestampFresh now timestamp = true := by
  by_cases zero : unixSeconds now = 0
  · exact ⟨1, by rw [isTimestampFresh, zero]; decide⟩
  · exact ⟨unixSeconds now, by simp [isTimestampFresh, zero]⟩

theorem buddyOf_isSome_iff {buddies : List BuddyInput} :
    (buddyOf buddies id).isSome ↔ id ∈ buddies.map BuddyInput.id := by
  simp [buddyOf]

section

variable (signable : Signable signatures setup)
include signable

/-- A buddy signs any payload. -/
theorem Signable.authentic (known : id ∈ setup.buddies.map BuddyInput.id) (payload : Bytes) :
    ∃ signature, Authentic signatures setup id payload signature := by
  obtain ⟨buddy, found⟩ := Option.isSome_iff_exists.mp (buddyOf_isSome_iff.mpr known)
  obtain ⟨signature, present, verified⟩ := signable id buddy found (signatures.sha256 payload)
  exact ⟨signature, buddy, found, fun _ => ⟨present, verified⟩⟩

/-- A proof of votes for a decision from given buddies passes. -/
theorem exists_votes {timestamp : Int64} (fresh : isTimestampFresh now timestamp = true)
    (decision : Bytes) (ids : List Bytes) (known : ∀ id ∈ ids, id ∈ setup.buddies.map BuddyInput.id) :
    ∃ votes : List PrepareMessage, votes.map PrepareMessage.buddyID = ids ∧
      (∀ vote ∈ votes, Checked signatures setup now vote) ∧
      votes.countP (fun vote => vote.decision = decision) = ids.length := by
  induction ids with
  | nil => exact ⟨[], rfl, by simp, rfl⟩
  | cons id rest ih =>
    obtain ⟨isKnown, others⟩ := forall_mem_cons.mp known
    obtain ⟨votes, voters, checked, counted⟩ := ih others
    let vote : PrepareMessage := { buddyID := id, decision, timestamp }
    obtain ⟨signature, authentic⟩ := signable.authentic isKnown vote.payload
    refine ⟨{ vote with signature } :: votes, by rw [map_cons, voters], ?_, ?_⟩
    · exact forall_mem_cons.mpr ⟨⟨fresh, authentic⟩, checked⟩
    · rw [countP_cons_of_pos (by simp [vote]), counted, length_cons]

/-- With signers for all buddies, there is a COMMIT for an engine that can accept
one: of the buddy that has a number left, on votes of a threshold of buddies. -/
theorem CanCommit.exists_accepted (now : Int) (can : CanCommit setup engine) :
    ∃ msg, (validateCommit signatures setup now engine msg).1 = none := by
  obtain ⟨⟨buddy, listed, left⟩, enough, fits⟩ := can
  obtain ⟨timestamp, fresh⟩ := exists_fresh now
  have known : buddy.id ∈ setup.buddies.map BuddyInput.id := mem_map_of_mem listed
  let ids := (setup.buddies.map BuddyInput.id).dedup.take setup.threshold
  have length : ids.length = setup.threshold := by simp [ids, enough]
  obtain ⟨votes, voters, checked, counted⟩ := exists_votes signable fresh accept ids
    fun id mem => mem_dedup.mp (mem_of_mem_take mem)
  have size : votes.length = setup.threshold := by
    rw [← length, ← voters, length_map]
  let msg : CommitMessage :=
    { seq := 18446744073709551615, round := setup.round, blockHash := setup.blockHash
      buddyID := buddy.id, decision := accept, prepareProof := votes, timestamp }
  obtain ⟨signature, authentic⟩ := signable.authentic known msg.payload
  refine ⟨{ msg with signature }, validateCommit_eq_none_iff.mpr ⟨?_, authentic, ?_⟩⟩
  · exact ⟨authentic.isSome, rfl, rfl, decide_eq_true (size ▸ fits), fresh, left⟩
  · refine checkSupport_eq_none_iff.mpr ⟨?_, checked, (length.symm.trans counted.symm).le⟩
    rw [voters]
    exact (nodup_dedup _).sublist (take_sublist _ _)

end

/-- An accepted COMMIT took a number and the votes of enough buddies. -/
theorem canCommit_of_accepted (accepted : (validateCommit signatures setup now engine msg).1 = none) :
    CanCommit setup engine := by
  obtain ⟨noted, -, supported⟩ := validateCommit_eq_none_iff.mp accepted
  obtain ⟨nodup, checked, enough⟩ := checkSupport_eq_none_iff.mp supported
  obtain ⟨buddy, listed, named⟩ := mem_map.mp (buddyOf_isSome_iff.mp noted.known)
  have voters : setup.threshold ≤ msg.prepareProof.length := enough.trans countP_le_length
  refine ⟨⟨buddy, listed, ?_⟩, ?_, ?_⟩
  · have newer : engine.lastSeqSeen msg.buddyID < msg.seq := noted.seq
    have bound := msg.seq.toNat_lt
    rw [show buddy.id = msg.buddyID from named]
    exact UInt64.lt_of_lt_of_le newer (UInt64.le_iff_toNat_le.mpr (Nat.le_pred_of_lt bound))
  · have distinct : msg.prepareProof.map PrepareMessage.buddyID ⊆
        (setup.buddies.map BuddyInput.id).dedup := by
      intro id mem
      obtain ⟨vote, isListed, rfl⟩ := mem_map.mp mem
      exact mem_dedup.mpr (buddyOf_isSome_iff.mp (checked vote isListed).authentic.isSome)
    have fewer := (nodup.subperm distinct).length_le
    rw [length_map] at fewer
    exact voters.trans fewer
  · have fits : (msg.prepareProof.length : Int) ≤ setup.config.maxProofSize :=
      of_decide_eq_true noted.proofSize
    omega

/-- The PREPARE with the signed fields and the signature of a COMMIT. -/
def CommitMessage.asPrepare (msg : CommitMessage) : PrepareMessage where
  version := msg.version
  seq := msg.seq
  round := msg.round
  blockHash := msg.blockHash
  buddyID := msg.buddyID
  decision := msg.decision
  timestamp := msg.timestamp
  signature := msg.signature

/-- What is accepted as a COMMIT is accepted as a PREPARE. -/
theorem asPrepare_accepted (accepted : (validateCommit signatures setup now engine msg).1 = none) :
    (validatePrepare signatures setup now engine msg.asPrepare).1 = none := by
  obtain ⟨noted, authentic, -⟩ := validateCommit_eq_none_iff.mp accepted
  exact validatePrepare_eq_none_iff.mpr ⟨{ noted with proofSize := rfl }, authentic⟩

/-- No PREPARE the engine accepts has the digest of a COMMIT it accepts exactly
when it can accept no COMMIT. -/
theorem phases_separate_iff (signable : Signable signatures setup) (now : Int) (engine : Engine) :
    (∀ prepare commit, (validatePrepare signatures setup now engine prepare).1 = none →
      (validateCommit signatures setup now engine commit).1 = none →
      digestPrepare signatures prepare ≠ digestCommit signatures commit) ↔
      ¬CanCommit setup engine := by
  constructor
  · intro separate can
    obtain ⟨commit, accepted⟩ := can.exists_accepted signable now
    exact separate commit.asPrepare commit (asPrepare_accepted accepted) accepted rfl
  · intro never prepare commit _ accepted
    exact absurd (canCommit_of_accepted accepted) never

/-- The digests of PREPAREs, those of COMMITs and the two kinds are told apart
exactly when the lengths of the strings are the same or differ in their sum, and
the engine can accept no COMMIT. -/
theorem digests_separate_iff (collisionFree : Function.Injective signatures.sha256)
    (signable : Signable signatures setup) (now : Int) (engine : Engine)
    (lengths lengths' : Lengths) :
    ((∀ first second : PrepareMessage, first.signedFields.lengths = lengths →
        second.signedFields.lengths = lengths' →
        digestPrepare signatures first = digestPrepare signatures second →
        first.signedFields = second.signedFields) ∧
      (∀ first second : CommitMessage, first.signedFields.lengths = lengths →
        second.signedFields.lengths = lengths' →
        digestCommit signatures first = digestCommit signatures second →
        first.signedFields = second.signedFields) ∧
      ∀ prepare commit, (validatePrepare signatures setup now engine prepare).1 = none →
        (validateCommit signatures setup now engine commit).1 = none →
        digestPrepare signatures prepare ≠ digestCommit signatures commit) ↔
      (lengths = lengths' ∨ lengths.total ≠ lengths'.total) ∧ ¬CanCommit setup engine := by
  rw [digests_determined_iff collisionFree signedFields_prepare_surjective digestPrepare_eq,
    digests_determined_iff collisionFree signedFields_commit_surjective digestCommit_eq,
    phases_separate_iff signable now engine, and_self_left]

end

/-! ## Four buddies -/

/-- The engine of the first buddy after every number is used up. -/
def exhausted : Engine where
  lastSeqSeen := fun _ => 18446744073709551615

/-- PREPAREs with strings of the usual lengths are told apart. -/
theorem usual_lengths_separate :
    ¬CanCommit quadSetup exhausted ∧
      ∀ first second : PrepareMessage, first.signedFields.lengths = ⟨10, 64, 52, 6⟩ →
        second.signedFields.lengths = ⟨10, 64, 52, 6⟩ →
        digestPrepare quad.signatures first = digestPrepare quad.signatures second →
        first.signedFields = second.signedFields := by
  have done : ¬CanCommit quadSetup exhausted := by
    rintro ⟨⟨buddy, -, left⟩, -, -⟩
    exact UInt64.lt_irrefl _ left
  exact ⟨done, ((digests_separate_iff Function.injective_id signable_quad 0 exhausted _ _).mpr
    ⟨.inl rfl, done⟩).1⟩

/-- A message of the buddy "c" for the block "ab" has the digest of one of the
buddy "bc" for the block "a", and the signed COMMIT of a buddy is accepted as its
PREPARE. -/
theorem digests_collide :
    (∃ first second : PrepareMessage, first.signedFields ≠ second.signedFields ∧
        digestPrepare quad.signatures first = digestPrepare quad.signatures second) ∧
      (∃ first second : CommitMessage, first.signedFields ≠ second.signedFields ∧
        digestCommit quad.signatures first = digestCommit quad.signatures second) ∧
      (validateCommit quad.signatures quadSetup 100000000000 {} (quadCommit 2)).1 = none ∧
      (validatePrepare quad.signatures quadSetup 100000000000 {}
        (quadCommit 2).asPrepare).1 = none ∧
      digestPrepare quad.signatures (quadCommit 2).asPrepare =
        digestCommit quad.signatures (quadCommit 2) := by
  refine ⟨⟨{ blockHash := bytes "ab", buddyID := bytes "c" },
    { blockHash := bytes "a", buddyID := bytes "bc" }, by decide, by decide⟩,
    ⟨{ blockHash := bytes "ab", buddyID := bytes "c" },
    { blockHash := bytes "a", buddyID := bytes "bc" }, by decide, by decide⟩,
    by decide, by decide, rfl⟩

end Jmdn.BFT
