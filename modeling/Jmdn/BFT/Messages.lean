import Jmdn.Quorum.Intersection

/-!
# Messages of the buddy consensus

The message types, the signed payloads and the thresholds of `AVC/BFT/bft`.  Go
strings are byte strings; a decision is any byte string, of which two are
meaningful.
-/

namespace Jmdn.BFT

open List Quorum

abbrev Bytes := List UInt8

instance lawfulBEqBytes : LawfulBEq Bytes := inferInstance

/-- The bytes of a string constant of the source. -/
def bytes (text : String) : Bytes :=
  text.toList.map fun char => UInt8.ofNat char.toNat

/-- `Accept`. -/
def accept : Bytes := bytes "ACCEPT"

/-- `Reject`. -/
def reject : Bytes := bytes "REJECT"

structure BuddyInput where
  id : Bytes := []
  decision : Bytes := []
  publicKey : Bytes := []
  privateKey : Bytes := []
  deriving DecidableEq, Repr

variable {buddies : List BuddyInput}

structure PrepareMessage where
  version : Bytes := []
  seq : UInt64 := 0
  round : UInt64 := 0
  blockHash : Bytes := []
  buddyID : Bytes := []
  decision : Bytes := []
  timestamp : Int64 := 0
  signature : Bytes := []
  deriving DecidableEq, Repr

structure CommitMessage where
  version : Bytes := []
  seq : UInt64 := 0
  round : UInt64 := 0
  blockHash : Bytes := []
  buddyID : Bytes := []
  decision : Bytes := []
  prepareProof : List PrepareMessage := []
  timestamp : Int64 := 0
  signature : Bytes := []
  deriving DecidableEq, Repr

/-- The settings the engine reads. -/
structure Config where
  minBuddies : Int := 13
  requireSignatures : Bool := true
  maxProofSize : Int := 256
  deriving DecidableEq, Repr

/-- `PrepareVersionV1`. -/
def prepareVersionV1 : Bytes := bytes "PREPARE_V1"

/-- `CommitVersionV1`. -/
def commitVersionV1 : Bytes := bytes "COMMIT_V1"

/-! ## Payloads -/

/-- Eight bytes, most significant first. -/
def bigEndian (word : UInt64) : Bytes :=
  ([56, 48, 40, 32, 24, 16, 8, 0] : List UInt64).map fun shift => (word >>> shift).toUInt8

@[simp]
theorem length_bigEndian (word : UInt64) : (bigEndian word).length = 8 := by
  simp [bigEndian]

/-- Numbers that agree above a byte and in it agree from it on. -/
theorem div_eq_of_byte_eq {first second : Nat} (unit : Nat)
    (above : first / (unit * 256) = second / (unit * 256))
    (byte : first / unit % 256 = second / unit % 256) : first / unit = second / unit := by
  rw [← Nat.div_div_eq_div_mul, ← Nat.div_div_eq_div_mul] at above
  calc first / unit = 256 * (first / unit / 256) + first / unit % 256 :=
        (Nat.div_add_mod _ _).symm
    _ = 256 * (second / unit / 256) + second / unit % 256 := by rw [above, byte]
    _ = second / unit := Nat.div_add_mod _ _

theorem bigEndian_injective : Function.Injective bigEndian := by
  intro first second same
  have words : ∀ shift ∈ ([56, 48, 40, 32, 24, 16, 8, 0] : List UInt64),
      (first >>> shift).toUInt8 = (second >>> shift).toUInt8 :=
    map_inj_left.mp same
  have digits := fun shift listed => congrArg UInt8.toNat (words shift listed)
  simp [Nat.shiftRight_eq_div_pow] at digits
  obtain ⟨byte7, byte6, byte5, byte4, byte3, byte2, byte1, byte0⟩ := digits
  have above8 : first.toNat / 2 ^ 64 = second.toNat / 2 ^ 64 := by
    rw [Nat.div_eq_of_lt first.toNat_lt, Nat.div_eq_of_lt second.toNat_lt]
  have above7 := div_eq_of_byte_eq (2 ^ 56) above8 byte7
  have above6 := div_eq_of_byte_eq (2 ^ 48) above7 byte6
  have above5 := div_eq_of_byte_eq (2 ^ 40) above6 byte5
  have above4 := div_eq_of_byte_eq (2 ^ 32) above5 byte4
  have above3 := div_eq_of_byte_eq (2 ^ 24) above4 byte3
  have above2 := div_eq_of_byte_eq (2 ^ 16) above3 byte2
  have above1 := div_eq_of_byte_eq (2 ^ 8) above2 byte1
  have above0 := div_eq_of_byte_eq 1 above1 (by rwa [Nat.div_one, Nat.div_one])
  rw [Nat.div_one, Nat.div_one] at above0
  exact UInt64.toNat_inj.mp above0

/-- The bytes both digests hash.  They do not tell a PREPARE from a COMMIT, since
no receiver looks at the version. -/
def payload (version : Bytes) (seq round : UInt64) (blockHash buddyID decision : Bytes)
    (timestamp : Int64) : Bytes :=
  version ++ bigEndian seq ++ bigEndian round ++ blockHash ++ buddyID ++ decision ++
    bigEndian timestamp.toUInt64

def PrepareMessage.payload (msg : PrepareMessage) : Bytes :=
  BFT.payload msg.version msg.seq msg.round msg.blockHash msg.buddyID msg.decision msg.timestamp

def CommitMessage.payload (msg : CommitMessage) : Bytes :=
  BFT.payload msg.version msg.seq msg.round msg.blockHash msg.buddyID msg.decision msg.timestamp

/-- Two payloads for one buddy whose decisions and block hashes have one length
agree from the round on, wherever their other fields are cut. -/
theorem payload_inj {version version' blockHash blockHash' buddyID decision decision' : Bytes}
    {seq seq' round round' : UInt64} {timestamp timestamp' : Int64}
    (decisions : decision.length = decision'.length)
    (hashes : blockHash.length = blockHash'.length)
    (same : payload version seq round blockHash buddyID decision timestamp =
      payload version' seq' round' blockHash' buddyID decision' timestamp') :
    decision = decision' ∧ blockHash = blockHash' ∧ round = round' := by
  obtain ⟨same, -⟩ := append_inj' same (by simp)
  obtain ⟨same, sameDecision⟩ := append_inj' same decisions
  obtain ⟨same, -⟩ := append_inj' same rfl
  obtain ⟨same, sameHash⟩ := append_inj' same hashes
  obtain ⟨-, sameRound⟩ := append_inj' same (by simp)
  exact ⟨sameDecision, sameHash, bigEndian_injective sameRound⟩

/-! ## Thresholds -/

/-- `QuorumThreshold`. -/
def quorumThreshold (total : Nat) : Nat :=
  if total = 0 then 0 else (total * 2 + 3 - 1) / 3

/-- `BFTThreshold`. -/
def bftThreshold (buddyCount : Nat) : Nat :=
  if buddyCount = 0 then 0 else quorumThreshold buddyCount

/-- `ByzantineTolerance`. -/
def byzantineTolerance (buddyCount : Nat) : Nat :=
  if buddyCount = 0 then 0 else (buddyCount - 1) / 3

theorem bftThreshold_eq (buddyCount : Nat) : bftThreshold buddyCount = twoThirds buddyCount := by
  unfold bftThreshold quorumThreshold twoThirds
  split_ifs with zero
  · rw [zero]
  · omega

theorem byzantineTolerance_eq (buddyCount : Nat) :
    byzantineTolerance buddyCount = tolerated buddyCount := by
  unfold byzantineTolerance tolerated
  split_ifs with zero
  · rw [zero]
  · rfl

/-! ## Inputs -/

inductive InputError where
  | emptyBuddyID
  | insufficientBuddies (have_ need : Int)
  | buddyWithoutID (index : Nat)
  | duplicateBuddyID (id : Bytes)
  | invalidDecision (decision : Bytes)
  | missingPublicKey (id : Bytes)
  | missingPrivateKey
  deriving DecidableEq, Repr

/-- The loop of `validateInputs` over the buddies. -/
def validateBuddies (myBuddyID : Bytes) : Nat → List Bytes → List BuddyInput → Option InputError
  | _, _, [] => none
  | index, seen, buddy :: rest =>
    if buddy.id = [] then some (.buddyWithoutID index)
    else if buddy.id ∈ seen then some (.duplicateBuddyID buddy.id)
    else if buddy.decision ≠ accept ∧ buddy.decision ≠ reject then
      some (.invalidDecision buddy.decision)
    else if buddy.publicKey = [] then some (.missingPublicKey buddy.id)
    else if buddy.id = myBuddyID ∧ buddy.privateKey = [] then some .missingPrivateKey
    else validateBuddies myBuddyID (index + 1) (buddy.id :: seen) rest

/-- `validateInputs`. -/
def validateInputs (config : Config) (myBuddyID : Bytes) (buddies : List BuddyInput) :
    Option InputError :=
  if myBuddyID = [] then some .emptyBuddyID
  else if (buddies.length : Int) < config.minBuddies then
    some (.insufficientBuddies buddies.length config.minBuddies)
  else validateBuddies myBuddyID 0 [] buddies

/-- The entry of a buddy in `buddyMap`: a later entry replaces an earlier one. -/
def buddyOf (buddies : List BuddyInput) (id : Bytes) : Option BuddyInput :=
  buddies.reverse.find? fun buddy => buddy.id = id

theorem buddyOf_eq_some {id : Bytes} {buddy : BuddyInput} (found : buddyOf buddies id = some buddy) :
    buddy ∈ buddies ∧ buddy.id = id :=
  ⟨mem_reverse.mp (mem_of_find?_eq_some found), by
    simpa using List.find?_some found⟩

/-- Validated buddies have distinct names and one of the two decisions. -/
theorem validateBuddies_eq_none {myBuddyID : Bytes} {index : Nat} {seen : List Bytes}
    (valid : validateBuddies myBuddyID index seen buddies = none) :
    (buddies.map BuddyInput.id).Nodup ∧ (∀ buddy ∈ buddies, buddy.id ∉ seen) ∧
      ∀ buddy ∈ buddies, buddy.decision = accept ∨ buddy.decision = reject := by
  induction buddies generalizing index seen with
  | nil => simp
  | cons buddy rest ih =>
    unfold validateBuddies at valid
    split_ifs at valid with blank duplicate invalid noKey noSecret
    obtain ⟨nodup, fresh, decided⟩ := ih valid
    refine ⟨?_, ?_, ?_⟩
    · rw [map_cons, nodup_cons]
      refine ⟨fun mem => ?_, nodup⟩
      obtain ⟨other, listed, same⟩ := mem_map.mp mem
      exact fresh other listed (same ▸ mem_cons_self)
    · rw [forall_mem_cons]
      exact ⟨duplicate, fun other listed seen =>
        fresh other listed (mem_cons_of_mem _ seen)⟩
    · rw [forall_mem_cons]
      exact ⟨by_contra fun neither => invalid (not_or.mp neither), decided⟩

end Jmdn.BFT
