import Jmdn.BFT.Engine

/-!
# The validation of messages

`validatePrepare` and `validateCommit`, and the votes they ask for.  Both note
the sequence number of a message before they look at its signature: a message
refused by an earlier check leaves the engine as it was, any other one has used
up its number.
-/

namespace Jmdn.BFT

open List

variable {decision id signature payload : Bytes} {engine : Engine} {seen : List Bytes}
  {supporting before : Nat}

inductive ValidationError where
  | unknownBuddy
  | wrongRoundOrBlock
  | proofTooLarge
  | staleTimestamp
  | replay
  | missingSignature
  | invalidSignature
  | duplicateInProof
  | unknownBuddyInProof (id : Bytes)
  | stalePrepareInProof (id : Bytes)
  | missingSignatureInProof (id : Bytes)
  | invalidSignatureInProof (id : Bytes)
  | insufficientSupport
  deriving DecidableEq, Repr

section

variable {δ : Type} (signatures : Signatures δ) (setup : Setup δ) (now : Int)

/-- `validatePrepare`.  The sequence number is noted before the signature is
looked at. -/
def validatePrepare (engine : Engine) (msg : PrepareMessage) :
    Option ValidationError × Engine :=
  match buddyOf setup.buddies msg.buddyID with
  | none => (some .unknownBuddy, engine)
  | some buddy =>
    if msg.round ≠ setup.round ∨ msg.blockHash ≠ setup.blockHash then
      (some .wrongRoundOrBlock, engine)
    else if !isTimestampFresh now msg.timestamp then (some .staleTimestamp, engine)
    else
      match engine.checkAndMarkSeq msg.buddyID msg.seq with
      | none => (some .replay, engine)
      | some noted =>
        if setup.config.requireSignatures then
          if msg.signature = [] then (some .missingSignature, noted)
          else if !signatures.verify buddy.publicKey (signatures.sha256 msg.payload)
              msg.signature then
            (some .invalidSignature, noted)
          else (none, noted)
        else (none, noted)

/-- The loop of `validateCommit` over the proof: the number of supporting
votes. -/
def checkProof (decision : Bytes) :
    List PrepareMessage → List Bytes → Nat → Except ValidationError Nat
  | [], _, supporting => .ok supporting
  | prepare :: rest, seen, supporting =>
    if prepare.buddyID ∈ seen then .error .duplicateInProof
    else
      match buddyOf setup.buddies prepare.buddyID with
      | none => .error (.unknownBuddyInProof prepare.buddyID)
      | some buddy =>
        if !isTimestampFresh now prepare.timestamp then
          .error (.stalePrepareInProof prepare.buddyID)
        else if setup.config.requireSignatures ∧ prepare.signature = [] then
          .error (.missingSignatureInProof prepare.buddyID)
        else if setup.config.requireSignatures ∧
            !signatures.verify buddy.publicKey (signatures.sha256 prepare.payload)
              prepare.signature then
          .error (.invalidSignatureInProof prepare.buddyID)
        else
          checkProof decision rest (prepare.buddyID :: seen)
            (if prepare.decision = decision then supporting + 1 else supporting)

/-- The end of `validateCommit`, after the message itself was checked. -/
def checkSupport (msg : CommitMessage) : Option ValidationError :=
  match checkProof signatures setup now msg.decision msg.prepareProof [] 0 with
  | .error cause => some cause
  | .ok supporting => if supporting < setup.threshold then some .insufficientSupport else none

/-- `validateCommit`. -/
def validateCommit (engine : Engine) (msg : CommitMessage) : Option ValidationError × Engine :=
  match buddyOf setup.buddies msg.buddyID with
  | none => (some .unknownBuddy, engine)
  | some buddy =>
    if msg.round ≠ setup.round ∨ msg.blockHash ≠ setup.blockHash then
      (some .wrongRoundOrBlock, engine)
    else if (msg.prepareProof.length : Int) > setup.config.maxProofSize then
      (some .proofTooLarge, engine)
    else if !isTimestampFresh now msg.timestamp then (some .staleTimestamp, engine)
    else
      match engine.checkAndMarkSeq msg.buddyID msg.seq with
      | none => (some .replay, engine)
      | some noted =>
        if setup.config.requireSignatures ∧ msg.signature = [] then
          (some .missingSignature, noted)
        else if setup.config.requireSignatures ∧
            !signatures.verify buddy.publicKey (signatures.sha256 msg.payload) msg.signature then
          (some .invalidSignature, noted)
        else (checkSupport signatures setup now msg, noted)

/-- `detectConflicts`: the buddies whose vote in the proof is not the one held. -/
def detectConflicts (commit : CommitMessage) (ours : List PrepareMessage) : List Bytes :=
  (commit.prepareProof.filter fun proofPrepare =>
    (ours.find? fun prepare => prepare.buddyID = proofPrepare.buddyID).any fun ourPrepare =>
      ourPrepare.decision ≠ proofPrepare.decision || ourPrepare.round ≠ proofPrepare.round ||
        ourPrepare.blockHash ≠ proofPrepare.blockHash).map PrepareMessage.buddyID

variable {signatures setup now}

variable (signatures setup) in
/-- A signature that passes for a payload in the name of a buddy. -/
def Authentic (id payload signature : Bytes) : Prop :=
  ∃ buddy, buddyOf setup.buddies id = some buddy ∧
    (setup.config.requireSignatures = true → signature ≠ [] ∧
      signatures.verify buddy.publicKey (signatures.sha256 payload) signature = true)

theorem Authentic.isSome (authentic : Authentic signatures setup id payload signature) :
    (buddyOf setup.buddies id).isSome := by
  obtain ⟨buddy, found, -⟩ := authentic
  rw [found]
  rfl

theorem authentic_iff {buddy : BuddyInput} (found : buddyOf setup.buddies id = some buddy) :
    Authentic signatures setup id payload signature ↔
      (setup.config.requireSignatures = true → signature ≠ [] ∧
        signatures.verify buddy.publicKey (signatures.sha256 payload) signature = true) := by
  unfold Authentic
  simp only [found, Option.some.injEq, exists_eq_left']

variable (signatures setup now) in
/-- What the loop of `validateCommit` asks of one vote of the proof. -/
structure Checked (prepare : PrepareMessage) : Prop where
  fresh : isTimestampFresh now prepare.timestamp = true
  authentic : Authentic signatures setup prepare.buddyID prepare.payload prepare.signature

theorem checkProof_cons_eq_ok_iff {prepare : PrepareMessage} {rest : List PrepareMessage} :
    checkProof signatures setup now decision (prepare :: rest) seen before = .ok supporting ↔
      prepare.buddyID ∉ seen ∧ Checked signatures setup now prepare ∧
        checkProof signatures setup now decision rest (prepare.buddyID :: seen)
          (if prepare.decision = decision then before + 1 else before) = .ok supporting := by
  rw [checkProof]
  by_cases repeated : prepare.buddyID ∈ seen
  · simp [repeated]
  rw [if_neg repeated]
  cases found : buddyOf setup.buddies prepare.buddyID with
  | none =>
    have unknown : ¬Checked signatures setup now prepare := fun checked => by
      simpa [found] using checked.authentic.isSome
    simp [unknown]
  | some buddy =>
    have meaning : Checked signatures setup now prepare ↔
        isTimestampFresh now prepare.timestamp = true ∧ _ :=
      ⟨fun checked => ⟨checked.fresh, (authentic_iff found).mp checked.authentic⟩,
        fun facts => ⟨facts.1, (authentic_iff found).mpr facts.2⟩⟩
    rw [meaning]
    dsimp only
    split_ifs <;> simp_all

/-- The votes of a proof that passes are checked, and from distinct buddies. -/
theorem checkProof_eq_ok_iff {proof : List PrepareMessage} :
    checkProof signatures setup now decision proof seen before = .ok supporting ↔
      (proof.map PrepareMessage.buddyID).Nodup ∧ (∀ prepare ∈ proof, prepare.buddyID ∉ seen) ∧
        (∀ prepare ∈ proof, Checked signatures setup now prepare) ∧
        supporting = before + proof.countP fun prepare => prepare.decision = decision := by
  induction proof generalizing seen before with
  | nil => simp [checkProof, eq_comm]
  | cons prepare rest ih =>
    have counted : (if prepare.decision = decision then before + 1 else before) +
          rest.countP (fun prepare => prepare.decision = decision) =
        before + (prepare :: rest).countP fun prepare => prepare.decision = decision := by
      rw [countP_cons]
      by_cases same : prepare.decision = decision
      · simp only [same, if_true, decide_true]
        omega
      · simp only [same, if_false, decide_false, Bool.false_eq_true]
        omega
    have apart : (prepare.buddyID ∉ rest.map PrepareMessage.buddyID ∧
          ∀ other ∈ rest, other.buddyID ∉ seen) ↔
        ∀ other ∈ rest, other.buddyID ∉ prepare.buddyID :: seen := by
      simp only [mem_map, not_exists, not_and, mem_cons, not_or]
      exact ⟨fun facts other listed => ⟨facts.1 other listed, facts.2 other listed⟩,
        fun facts => ⟨fun other listed => (facts other listed).1,
          fun other listed => (facts other listed).2⟩⟩
    rw [checkProof_cons_eq_ok_iff, ih, counted, ← apart, map_cons, nodup_cons,
      forall_mem_cons, forall_mem_cons]
    tauto

theorem checkSupport_eq_none_iff {msg : CommitMessage} :
    checkSupport signatures setup now msg = none ↔
      (msg.prepareProof.map PrepareMessage.buddyID).Nodup ∧
        (∀ prepare ∈ msg.prepareProof, Checked signatures setup now prepare) ∧
        setup.threshold ≤
          msg.prepareProof.countP fun prepare => prepare.decision = msg.decision := by
  unfold checkSupport
  constructor
  · intro passed
    split at passed
    · cases passed
    next supporting counted =>
    split_ifs at passed with few
    obtain ⟨nodup, -, checked, count⟩ := checkProof_eq_ok_iff.mp counted
    exact ⟨nodup, checked, by omega⟩
  · rintro ⟨nodup, checked, enough⟩
    rw [checkProof_eq_ok_iff.mpr ⟨nodup, by simp, checked, rfl⟩]
    exact if_neg (by omega)

/-- A proof without conflicts has the decisions of the votes held. -/
theorem decision_eq_of_detectConflicts {commit : CommitMessage} {ours : List PrepareMessage}
    (nodup : (ours.map PrepareMessage.buddyID).Nodup) (clean : detectConflicts commit ours = [])
    {held listed : PrepareMessage} (isHeld : held ∈ ours) (isListed : listed ∈ commit.prepareProof)
    (sameBuddy : held.buddyID = listed.buddyID) : held.decision = listed.decision := by
  have found : ours.find? (fun prepare => prepare.buddyID = listed.buddyID) = some held := by
    cases result : ours.find? fun prepare => prepare.buddyID = listed.buddyID with
    | none => exact absurd sameBuddy (by simpa using List.find?_eq_none.mp result held isHeld)
    | some other =>
      have same : other.buddyID = listed.buddyID := by simpa using List.find?_some result
      rw [inj_on_of_nodup_map nodup (mem_of_find?_eq_some result) isHeld
        (same.trans sameBuddy.symm)]
  have silent := filter_eq_nil_iff.mp (map_eq_nil_iff.mp clean) listed isListed
  by_contra differ
  simp [found, differ] at silent

end

/-! ## Noted messages -/

/-- What an engine receives. -/
inductive Message where
  | prepare (msg : PrepareMessage)
  | commit (msg : CommitMessage)

namespace Message

def buddyID : Message → Bytes
  | .prepare msg => msg.buddyID
  | .commit msg => msg.buddyID

def seq : Message → UInt64
  | .prepare msg => msg.seq
  | .commit msg => msg.seq

def round : Message → UInt64
  | .prepare msg => msg.round
  | .commit msg => msg.round

def blockHash : Message → Bytes
  | .prepare msg => msg.blockHash
  | .commit msg => msg.blockHash

def timestamp : Message → Int64
  | .prepare msg => msg.timestamp
  | .commit msg => msg.timestamp

/-- A PREPARE carries no proof, so its size is never checked. -/
def fitsProofSize (config : Config) : Message → Bool
  | .prepare _ => true
  | .commit msg => (msg.prepareProof.length : Int) ≤ config.maxProofSize

end Message

section

variable {δ : Type} (signatures : Signatures δ) (setup : Setup δ)

def validate (now : Int) (engine : Engine) : Message → Option ValidationError × Engine
  | .prepare msg => validatePrepare signatures setup now engine msg
  | .commit msg => validateCommit signatures setup now engine msg

/-- The checks that come before the sequence number is noted, and the check of
the number. -/
structure Message.Noted (now : Int) (engine : Engine) (message : Message) : Prop where
  known : (buddyOf setup.buddies message.buddyID).isSome
  round : message.round = setup.round
  blockHash : message.blockHash = setup.blockHash
  proofSize : message.fitsProofSize setup.config = true
  fresh : isTimestampFresh now message.timestamp = true
  seq : engine.lastSeqSeen message.buddyID < message.seq

variable {signatures setup} {now : Int} {msg : PrepareMessage} {buddy : BuddyInput}

/-- The number of a noted message is used up. -/
def Engine.note (engine : Engine) (message : Message) : Engine :=
  { engine with
    lastSeqSeen := Function.update engine.lastSeqSeen message.buddyID message.seq }

@[simp]
theorem lastSeqSeen_note (engine : Engine) (message : Message) :
    (engine.note message).lastSeqSeen message.buddyID = message.seq :=
  Function.update_self ..

theorem checkAndMarkSeq_of_lt {seq : UInt64} (newer : engine.lastSeqSeen id < seq) :
    engine.checkAndMarkSeq id seq =
      some { engine with lastSeqSeen := Function.update engine.lastSeqSeen id seq } :=
  if_neg (UInt64.not_le.mpr newer)

theorem lt_of_checkAndMarkSeq {noted : Engine} {seq : UInt64}
    (marked : engine.checkAndMarkSeq id seq = some noted) : engine.lastSeqSeen id < seq := by
  unfold Engine.checkAndMarkSeq at marked
  split_ifs at marked with older
  exact UInt64.not_le.mp older

variable (signatures setup now) in
/-- What is asked of a message once its number is noted. -/
def Message.Accepted : Message → Prop
  | .prepare msg => Authentic signatures setup msg.buddyID msg.payload msg.signature
  | .commit msg => Authentic signatures setup msg.buddyID msg.payload msg.signature ∧
      checkSupport signatures setup now msg = none

variable {message : Message}

/-- A message that is not noted is refused and leaves the engine unchanged. -/
theorem validate_of_not_noted (refused : ¬message.Noted setup now engine) :
    ∃ cause, validate signatures setup now engine message = (some cause, engine) := by
  have checked : ∀ {buddy noted}, buddyOf setup.buddies message.buddyID = some buddy →
      ¬(message.round ≠ setup.round ∨ message.blockHash ≠ setup.blockHash) →
      message.fitsProofSize setup.config = true →
      ¬(!isTimestampFresh now message.timestamp) = true →
      engine.checkAndMarkSeq message.buddyID message.seq ≠ some noted := by
    intro buddy noted found expected fits stale marked
    rw [not_or, not_not, not_not] at expected
    exact refused ⟨Option.isSome_iff_exists.mpr ⟨buddy, found⟩, expected.1, expected.2, fits,
      by simpa using stale, lt_of_checkAndMarkSeq marked⟩
  cases message with
  | prepare msg =>
    rw [validate, validatePrepare]
    split
    · exact ⟨_, rfl⟩
    next found =>
    split
    · exact ⟨_, rfl⟩
    next expected =>
    split
    · exact ⟨_, rfl⟩
    next stale =>
    split
    · exact ⟨_, rfl⟩
    next marked => exact absurd marked (checked found expected rfl stale)
  | commit msg =>
    rw [validate, validateCommit]
    split
    · exact ⟨_, rfl⟩
    next found =>
    split
    · exact ⟨_, rfl⟩
    next expected =>
    split
    · exact ⟨_, rfl⟩
    next large =>
    split
    · exact ⟨_, rfl⟩
    next stale =>
    split
    · exact ⟨_, rfl⟩
    next marked =>
    have fits : (Message.commit msg).fitsProofSize setup.config = true := by
      simpa [Message.fitsProofSize] using large
    exact absurd marked (checked found expected fits stale)

/-- A noted message uses up its number, accepted or not. -/
theorem validate_of_noted (signatures : Signatures δ) (noted : message.Noted setup now engine) :
    ∃ cause, validate signatures setup now engine message = (cause, engine.note message) ∧
      (cause = none ↔ message.Accepted signatures setup now) := by
  obtain ⟨buddy, found⟩ := Option.isSome_iff_exists.mp noted.known
  have marked : engine.checkAndMarkSeq message.buddyID message.seq = some (engine.note message) :=
    checkAndMarkSeq_of_lt noted.seq
  obtain ⟨-, round, blockHash, fits, fresh, -⟩ := noted
  cases message with
  | prepare msg =>
    simp only [Message.buddyID, Message.seq, Message.round, Message.blockHash,
      Message.timestamp] at found marked round blockHash fresh
    simp only [validate, validatePrepare, found, round, blockHash, fresh, marked, ne_eq,
      not_true_eq_false, or_self, if_false, Bool.not_true, Bool.false_eq_true, Message.Accepted,
      authentic_iff found]
    split_ifs <;> exact ⟨_, rfl, by simp_all⟩
  | commit msg =>
    simp only [Message.buddyID, Message.seq, Message.round, Message.blockHash,
      Message.timestamp] at found marked round blockHash fresh
    have small : ¬(msg.prepareProof.length : Int) > setup.config.maxProofSize :=
      Int.not_lt.mpr (of_decide_eq_true fits)
    simp only [validate, validateCommit, found, round, blockHash, small, fresh, marked, ne_eq,
      not_true_eq_false, or_self, if_false, Bool.not_true, Bool.false_eq_true, Message.Accepted,
      authentic_iff found]
    split_ifs <;> exact ⟨_, rfl, by simp_all⟩

/-- Of the engine a message changes at most the numbers seen. -/
theorem validate_engine (now : Int) (engine : Engine) (message : Message) :
    ∃ seen, (validate signatures setup now engine message).2 =
      { engine with lastSeqSeen := seen } := by
  by_cases noted : message.Noted setup now engine
  · obtain ⟨cause, outcome, -⟩ := validate_of_noted signatures noted
    exact ⟨_, congrArg Prod.snd outcome⟩
  · obtain ⟨cause, outcome⟩ : ∃ cause, validate signatures setup now engine message =
        (some cause, engine) := validate_of_not_noted noted
    exact ⟨engine.lastSeqSeen, by rw [outcome]⟩

theorem validate_eq_none_iff : (validate signatures setup now engine message).1 = none ↔
    message.Noted setup now engine ∧ message.Accepted signatures setup now := by
  by_cases noted : message.Noted setup now engine
  · obtain ⟨cause, outcome, sound⟩ := validate_of_noted signatures noted
    rw [outcome, sound, and_iff_right noted]
  · obtain ⟨cause, outcome⟩ : ∃ cause, validate signatures setup now engine message =
        (some cause, engine) := validate_of_not_noted noted
    simp [outcome, noted]

theorem validatePrepare_eq_none_iff :
    (validatePrepare signatures setup now engine msg).1 = none ↔
      (Message.prepare msg).Noted setup now engine ∧
        Authentic signatures setup msg.buddyID msg.payload msg.signature :=
  @validate_eq_none_iff engine δ signatures setup now (.prepare msg)

theorem validateCommit_eq_none_iff {msg : CommitMessage} :
    (validateCommit signatures setup now engine msg).1 = none ↔
      (Message.commit msg).Noted setup now engine ∧
        Authentic signatures setup msg.buddyID msg.payload msg.signature ∧
        checkSupport signatures setup now msg = none :=
  @validate_eq_none_iff engine δ signatures setup now (.commit msg)

/-- A COMMIT that passes carries the checked votes of enough distinct buddies for
its decision. -/
theorem supported_of_validateCommit {msg : CommitMessage}
    (valid : (validateCommit signatures setup now engine msg).1 = none) :
    (msg.prepareProof.map PrepareMessage.buddyID).Nodup ∧
      (∀ prepare ∈ msg.prepareProof, Checked signatures setup now prepare) ∧
      setup.threshold ≤ msg.prepareProof.countP fun prepare => prepare.decision = msg.decision :=
  checkSupport_eq_none_iff.mp (validateCommit_eq_none_iff.mp valid).2.2

end

end Jmdn.BFT
