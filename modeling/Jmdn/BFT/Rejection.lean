import Jmdn.BFT.Agreement

/-!
# What a rejected message leaves behind

A message that is refused after its sequence number was noted has used up the
number of the buddy it names, whoever sent it, and what that buddy itself sends
with the number is refused.
-/

namespace Jmdn.BFT

section

variable {δ : Type} (signatures : Signatures δ) (setup : Setup δ)

/-- Which of the messages that arrive one after another are accepted. -/
def verdicts : Engine → List (Int × Message) → List Bool
  | _, [] => []
  | engine, (now, message) :: later =>
    let (error, after) := validate signatures setup now engine message
    error.isNone :: verdicts after later

/-- Whatever arrives later, the two engines accept the same of it. -/
def SameAcceptance (engine after : Engine) : Prop :=
  ∀ later, verdicts signatures setup after later = verdicts signatures setup engine later

/-- Every buddy can sign: for its public key and a digest there is a signature
that verifies. -/
def Signable : Prop :=
  ∀ id buddy, buddyOf setup.buddies id = some buddy → ∀ digest,
    ∃ signature, signature ≠ [] ∧ signatures.verify buddy.publicKey digest signature = true

variable {signatures setup} {engine : Engine} {now : Int} {msg : PrepareMessage}
  {buddy : BuddyInput} {message : Message}

/-! ## The message that was silenced -/

/-- The PREPARE of the named buddy with the number of a message, at its time. -/
def Message.rightful (message : Message) (signature : Bytes) : PrepareMessage where
  version := prepareVersionV1
  seq := message.seq
  round := message.round
  blockHash := message.blockHash
  buddyID := message.buddyID
  decision := accept
  timestamp := message.timestamp
  signature

/-- Before the message arrived, the buddy's own PREPARE with its number would
have been accepted. -/
theorem rightful_accepted {signature : Bytes} (noted : message.Noted setup now engine)
    (found : buddyOf setup.buddies message.buddyID = some buddy) (present : signature ≠ [])
    (verified : signatures.verify buddy.publicKey
      (signatures.sha256 (message.rightful signature).payload) signature = true) :
    (validatePrepare signatures setup now engine (message.rightful signature)).1 = none :=
  validatePrepare_eq_none_iff.mpr ⟨{ noted with proofSize := rfl }, buddy, found,
    fun _ => ⟨present, verified⟩⟩

/-- Once a number is used up, so are all messages of the buddy up to it. -/
theorem replay_after_note (same : msg.buddyID = message.buddyID) (older : msg.seq ≤ message.seq) :
    (validatePrepare signatures setup now (engine.note message) msg).1 ≠ none := by
  intro accepted
  have newer : (engine.note message).lastSeqSeen msg.buddyID < msg.seq :=
    (validatePrepare_eq_none_iff.mp accepted).1.seq
  rw [same, lastSeqSeen_note] at newer
  exact UInt64.not_lt.mpr older newer

/-- A message, rejected or not, changes nothing about what is accepted later
exactly when it was refused before its sequence number was noted. -/
theorem same_acceptance_iff_not_noted (signable : Signable signatures setup) (now : Int)
    (engine : Engine) (message : Message) :
    SameAcceptance signatures setup engine (validate signatures setup now engine message).2 ↔
      ¬message.Noted setup now engine := by
  constructor
  · intro same noted
    obtain ⟨buddy, found⟩ := Option.isSome_iff_exists.mp noted.known
    obtain ⟨signature, present, verified⟩ :=
      signable _ buddy found (signatures.sha256 (message.rightful []).payload)
    have before := rightful_accepted noted found present verified
    have after : (validatePrepare signatures setup now (engine.note message)
        (message.rightful signature)).1 ≠ none := replay_after_note rfl UInt64.le_rfl
    have alike := same [(now, .prepare (message.rightful signature))]
    obtain ⟨cause, outcome, -⟩ := validate_of_noted signatures noted
    rw [outcome] at alike
    exact after (by simpa [verdicts, validate, before] using alike)
  · intro refused later
    obtain ⟨cause, outcome⟩ : ∃ cause, validate signatures setup now engine message =
        (some cause, engine) := validate_of_not_noted refused
    rw [outcome]

end

/-! ## Four buddies -/

/-- The engine of the first of the four buddies. -/
def quadSetup : Setup Bytes where
  config := quad.config
  myBuddyID := [1]
  myDecision := accept
  buddies := quad.allBuddies [1]
  threshold := 3
  round := 7
  blockHash := [9]
  signer := some fun digest => some (quad.signatures.sign [11] digest)

example : newEngine quad [1] = .ok quadSetup := rfl

theorem signable_quad : Signable quad.signatures quadSetup := by
  intro id buddy found digest
  refine ⟨buddy.publicKey ++ digest, ?_, by simp [quad]⟩
  have keyed : ∀ listed ∈ quadSetup.buddies, listed.publicKey ≠ [] := by decide
  simp [keyed buddy (buddyOf_eq_some found).1]

/-- An unsigned PREPARE in the name of the second buddy, with the largest number
there is. -/
def unsignedPrepare (round : UInt64) : PrepareMessage :=
  { version := prepareVersionV1, seq := 18446744073709551615, round, blockHash := [9]
    buddyID := [2], decision := accept, timestamp := 100 }

/-- Refused for its round, the unsigned PREPARE does no harm. -/
theorem wrong_round_harmless :
    (validate quad.signatures quadSetup 100000000000 {} (.prepare (unsignedPrepare 8))).1 =
        some .wrongRoundOrBlock ∧
      SameAcceptance quad.signatures quadSetup {}
        (validate quad.signatures quadSetup 100000000000 {} (.prepare (unsignedPrepare 8))).2 :=
  ⟨by decide, (same_acceptance_iff_not_noted signable_quad _ _ _).mpr fun noted =>
    absurd noted.round (by decide)⟩

/-- Refused for its missing signature, it makes the engine refuse what the second
buddy signs. -/
theorem unsigned_prepare_silences_buddy :
    (validate quad.signatures quadSetup 100000000000 {} (.prepare (unsignedPrepare 7))).1 =
        some .missingSignature ∧
      (validate quad.signatures quadSetup 100000000000 {}
        (.prepare (quadPrepare 2 accept))).1 = none ∧
      (validate quad.signatures quadSetup 100000000000
        (validate quad.signatures quadSetup 100000000000 {} (.prepare (unsignedPrepare 7))).2
        (.prepare (quadPrepare 2 accept))).1 = some .replay ∧
      ¬SameAcceptance quad.signatures quadSetup {}
        (validate quad.signatures quadSetup 100000000000 {} (.prepare (unsignedPrepare 7))).2 := by
  refine ⟨by decide, by decide, by decide, fun same => ?_⟩
  exact absurd (same [(100000000000, .prepare (quadPrepare 2 accept))]) (by decide)

end Jmdn.BFT
