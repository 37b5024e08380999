import Jmdn.Messaging.Certificate
import Jmdn.Seednode.Committee
import Jmdn.Text.Join

/-!
# Messages of block-bound votes

`CanonicalVoteMessageV3` of `BLS_Signer`, `messageForVote` and `VerifyForBlock` of
`BLS_Verifier`.  The numbers of a message end at a colon and the vote is told by its
last two characters, so what stands between them is the bindings, whatever they are.
-/

namespace Jmdn.Messaging

open Go Seednode Text

/-- What a vote is about, the arguments of the functions below. -/
structure Ballot where
  chainID : UInt64
  height : UInt64
  bindings : String
  vote : Int8

/-- `normalizeBindings`. -/
def normalizeBindings (lowerRune : Char → Char) (b : String) : String :=
  toLower lowerRune (trimSpace b)

inductive VoteMessageError where
  | invalidVote (vote : Int8)
  | emptyBindings
  deriving DecidableEq, Repr

def blockBoundVotePrefix : String := "zkvote:"

def voteDomainVersionV3 : String := "v3"

/-- `CanonicalVoteMessageV3`. -/
def canonicalVoteMessageV3 (lowerRune : Char → Char) (ballot : Ballot) :
    Except VoteMessageError ByteArray :=
  if ballot.vote ≠ -1 ∧ ballot.vote ≠ 1 then .error (.invalidVote ballot.vote)
  else
    let bindings := normalizeBindings lowerRune ballot.bindings
    if bindings = "" then .error .emptyBindings
    else
      let msg := blockBoundVotePrefix ++ voteDomainVersionV3 ++ ":chain=" ++
        toString ballot.chainID.toNat ++ ":h=" ++ toString ballot.height.toNat ++
        ":" ++ bindings ++ ":" ++ toString ballot.vote.toInt
      .ok msg.toUTF8

/-- `messageForVote`. -/
def messageForVote (vote : Int8) : Except VoteMessageError ByteArray :=
  if vote ≠ -1 ∧ vote ≠ 1 then .error (.invalidVote vote)
  else .ok ("vote:" ++ toString vote.toInt).toUTF8

inductive VerifyError where
  | pubkeyHex
  | signatureHex
  | message (cause : VoteMessageError)
  | failed (peerID : String)
  deriving DecidableEq, Repr

/-- `VerifyForBlock`; `blsVerify` is `BLSVerify` of a key, a message and a signature. -/
def verifyForBlock (lowerRune : Char → Char)
    (blsVerify : List UInt8 → ByteArray → List UInt8 → Bool) (resp : BLSresponse)
    (ballot : Ballot) : Except VerifyError Unit :=
  match hexDecodeString resp.pubKey, hexDecodeString resp.signature with
  | none, _ => .error .pubkeyHex
  | some _, none => .error .signatureHex
  | some pubBytes, some sigBytes =>
    match canonicalVoteMessageV3 lowerRune ballot with
    | .error cause => .error (.message cause)
    | .ok msgV3 =>
      if blsVerify pubBytes msgV3 sigBytes then .ok () else .error (.failed resp.peerID)

/-- The same chain, height, vote and normalised bindings. -/
structure Ballot.Same (lowerRune : Char → Char) (ballot ballot' : Ballot) : Prop where
  chainID : ballot.chainID = ballot'.chainID
  height : ballot.height = ballot'.height
  vote : ballot.vote = ballot'.vote
  bindings : normalizeBindings lowerRune ballot.bindings =
    normalizeBindings lowerRune ballot'.bindings

variable {lowerRune : Char → Char} {ballot ballot' : Ballot} {message : ByteArray}

theorem canonicalVoteMessageV3_ok (built : canonicalVoteMessageV3 lowerRune ballot = .ok message) :
    (ballot.vote = -1 ∨ ballot.vote = 1) ∧ ∃ text : String, message = text.toUTF8 ∧
      text.toList = "zkvote:v3:chain=".toList ++ ((toString ballot.chainID.toNat).toList ++
        ':' :: 'h' :: '=' :: ((toString ballot.height.toNat).toList ++
          ':' :: ((normalizeBindings lowerRune ballot.bindings).toList ++
            ':' :: (toString ballot.vote.toInt).toList))) := by
  unfold canonicalVoteMessageV3 at built
  dsimp only at built
  split_ifs at built with invalid empty
  refine ⟨Decidable.or_iff_not_not_and_not.mpr invalid, _, (Except.ok.inj built).symm, ?_⟩
  simp [blockBoundVotePrefix, voteDomainVersionV3]

/-- The vote at the end is read back, whatever stands before its colon. -/
theorem vote_at_end {front front' : List Char} {vote vote' : Int8} (valid : vote = -1 ∨ vote = 1)
    (valid' : vote' = -1 ∨ vote' = 1)
    (same : front ++ ':' :: (toString vote.toInt).toList =
      front' ++ ':' :: (toString vote'.toInt).toList) : vote = vote' ∧ front = front' := by
  have plus : (toString (1 : Int8).toInt).toList = ['1'] := by decide
  have minus : (toString (-1 : Int8).toInt).toList = ['-', '1'] := by decide
  rcases valid with rfl | rfl <;> rcases valid' with rfl | rfl
  · exact ⟨rfl, List.append_cancel_right same⟩
  · rw [plus, minus] at same
    exact absurd (congrArg List.reverse same) (by simp)
  · rw [plus, minus] at same
    exact absurd (congrArg List.reverse same) (by simp)
  · exact ⟨rfl, List.append_cancel_right same⟩

theorem same_of_message (built : canonicalVoteMessageV3 lowerRune ballot = .ok message)
    (built' : canonicalVoteMessageV3 lowerRune ballot' = .ok message) :
    ballot.Same lowerRune ballot' := by
  obtain ⟨valid, text, rfl, parts⟩ := canonicalVoteMessageV3_ok built
  obtain ⟨valid', text', bytes, parts'⟩ := canonicalVoteMessageV3_ok built'
  rw [String.toByteArray_inj.mp bytes, parts', List.append_right_inj] at parts
  have read : ∀ {number number' : UInt64},
      (toString number.toNat).toList = (toString number'.toNat).toList → number' = number :=
    fun same => (UInt64.toNat_inj.mp (toString_injective (String.toList_inj.mp same))).symm
  obtain ⟨chain, rest⟩ := split_eq_of_not_mem parts (not_mem_toString rfl _)
    (not_mem_toString rfl _)
  obtain ⟨digits, rest⟩ := split_eq_of_not_mem (List.cons.inj (List.cons.inj rest).2).2
    (not_mem_toString rfl _) (not_mem_toString rfl _)
  obtain ⟨votes, names⟩ := vote_at_end valid' valid rest
  exact ⟨read chain, read digits, votes.symm, (String.toList_inj.mp names).symm⟩

theorem verifyForBlock_ok {blsVerify : List UInt8 → ByteArray → List UInt8 → Bool}
    {resp : BLSresponse} (accepted : verifyForBlock lowerRune blsVerify resp ballot = .ok ()) :
    ∃ pub sig message, hexDecodeString resp.pubKey = some pub ∧
      hexDecodeString resp.signature = some sig ∧
      canonicalVoteMessageV3 lowerRune ballot = .ok message ∧
      blsVerify pub message sig = true := by
  unfold verifyForBlock at accepted
  split at accepted
  · cases accepted
  · cases accepted
  next pub sig key signature =>
  split at accepted
  · cases accepted
  next message built =>
  split_ifs at accepted with passed
  exact ⟨pub, sig, message, key, signature, built, passed⟩

/-- Messages for different chains, heights, bindings or votes differ, none is a legacy
message, and so a signature that is good for one message is accepted for one vote. -/
theorem vote_messages_bind (lowerRune : Char → Char) :
    (∀ ballot ballot' message, canonicalVoteMessageV3 lowerRune ballot = .ok message →
      canonicalVoteMessageV3 lowerRune ballot' = .ok message → ballot.Same lowerRune ballot') ∧
    (∀ ballot message legacy, canonicalVoteMessageV3 lowerRune ballot = .ok message →
      messageForVote legacy ≠ .ok message) ∧
    ∀ (blsVerify : List UInt8 → ByteArray → List UInt8 → Bool) (resp resp' : BLSresponse),
      (∀ pub pub' sig message message', hexDecodeString resp.pubKey = some pub →
        hexDecodeString resp'.pubKey = some pub' → blsVerify pub message sig = true →
        blsVerify pub' message' sig = true → message = message') →
      resp.signature = resp'.signature →
      ∀ ballot ballot', verifyForBlock lowerRune blsVerify resp ballot = .ok () →
        verifyForBlock lowerRune blsVerify resp' ballot' = .ok () →
        ballot.Same lowerRune ballot' := by
  refine ⟨fun _ _ _ => same_of_message, ?_, ?_⟩
  · intro ballot message legacy built old
    obtain ⟨-, text, rfl, parts⟩ := canonicalVoteMessageV3_ok built
    unfold messageForVote at old
    split_ifs at old
    rw [← String.toByteArray_inj.mp (Except.ok.inj old), String.toList_append] at parts
    exact absurd (congrArg List.head? parts) (by simp)
  · intro blsVerify resp resp' one same ballot ballot' first second
    obtain ⟨pub, sig, message, key, signature, built, passed⟩ := verifyForBlock_ok first
    obtain ⟨pub', sig', message', key', signature', built', passed'⟩ := verifyForBlock_ok second
    rw [← same, signature, Option.some.injEq] at signature'
    subst signature'
    rw [← one pub pub' sig message message' key key' passed passed'] at built'
    exact same_of_message built built'

/-- Bindings with blanks, capitals and colons. -/
example : canonicalVoteMessageV3 id ⟨7, 5, " AB:1 ", -1⟩ =
    .ok "zkvote:v3:chain=7:h=5:ab:1:-1".toUTF8 := by
  decide +kernel

/-- A signature that is good for one message only. -/
def oneSignature (_ : List UInt8) (message : ByteArray) (sig : List UInt8) : Bool :=
  message.data.toList = "zkvote:v3:chain=7:h=5:ab:1:-1".toUTF8.data.toList && sig = [1]

/-- It is accepted for two spellings of the bindings, which are the same. -/
theorem accepted_votes_agree :
    let resp : BLSresponse := { signature := "01", pubKey := "0b" }
    verifyForBlock id oneSignature resp ⟨7, 5, " AB:1 ", -1⟩ = .ok () ∧
      verifyForBlock id oneSignature resp ⟨7, 5, "ab:1", -1⟩ = .ok () ∧
      Ballot.Same id ⟨7, 5, " AB:1 ", -1⟩ ⟨7, 5, "ab:1", -1⟩ := by
  intro resp
  have first : verifyForBlock id oneSignature resp ⟨7, 5, " AB:1 ", -1⟩ = .ok () := by
    decide +kernel
  have second : verifyForBlock id oneSignature resp ⟨7, 5, "ab:1", -1⟩ = .ok () := by
    decide +kernel
  have binds : ∀ {message sig}, oneSignature [11] message sig = true →
      message = "zkvote:v3:chain=7:h=5:ab:1:-1".toUTF8 := fun passed =>
    ByteArray.ext (Array.toList_inj.mp (of_decide_eq_true (Bool.and_eq_true_iff.mp passed).1))
  exact ⟨first, second, (vote_messages_bind id).2.2 oneSignature resp resp
    (fun _ _ _ _ _ _ _ passed passed' => (binds passed).trans (binds passed').symm) rfl _ _ first
    second⟩

end Jmdn.Messaging
