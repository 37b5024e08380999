import Jmdn.BFT.Messages

/-!
# The buddy consensus engine

The engine of `AVC/BFT/bft`: its vote maps, the sequence numbers, the Byzantine
detector.  Hashing and ed25519 are parameters.  The cleaner of the detector removes
expired entries only, which nothing can observe.
-/

namespace Jmdn.BFT

open List

variable {decision : Bytes} {msg : PrepareMessage} {threshold : Nat}

/-- SHA-256, `ed25519.Sign` for a private key, and `ed25519.Verify` for a public
key, a digest and a signature. -/
structure Signatures (δ : Type) where
  sha256 : Bytes → δ
  sign : Bytes → δ → Bytes
  verify : Bytes → δ → Bytes → Bool

/-- The fields of an engine that do not change. -/
structure Setup (δ : Type) where
  config : Config
  myBuddyID : Bytes
  myDecision : Bytes
  buddies : List BuddyInput
  threshold : Nat
  round : UInt64
  blockHash : Bytes
  signer : Option (δ → Option Bytes)

/-- The maps of an engine.  A message map is listed in order of insertion; its
key is the sender of the message. -/
structure Engine where
  prepareMsgs : List PrepareMessage := []
  commitMsgs : List CommitMessage := []
  lastSeqSeen : Bytes → UInt64 := fun _ => 0
  byzantine : Bytes → Option Int := fun _ => none

/-! ## Time -/

/-- Unix seconds of a time in nanoseconds. -/
def unixSeconds (now : Int) : Int64 :=
  Int64.ofInt (now / 1000000000)

/-- `isTimestampFresh`. -/
def isTimestampFresh (now : Int) (timestamp : Int64) : Bool :=
  if timestamp = 0 then false
  else
    let diff := unixSeconds now - timestamp
    let diff := if diff < 0 then -diff else diff
    diff ≤ 30

/-- `defaultTTL` of the Byzantine detector, five minutes. -/
def defaultTTL : Int := 300000000000

/-- `isByzantine`. -/
def Engine.isByzantine (engine : Engine) (now : Int) (id : Bytes) : Bool :=
  (engine.byzantine id).any fun bannedAt => now - bannedAt ≤ defaultTTL

/-- `mark` for every listed buddy. -/
def Engine.markAll (engine : Engine) (now : Int) (ids : List Bytes) : Engine :=
  let mark known id := Function.update known id (some now)
  { engine with byzantine := ids.foldl mark engine.byzantine }

/-! ## Messages and sequence numbers -/

/-- `addPrepareMsg`: the first message of a sender stays. -/
def Engine.addPrepareMsg (engine : Engine) (msg : PrepareMessage) : Engine :=
  if msg.buddyID ∈ engine.prepareMsgs.map PrepareMessage.buddyID then engine
  else { engine with prepareMsgs := engine.prepareMsgs ++ [msg] }

/-- `addCommitMsg`. -/
def Engine.addCommitMsg (engine : Engine) (msg : CommitMessage) : Engine :=
  if msg.buddyID ∈ engine.commitMsgs.map CommitMessage.buddyID then engine
  else { engine with commitMsgs := engine.commitMsgs ++ [msg] }

/-- `checkAndMarkSeq`; `none` means the number is not monotonic. -/
def Engine.checkAndMarkSeq (engine : Engine) (id : Bytes) (seq : UInt64) : Option Engine :=
  if seq ≤ engine.lastSeqSeen id then none
  else some { engine with lastSeqSeen := Function.update engine.lastSeqSeen id seq }

/-- `ensureSeqForSelf`. -/
def Engine.ensureSeqForSelf (engine : Engine) (self : Bytes) : UInt64 × Engine :=
  let seq := engine.lastSeqSeen self + 1
  (seq, { engine with lastSeqSeen := Function.update engine.lastSeqSeen self seq })

@[simp]
theorem prepareMsgs_ensureSeqForSelf (engine : Engine) (self : Bytes) :
    (engine.ensureSeqForSelf self).2.prepareMsgs = engine.prepareMsgs := rfl

@[simp]
theorem commitMsgs_ensureSeqForSelf (engine : Engine) (self : Bytes) :
    (engine.ensureSeqForSelf self).2.commitMsgs = engine.commitMsgs := rfl

variable {engine : Engine}

@[simp]
theorem commitMsgs_addPrepareMsg (engine : Engine) (msg : PrepareMessage) :
    (engine.addPrepareMsg msg).commitMsgs = engine.commitMsgs := by
  unfold Engine.addPrepareMsg
  split_ifs <;> rfl

@[simp]
theorem prepareMsgs_addCommitMsg (engine : Engine) (msg : CommitMessage) :
    (engine.addCommitMsg msg).prepareMsgs = engine.prepareMsgs := by
  unfold Engine.addCommitMsg
  split_ifs <;> rfl

theorem mem_addPrepareMsg {other : PrepareMessage}
    (listed : other ∈ (engine.addPrepareMsg msg).prepareMsgs) :
    other ∈ engine.prepareMsgs ∨ other = msg := by
  unfold Engine.addPrepareMsg at listed
  split_ifs at listed
  · exact .inl listed
  · simpa using listed

theorem mem_addCommitMsg {msg other : CommitMessage}
    (listed : other ∈ (engine.addCommitMsg msg).commitMsgs) :
    other ∈ engine.commitMsgs ∨ other = msg := by
  unfold Engine.addCommitMsg at listed
  split_ifs at listed
  · exact .inl listed
  · simpa using listed

theorem nodup_addPrepareMsg (nodup : (engine.prepareMsgs.map PrepareMessage.buddyID).Nodup) :
    ((engine.addPrepareMsg msg).prepareMsgs.map PrepareMessage.buddyID).Nodup := by
  unfold Engine.addPrepareMsg
  split_ifs with known
  · exact nodup
  · rw [map_append, map_singleton, ← concat_eq_append]
    exact nodup.concat known

theorem sublist_addPrepareMsg (engine : Engine) (msg : PrepareMessage) :
    engine.prepareMsgs.Sublist (engine.addPrepareMsg msg).prepareMsgs := by
  unfold Engine.addPrepareMsg
  split_ifs
  · exact List.Sublist.refl _
  · exact sublist_append_left _ _

/-! ## Counting -/

/-- `getPrepareVoteCounts`: every decision other than `Accept` is a reject. -/
def Engine.getPrepareVoteCounts (engine : Engine) : Nat × Nat :=
  (engine.prepareMsgs.countP fun msg => msg.decision = accept,
    engine.prepareMsgs.countP fun msg => msg.decision ≠ accept)

/-- `getCommitVoteCountsClean`. -/
def Engine.getCommitVoteCountsClean (engine : Engine) (now : Int) : Nat × Nat :=
  let clean := engine.commitMsgs.filter fun msg => !engine.isByzantine now msg.buddyID
  (clean.countP fun msg => msg.decision = accept, clean.countP fun msg => msg.decision ≠ accept)

/-- One tick of a waiting loop. -/
def reached (threshold : Nat) (counts : Nat × Nat) : Option Bytes :=
  if counts.1 ≥ threshold then some accept
  else if counts.2 ≥ threshold then some reject
  else none

/-- The loop of `collectPrepareProof`. -/
def collectProof (threshold : Nat) (decision : Bytes) :
    List PrepareMessage → List PrepareMessage → List PrepareMessage
  | [], proof => proof
  | msg :: rest, proof =>
    if msg.decision = decision then
      if (proof ++ [msg]).length ≥ threshold then proof ++ [msg]
      else collectProof threshold decision rest (proof ++ [msg])
    else collectProof threshold decision rest proof

/-- A decision is reached only on a vote that counts for it. -/
theorem exists_vote_of_reached {α : Type} {votes : List α} {decisionOf : α → Bytes}
    (pos : 1 ≤ threshold)
    (done : reached threshold (votes.countP fun vote => decisionOf vote = accept,
      votes.countP fun vote => decisionOf vote ≠ accept) = some decision) :
    ∃ vote ∈ votes, decision = if decisionOf vote = accept then accept else reject := by
  unfold reached at done
  split_ifs at done with accepts rejects
  · cases done
    obtain ⟨vote, listed, accepted⟩ := countP_pos_iff.mp (pos.trans accepts)
    exact ⟨vote, listed, (if_pos (by simpa using accepted)).symm⟩
  · cases done
    obtain ⟨vote, listed, rejected⟩ := countP_pos_iff.mp (pos.trans rejects)
    exact ⟨vote, listed, (if_neg (by simpa using rejected)).symm⟩

theorem reached_cases {counts : Nat × Nat} (done : reached threshold counts = some decision) :
    decision = accept ∨ decision = reject := by
  unfold reached at done
  split_ifs at done <;> cases done
  · exact .inl rfl
  · exact .inr rfl

theorem length_collectProof_le (threshold : Nat) (decision : Bytes)
    (msgs proof : List PrepareMessage) :
    (collectProof threshold decision msgs proof).length ≤
      proof.length + msgs.countP fun msg => msg.decision = decision := by
  induction msgs generalizing proof with
  | nil => simp [collectProof]
  | cons msg rest ih =>
    unfold collectProof
    split_ifs with same full
    · simp [same]
    · have later := ih (proof ++ [msg])
      simp only [length_append, length_singleton] at later
      rw [countP_cons_of_pos (by simpa using same)]
      omega
    · rw [countP_cons_of_neg (by simpa using same)]
      exact ih proof

/-! ## Own messages -/

section

variable {δ : Type} (signatures : Signatures δ) (setup : Setup δ) (now : Int)

/-- `signPrepare` and `signCommit`: the signature of a digest, empty where none is
required and there is no signer. -/
def signDigest (digest : δ) : Option Bytes :=
  match setup.signer with
  | none => if setup.config.requireSignatures then none else some []
  | some sign => sign digest

/-- The own PREPARE, before it is signed. -/
def myPrepare (seq : UInt64) : PrepareMessage :=
  { version := prepareVersionV1, seq, round := setup.round, blockHash := setup.blockHash
    buddyID := setup.myBuddyID, decision := setup.myDecision, timestamp := unixSeconds now }

/-- The own COMMIT, before it is signed. -/
def myCommit (seq : UInt64) (decision : Bytes) (proof : List PrepareMessage) : CommitMessage :=
  { version := commitVersionV1, seq, round := setup.round, blockHash := setup.blockHash
    buddyID := setup.myBuddyID, decision, prepareProof := proof, timestamp := unixSeconds now }

end

end Jmdn.BFT
