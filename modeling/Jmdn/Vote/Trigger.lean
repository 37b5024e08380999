import Jmdn.Security.Dereference
import Jmdn.Vote.Listener

/-!
# Voting on a broadcast proposal

`handleVoteTriggerBroadcast` of `messaging/broadcast.go` and `SubmitVote` of
`Vote/Trigger.go`, from a decoded proposal to the vote that is sent.  Whether the
vote message can be encoded and which peers can be reached is up to the node.
A peer ID is given by its text.
-/

namespace Jmdn.Vote

open Config DBOPs List Security Transition

/-- `ConsensusMessage`, as decoded. -/
structure ConsensusMessage where
  zkBlock : Option ZKBlock := none
  buddies : Buddies

/-- The node that receives the proposal. -/
structure VoterNode where
  /-- The peer ID of `ForListner`, once it is set. -/
  listener : Option String
  voter : Voter
  store : Accounts
  marshalOk : Bool := true
  sendOk : Nat → Bool := fun _ => true

/-- `PubSubMessages.Vote`. -/
structure Ballot where
  vote : Int
  blockHash : Hash
  rejectionReason : Option ValidationError := none

/-- How a goroutine brings the process down. -/
inductive Crash where
  | nilDereference
  | outOfRange
  deriving DecidableEq, Repr

inductive Outcome where
  | crashed (how : Crash)
  | noListener
  | notSent (ballot : Ballot)
  | sent (ballot : Ballot) (receiver : Buddy)

/-- `config.MaxMainPeers`. -/
def maxMainPeers : Nat := 7

/-- The peer IDs taken over from the proposal. -/
def buddyPeerIDs (buddies : Buddies) : List String :=
  ((List.range maxMainPeers).filterMap fun i =>
    if Int64.ofNat i < buddies.len then (buddies.get (Int64.ofNat i)).map Buddy.peerID
    else none).filter (· ≠ "")

/-- The loop of `SubmitVote` over the attempts that are left; `none` inside when
the last one failed. -/
def sendVote (fuel : Nat) (peerHash : PeerHash) (buddies : Buddies) (self : String)
    (sendOk : Nat → Bool) : List Nat → Option (Option Buddy)
  | [] => some none
  | attempt :: later =>
    match loop (pickRound peerHash buddies self) fuel (Int64.ofNat attempt) with
    | none => none
    | some receiver =>
      if (receiver.peerID = self ∧ later ≠ []) ∨ !sendOk attempt then
        sendVote fuel peerHash buddies self sendOk later
      else some (some receiver)

/-- The decision of `SubmitVote`; `none` if validation reads a nil pointer. -/
def decideVote (node : VoterNode) (block : ZKBlock) : Option Ballot :=
  match checkZKBlockValidation node.voter node.store block with
  | .error .nilDereference => none
  | .error (.rejected cause) =>
    some { vote := -1, blockHash := block.blockHash, rejectionReason := some cause }
  | .ok _ => some { vote := 1, blockHash := block.blockHash }

/-- `SubmitVote`. -/
def SubmitVote (fuel : Nat) (peerHash : PeerHash) (node : VoterNode) (self : String)
    (buddies : Buddies) (block : ZKBlock) : Option Outcome :=
  match decideVote node block with
  | none => some (.crashed .nilDereference)
  | some ballot =>
    if !node.marshalOk then some (.notSent ballot)
    else
      (sendVote fuel peerHash buddies self node.sendOk [0, 1, 2]).map fun receiver =>
        receiver.elim (.notSent ballot) (.sent ballot)

/-- `handleVoteTriggerBroadcast` after the proposal is decoded; `none` while it
still runs. -/
def handleVoteTriggerBroadcast (fuel : Nat) (peerHash : PeerHash) (node : VoterNode)
    (message : ConsensusMessage) : Option Outcome :=
  match node.listener with
  | none => some .noListener
  | some self =>
    -- each peer ID is printed by its first sixteen bytes
    if (buddyPeerIDs message.buddies).any fun peerID => peerID.utf8ByteSize < 16 then
      some (.crashed .outOfRange)
    else
      match message.zkBlock with
      -- `SetGloalVarCacheConsensusMessage` reads the hash of the block
      | none => some (.crashed .nilDereference)
      | some block => SubmitVote fuel peerHash node self message.buddies block

/-! ## Proposals that are always answered -/

/-- The proposal is answered on a node: by an error, or by a vote that is for the
block only if the block passed validation. -/
def Answered (node : VoterNode) (message : ConsensusMessage) : Outcome → Prop
  | .crashed _ => False
  | .noListener => True
  | .notSent ballot | .sent ballot _ =>
    ballot.vote = -1 ∨ ballot.vote = 1 ∧ ∃ block, message.zkBlock = some block ∧
      checkZKBlockValidation node.voter node.store block = .ok ()

/-- The buddies have a key the search can find. -/
def Findable (buddies : Buddies) : Prop :=
  buddies.len = 0 ∨ ∃ key, 0 ≤ key ∧ key < buddies.len ∧ (buddies.get key).isSome

/-- What keeps every node from crashing: the buddies that are printed have long
peer IDs, a map of buddies has a key below its size, and the block is there, with
all senders, and without a signed transaction that reaches the balance check
without a value. -/
structure Harmless (crypto : Crypto) (message : ConsensusMessage) : Prop where
  printable : ∀ i < maxMainPeers, Int64.ofNat i < message.buddies.len →
    ∀ buddy ∈ message.buddies.get (Int64.ofNat i),
      buddy.peerID = "" ∨ 16 ≤ buddy.peerID.utf8ByteSize
  findable : Findable message.buddies
  block : ∃ block, message.zkBlock = some block ∧
    (∀ tx ∈ block.transactions, tx.fromAddr.isSome) ∧
    ∀ chain before tx after, block.transactions = before ++ tx :: after →
      ¬ ReachesNilValue crypto chain before tx

theorem printable_iff (buddies : Buddies) :
    (buddyPeerIDs buddies).any (fun peerID => peerID.utf8ByteSize < 16) = false ↔
      ∀ i < maxMainPeers, Int64.ofNat i < buddies.len →
        ∀ buddy ∈ buddies.get (Int64.ofNat i),
          buddy.peerID = "" ∨ 16 ≤ buddy.peerID.utf8ByteSize := by
  rw [any_eq_false]
  simp only [buddyPeerIDs, mem_filter, mem_filterMap, mem_range,
    decide_eq_true_eq, Nat.not_lt]
  constructor
  · intro long i small below buddy stored
    rw [or_iff_not_imp_left]
    intro named
    refine long buddy.peerID ⟨⟨i, small, ?_⟩, named⟩
    rw [if_pos below, Option.mem_def.mp stored]
    rfl
  · rintro long peerID ⟨⟨i, small, found⟩, named⟩
    split at found
    · next below =>
      obtain ⟨buddy, stored, rfl⟩ := Option.map_eq_some_iff.mp found
      exact (long i small below buddy stored).resolve_left named
    · cases found

section

variable {peerHash : PeerHash} {buddies : Buddies} {self : String}

theorem exists_pick_of_findable (findable : Findable buddies) {offset : Int64}
    (nonneg : 0 ≤ offset) : ∃ buddy, PickListnerWithOffset peerHash buddies self offset buddy := by
  by_cases empty : buddies.len = 0
  · exact ⟨{}, Returns.leave (if_pos empty)⟩
  by_cases small : offset < buddies.len
  · obtain ⟨buddy, returns, -⟩ :=
      (exists_pick_iff nonneg small).mpr (findable.resolve_left empty)
    exact ⟨buddy, returns⟩
  · -- an offset beyond the map is tried once
    cases round : pickRound peerHash buddies self offset with
    | inl buddy => exact ⟨buddy, Returns.leave round⟩
    | inr next =>
      unfold pickRound at round
      rw [if_neg empty] at round
      dsimp only at round
      split at round
      · cases round
      · rw [if_neg small] at round
        cases round

theorem findable_of_pick {buddy : Buddy}
    (returns : PickListnerWithOffset peerHash buddies self 0 buddy) : Findable buddies := by
  rw [Findable, or_iff_not_imp_left]
  intro nonempty
  have some : 0 < buddies.map.entries.length := by
    rw [Nat.pos_iff_ne_zero]
    intro zero
    exact nonempty (by rw [Buddies.len, zero]; rfl)
  by_contra absent
  refine not_pick_of_no_key (fun key lower upper => ?_) some rfl buddy returns
  by_contra found
  exact absent ⟨key, lower, upper, Option.isSome_iff_ne_none.mpr found⟩

/-- With enough rounds for each search the attempts come to an end. -/
theorem exists_sendVote {sendOk : Nat → Bool} {attempts : List Nat}
    (picks : ∀ attempt ∈ attempts,
      ∃ buddy, PickListnerWithOffset peerHash buddies self (Int64.ofNat attempt) buddy) :
    ∃ fuel, ∀ more ≥ fuel, (sendVote more peerHash buddies self sendOk attempts).isSome := by
  induction attempts with
  | nil => exact ⟨0, fun _ _ => rfl⟩
  | cons attempt later ih =>
    rw [forall_mem_cons] at picks
    obtain ⟨receiver, rounds, found⟩ := picks.1
    obtain ⟨fuel, enough⟩ := ih picks.2
    refine ⟨max rounds fuel, fun more large => ?_⟩
    rw [sendVote, loop_mono found (le_trans (le_max_left _ _) large)]
    dsimp only
    split
    · exact enough more (le_trans (le_max_right _ _) large)
    · rfl

end

section

variable {peerHash : PeerHash} {node : VoterNode} {message : ConsensusMessage} {crypto : Crypto}
  {block : ZKBlock} {self : String}

/-- The handler of a printable proposal with a block submits a vote. -/
theorem handleVoteTriggerBroadcast_eq (fuel : Nat) (listens : node.listener = some self)
    (printable : (buddyPeerIDs message.buddies).any
      (fun peerID => peerID.utf8ByteSize < 16) = false)
    (present : message.zkBlock = some block) :
    handleVoteTriggerBroadcast fuel peerHash node message =
      SubmitVote fuel peerHash node self message.buddies block := by
  rw [handleVoteTriggerBroadcast, listens]
  dsimp only
  rw [printable, if_neg Bool.false_ne_true, present]

theorem decideVote_eq_none_iff :
    decideVote node block = none ↔
      checkZKBlockValidation node.voter node.store block = .error .nilDereference := by
  unfold decideVote
  split <;> simp_all

/-- A decided vote is for the block only if the block passed. -/
theorem answered_ballot {ballot : Ballot} (decided : decideVote node block = some ballot)
    (present : message.zkBlock = some block) : Answered node message (.notSent ballot) := by
  unfold decideVote at decided
  split at decided
  · cases decided
  · cases decided
    exact .inl rfl
  · next passed =>
    cases decided
    exact .inr ⟨rfl, block, present, passed⟩

theorem answered_of_harmless (harmless : Harmless node.voter.crypto message) :
    ∃ fuel outcome, handleVoteTriggerBroadcast fuel peerHash node message = some outcome ∧
      Answered node message outcome := by
  cases listens : node.listener with
  | none =>
    refine ⟨0, .noListener, ?_, trivial⟩
    rw [handleVoteTriggerBroadcast, listens]
  | some self =>
    obtain ⟨block, present, known, valued⟩ := harmless.block
    have survives : decideVote node block ≠ none := by
      rw [Ne, decideVote_eq_none_iff]
      intro crashed
      rcases (exists_nilDereference_iff _ block).mp ⟨node.voter, node.store, rfl, crashed⟩ with
        ⟨tx, mem, absent⟩ | ⟨chain, before, tx, after, parts, reaches⟩
      · have sender := known tx mem
        rw [absent] at sender
        cases sender
      · exact valued chain before tx after parts reaches
    obtain ⟨ballot, decided⟩ := Option.ne_none_iff_exists'.mp survives
    have answered := answered_ballot decided present
    obtain ⟨fuel, enough⟩ := @exists_sendVote peerHash message.buddies self node.sendOk [0, 1, 2]
      fun attempt mem => exists_pick_of_findable harmless.findable (by
        revert attempt
        decide)
    obtain ⟨receiver, sends⟩ := Option.isSome_iff_exists.mp (enough fuel (le_refl fuel))
    have handled := @handleVoteTriggerBroadcast_eq peerHash node message block self fuel listens
      ((printable_iff _).mpr harmless.printable) present
    rw [SubmitVote, decided] at handled
    dsimp only at handled
    split at handled
    · exact ⟨fuel, _, handled, answered⟩
    rw [sends, Option.map_some] at handled
    refine ⟨fuel, _, handled, ?_⟩
    cases receiver with
    | none => exact answered
    | some buddy => exact answered

/-- A node that listens and has no database. -/
def quietNode (crypto : Crypto) : VoterNode where
  listener := some ""
  voter := { crypto, connectionsOk := false }
  store := richStore 0

theorem answered_listening {fuel : Nat} {outcome : Outcome} (listens : node.listener = some self)
    (handled : handleVoteTriggerBroadcast fuel peerHash node message = some outcome)
    (answered : Answered node message outcome) :
    (buddyPeerIDs message.buddies).any (fun peerID => peerID.utf8ByteSize < 16) = false ∧
      ∃ block, message.zkBlock = some block ∧ decideVote node block ≠ none ∧
        (node.marshalOk = true →
          (sendVote fuel peerHash message.buddies self node.sendOk [0, 1, 2]).isSome) := by
  rw [handleVoteTriggerBroadcast, listens] at handled
  dsimp only at handled
  split at handled
  · cases handled
    exact answered.elim
  next printable =>
  refine ⟨Bool.eq_false_of_not_eq_true printable, ?_⟩
  split at handled
  · cases handled
    exact answered.elim
  next block present =>
  refine ⟨block, present, ?_⟩
  unfold SubmitVote at handled
  split at handled
  · cases handled
    exact answered.elim
  next ballot decided =>
  refine ⟨by rw [decided]; simp, fun encodes => ?_⟩
  rw [encodes, Bool.not_true, if_neg Bool.false_ne_true] at handled
  obtain ⟨receiver, sends, -⟩ := Option.map_eq_some_iff.mp handled
  rw [sends]
  rfl

/-- Every node answers a proposal exactly when the proposal is harmless. -/
theorem proposal_answered_iff (crypto : Crypto) (peerHash : PeerHash)
    (message : ConsensusMessage) :
    (∀ node : VoterNode, node.voter.crypto = crypto → ∃ fuel outcome,
        handleVoteTriggerBroadcast fuel peerHash node message = some outcome ∧
          Answered node message outcome) ↔
      Harmless crypto message := by
  constructor
  · intro answers
    obtain ⟨fuel, outcome, handled, answered⟩ := answers (quietNode crypto) rfl
    obtain ⟨printable, block, present, -, sends⟩ := answered_listening rfl handled answered
    have survives : ¬ ∃ voter store, voter.crypto = crypto ∧
        checkZKBlockValidation voter store block = .error .nilDereference := by
      rintro ⟨voter, store, same, crashed⟩
      obtain ⟨fuel, outcome, handled, answered⟩ :=
        answers { listener := some "", voter, store } same
      obtain ⟨-, decided, given, survived, -⟩ := answered_listening rfl handled answered
      cases present.symm.trans given
      exact survived (decideVote_eq_none_iff.mpr crashed)
    rw [exists_nilDereference_iff, not_or] at survives
    refine ⟨(printable_iff _).mp printable, ?_, block, present, ?_, ?_⟩
    · have finished := sends rfl
      rw [sendVote] at finished
      split at finished
      · cases finished
      · next receiver found => exact findable_of_pick ⟨fuel, found⟩
    · intro tx member
      rw [Option.isSome_iff_ne_none]
      exact fun absent => survives.1 ⟨tx, member, absent⟩
    · intro chain before tx after parts reaches
      exact survives.2 ⟨chain, before, tx, after, parts, reaches⟩
  · rintro harmless node rfl
    exact answered_of_harmless harmless

end

theorem length_empty : (∅ : AList fun _ : Int64 => Buddy).entries.length < 2 ^ 62 := by
  change 0 < 2 ^ 62
  decide

/-- No buddies. -/
def noBuddies : Buddies where
  map := ∅
  fits := length_empty

/-- A node on chain 8 that takes every transaction for one of account 1. -/
def trustingNode : VoterNode where
  listener := some "voter"
  voter :=
    { expectedChainID := some 8
      crypto :=
        { txHash := fun _ => 0
          sender := fun _ _ => some 1
          keccak256 := fun _ => 0
          sha256 := fun _ _ => 0 } }
  store := richStore 100

/-- A block with one transaction. -/
def blockOf (tx : Transaction) : ZKBlock :=
  { transactions := [tx] }

/-- A signed transaction without a value. -/
def valuelessTransfer : Transaction :=
  { fromAddr := some 1
    chainID := some 8
    v := some 27
    r := some 1
    s := some 1 }

/-- A proposal without a block, one with a short peer ID, one with a transaction
that has no sender and one with a signed transaction that has no value. -/
theorem malformed_proposals_crash :
    handleVoteTriggerBroadcast 1 (fun _ => 0) trustingNode { buddies := noBuddies } =
        some (.crashed .nilDereference) ∧
      handleVoteTriggerBroadcast 1 (fun _ => 0) trustingNode
        { zkBlock := some {}, buddies := oneBuddy 0 } = some (.crashed .outOfRange) ∧
      handleVoteTriggerBroadcast 1 (fun _ => 0) trustingNode
        { zkBlock := some (blockOf {}), buddies := noBuddies } =
          some (.crashed .nilDereference) ∧
      handleVoteTriggerBroadcast 1 (fun _ => 0) trustingNode
        { zkBlock := some (blockOf valuelessTransfer), buddies := noBuddies } =
          some (.crashed .nilDereference) :=
  ⟨rfl, rfl, rfl, rfl⟩

end Jmdn.Vote
