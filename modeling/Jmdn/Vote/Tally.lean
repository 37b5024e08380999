import Mathlib.Data.List.Sort
import Mathlib.Data.String.Basic
import Jmdn.Go.JsonValue
import Jmdn.Go.Map

/-!
# Votes from the CRDT

`ProcessVotesFromCRDT`: the elements under every key of the vote CRDT are JSON texts
that other peers wrote.  The last one with a vote for the block is the vote of the key's
peer; the votes of the peers with a weight go to `VoteAggregation`.
-/

namespace Jmdn.Vote

open Go

/-! ## The CRDT -/

/-- An object of the CRDT: a last-writer-wins set with its visible elements, or a
counter. -/
inductive CrdtObject where
  | set (elements : List String)
  | counter
  deriving DecidableEq, Repr

/-- The objects by their keys. -/
structure Crdt where
  objects : List (String × CrdtObject)
  keys : (objects.map Prod.fst).Nodup

/-- `GetSet`: the elements in ascending order. -/
def CrdtObject.getSet : CrdtObject → List String
  | .set elements => elements.insertionSort (· ≤ ·)
  | .counter => []

/-! ## One element -/

/-- The conversion `int8(value)`: towards zero, and left open by the language when the
result does not fit. -/
structure Narrowing where
  int8 : Float.Model → Int8
  fits : ∀ value, -128 ≤ value.unpack.toInt 0 0 → value.unpack.toInt 0 0 ≤ 127 →
    int8 value = Int8.ofInt (value.unpack.toInt 0 0)

/-- `peerVote`. -/
structure PeerVote where
  vote : Int8
  blockHash : String
  rejectionReason : String
  deriving DecidableEq, Repr

/-- A string under a key of an element, empty if there is none. -/
def stringMember (members : List (String × JsonValue)) (key : String) : String :=
  match jsonMember members key with
  | some (.string value) => value
  | _ => ""

section

variable (narrowing : Narrowing) (targetBlockHash : String)

/-- The vote of an element with a number: only one for the target counts. -/
def numberVote (members : List (String × JsonValue)) (value : Float.Model) : Option PeerVote :=
  match jsonMember members "block_hash" with
  | some (.string blockHash) =>
    if blockHash = targetBlockHash then
      some
        { vote := narrowing.int8 value
          blockHash
          rejectionReason := stringMember members "rejection_reason" }
    else none
  | _ => none

/-- What the loop does with an element. -/
inductive Read where
  | panics
  | skips
  | votes (vote : PeerVote)
  deriving DecidableEq, Repr

/-- One element. -/
def readElement (element : String) : Read :=
  match unmarshalMap element with
  | none => .skips
  | some members =>
    match jsonMember members "vote" with
    | none => .skips
    | some (.number value) =>
      match numberVote narrowing targetBlockHash members value with
      | some vote => .votes vote
      | none => .skips
    | some (.string _) => .skips
    -- the log line of a vote that is not a number asserts that it is a string
    | some _ => .panics

/-- The vote of a key after the elements of a set; `none` is a panic. -/
def keyVote : List String → Option PeerVote → Option (Option PeerVote)
  | [], latest => some latest
  | element :: rest, latest =>
    match readElement narrowing targetBlockHash element with
    | .panics => none
    | .skips => keyVote rest latest
    | .votes vote => keyVote rest (some vote)

/-- `voteData` after the keys in the order they are visited; `none` is a panic. -/
def collectVotes : List (String × CrdtObject) → Option (List (String × PeerVote))
  | [] => some []
  | (key, object) :: rest =>
    match keyVote narrowing targetBlockHash object.getSet none, collectVotes rest with
    | some vote, some votes => some ((vote.map fun vote => (key, vote)).toList ++ votes)
    | _, _ => none

end

/-! ## The aggregation -/

/-- What a call meets besides the CRDT: the seed node's client, and the weights of the
peers unless the seed node refuses them. -/
structure TallyEnv where
  clientError : Option String := none
  weights : Option (String → Option Float.Model) := none

/-- The weight of a peer: one for every peer if the weights are not known. -/
def TallyEnv.weight (env : TallyEnv) (peer : String) : Option Float.Model :=
  match env.weights with
  | none => some (Float.Model.ofNat 1)
  | some weights => weights peer

/-- A vote that goes to the aggregation. -/
structure WeightedVote where
  peer : String
  vote : PeerVote
  weight : Float.Model

/-- The peers with a weight. -/
def weighted (env : TallyEnv) (votes : List (String × PeerVote)) : List WeightedVote :=
  votes.filterMap fun entry => (env.weight entry.1).map fun weight =>
    { peer := entry.1, vote := entry.2, weight }

/-- The sums of `VoteAggregation`. -/
def aggregate : List WeightedVote → Float.Model × Float.Model → Except String Bool
  | [], (positive, negative) => .ok (positive > negative)
  | entry :: rest, (positive, negative) =>
    if entry.weight > Float.Model.ofNat 1 ∨ entry.weight < Float.Model.ofNat 0 then
      .error "invalid weight value"
    else if entry.vote.vote = 1 then aggregate rest (positive + entry.weight, negative)
    else if entry.vote.vote = -1 then aggregate rest (positive, negative + entry.weight)
    else .error "invalid vote value"

/-- `VoteAggregation`, over the votes in the order they are visited. -/
def voteAggregation (votes : List WeightedVote) : Except String Bool :=
  aggregate votes (Float.Model.ofNat 0, Float.Model.ofNat 0)

/-- The reasons of the peers that voted against. -/
def rejectionReasons (votes : List WeightedVote) : List (String × String) :=
  (votes.filter fun entry => entry.vote.vote = -1 ∧ entry.vote.rejectionReason ≠ "").map
    fun entry => (entry.peer, entry.vote.rejectionReason)

/-- What a call comes to. -/
inductive Tally where
  | panics
  | fails (error : String)
  | result (vote : Int8) (reasons : List (String × String))
  deriving DecidableEq, Repr

/-- What a call does before the aggregation: it panics, fails, or passes votes to it. -/
inductive Passed where
  | panics
  | fails (error : String)
  | votes (votes : List WeightedVote)

/-- The error for an empty target. -/
def targetRequired : String :=
  "targetBlockHash is required for vote processing " ++
    "to avoid mixing votes from different blocks"

/-- `ProcessVotesFromCRDT` up to the call of `VoteAggregation`. -/
def passedVotes (narrowing : Narrowing) (mapOrder : MapOrder (String × CrdtObject))
    (env : TallyEnv) (layer : Option Crdt) (targetBlockHash : String) : Passed :=
  match layer with
  | none => .fails "listener node or CRDT layer not initialized"
  | some crdt =>
    if targetBlockHash = "" then
      .fails targetRequired
    else
      match collectVotes narrowing targetBlockHash (mapOrder.order crdt.objects) with
      | none => .panics
      | some [] => .fails "no votes found in CRDT"
      | some votes =>
        match env.clientError with
        | some error => .fails ("failed to create seed node client: " ++ error)
        | none =>
          match weighted env votes with
          | [] => .fails "no votes found after filtering by weights"
          | votes => .votes votes

/-- `ProcessVotesFromCRDT`.  The maps of the last loop are visited in the order of their
entries; the order matters only for the rounding of the sums. -/
def processVotesFromCRDT (narrowing : Narrowing) (mapOrder : MapOrder (String × CrdtObject))
    (sumOrder : MapOrder WeightedVote) (env : TallyEnv) (layer : Option Crdt)
    (targetBlockHash : String) : Tally :=
  match passedVotes narrowing mapOrder env layer targetBlockHash with
  | .panics => .panics
  | .fails error => .fails error
  | .votes votes =>
    match voteAggregation (sumOrder.order votes) with
    | .error error => .fails ("failed to aggregate votes: " ++ error)
    | .ok true => .result 1 (rejectionReasons votes)
    | .ok false => .result (-1) (rejectionReasons votes)

end Jmdn.Vote
