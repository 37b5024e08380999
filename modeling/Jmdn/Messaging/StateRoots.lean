import Jmdn.Messaging.Admission

/-!
# State roots and histories

Blocks that `linkageDecision` accepts one after another chain their state roots
from the parent's.  Once a parent has a state root, the check is active for every
block that follows, and the last state root determines the history.
-/

namespace Jmdn.Messaging

open Config Security

variable {crypto : Crypto} {tip : UInt64}

/-- Blocks accepted one after another, each one becoming the parent at the tip. -/
def Linked (crypto : Crypto) : UInt64 → ZKBlock → List ZKBlock → Prop
  | _, _, [] => True
  | tip, parent, block :: rest =>
    linkageDecision crypto block (some tip) (some parent) = none ∧
      Linked crypto (tip + 1) block rest

/-- The inputs of 64 bytes that are hashed while a history is checked. -/
def hashedRoots (parent : ZKBlock) : List ZKBlock → List (Hash × Hash)
  | [] => []
  | block :: rest => (parent.stateRoot, block.blockHash) :: hashedRoots block rest

/-- A block accepted over a parent with a state root chains from it. -/
theorem stateRoot_of_linkageDecision {parent block : ZKBlock} (rooted : parent.stateRoot ≠ 0)
    (accepted : linkageDecision crypto block (some tip) (some parent) = none) :
    block.stateRoot = crypto.keccak256 [parent.stateRoot, block.blockHash] := by
  simp only [linkageDecision, stateRootChain, rooted, if_false] at accepted
  split_ifs at accepted with _ _ _ _ chained
  exact Decidable.not_not.mp chained

/-- Histories that end in the same state root started from the same one.  The
induction runs along both; what is hashed stays within `inputs`. -/
theorem Linked.eq_of_stateRoot_eq {inputs : Set (Hash × Hash)}
    (collisionFree : inputs.InjOn fun input => crypto.keccak256 [input.1, input.2])
    (nonzero : ∀ input ∈ inputs, crypto.keccak256 [input.1, input.2] ≠ 0)
    {first second : List ZKBlock} {otherTip : UInt64} {parent otherParent : ZKBlock}
    (linked : Linked crypto tip parent first)
    (otherLinked : Linked crypto otherTip otherParent second) (rooted : parent.stateRoot ≠ 0)
    (otherRooted : otherParent.stateRoot ≠ 0)
    (within : ∀ input ∈ hashedRoots parent first, input ∈ inputs)
    (otherWithin : ∀ input ∈ hashedRoots otherParent second, input ∈ inputs)
    (length : first.length = second.length)
    (sameRoot : (first.getLastD parent).stateRoot = (second.getLastD otherParent).stateRoot) :
    parent.stateRoot = otherParent.stateRoot ∧
      first.map ZKBlock.blockHash = second.map ZKBlock.blockHash := by
  induction first generalizing second tip otherTip parent otherParent with
  | nil =>
    rw [List.eq_nil_of_length_eq_zero length.symm] at sameRoot ⊢
    exact ⟨sameRoot, rfl⟩
  | cons block rest ih =>
    cases second with
    | nil => cases length
    | cons other others =>
      rw [hashedRoots, List.forall_mem_cons] at within otherWithin
      have chained := stateRoot_of_linkageDecision rooted linked.1
      have otherChained := stateRoot_of_linkageDecision otherRooted otherLinked.1
      rw [List.getLastD_cons, List.getLastD_cons] at sameRoot
      obtain ⟨middle, hashes⟩ := ih linked.2 otherLinked.2
        (chained ▸ nonzero _ within.1) (otherChained ▸ nonzero _ otherWithin.1)
        within.2 otherWithin.2 (Nat.succ.inj length) sameRoot
      rw [chained, otherChained] at middle
      obtain ⟨root, hash⟩ := Prod.mk.inj (collisionFree within.1 otherWithin.1 middle)
      exact ⟨root, by rw [List.map_cons, List.map_cons, hash, hashes]⟩

/-- Two accepted histories of one length from one parent with a state root that
end in the same state root have the same block hashes in the same order. -/
theorem same_stateRoot_same_history {parent : ZKBlock} (rooted : parent.stateRoot ≠ 0)
    {tip otherTip : UInt64} {first second : List ZKBlock}
    (linked : Linked crypto tip parent first) (otherLinked : Linked crypto otherTip parent second)
    (collisionFree : Set.InjOn (fun input : Hash × Hash => crypto.keccak256 [input.1, input.2])
      {input | input ∈ hashedRoots parent first ++ hashedRoots parent second})
    (nonzero : ∀ input ∈ hashedRoots parent first ++ hashedRoots parent second,
      crypto.keccak256 [input.1, input.2] ≠ 0)
    (length : first.length = second.length)
    (sameRoot : (first.getLastD parent).stateRoot = (second.getLastD parent).stateRoot) :
    first.map ZKBlock.blockHash = second.map ZKBlock.blockHash :=
  (linked.eq_of_stateRoot_eq collisionFree nonzero otherLinked rooted rooted
    (fun _ => List.mem_append_left _) (fun _ => List.mem_append_right _) length sameRoot).2

/-- Two blocks over a parent at height 4 with state root 2. -/
def linkedBlocks (timestamp : Int64) : List ZKBlock :=
  [{ blockNumber := 5, prevHash := 8, blockHash := 7, stateRoot := 6796, timestamp },
    { blockNumber := 6, prevHash := 7, blockHash := 9, stateRoot := 217412, timestamp }]

theorem linked_blocks_share_hashes :
    (linkedBlocks 0).map ZKBlock.blockHash = (linkedBlocks 60).map ZKBlock.blockHash := by
  have early : Linked sampleCrypto 4 { stateRoot := 2, blockHash := 8 } (linkedBlocks 0) :=
    ⟨by decide +kernel, by decide +kernel, trivial⟩
  have late : Linked sampleCrypto 4 { stateRoot := 2, blockHash := 8 } (linkedBlocks 60) :=
    ⟨by decide +kernel, by decide +kernel, trivial⟩
  -- tested for each listed input, not over all pairs of hashes
  let inputs : List (Hash × Hash) := [(2, 7), (6796, 9), (2, 7), (6796, 9)]
  have tested : inputs.all (fun input => sampleCrypto.keccak256 [input.1, input.2] ≠ 0 ∧
      inputs.all fun other =>
        sampleCrypto.keccak256 [input.1, input.2] = sampleCrypto.keccak256 [other.1, other.2] →
          input = other) = true := by
    decide +kernel
  simp only [List.all_eq_true, decide_eq_true_eq] at tested
  apply same_stateRoot_same_history (by decide) early late
  · exact fun input listed other alsoListed => (tested input listed).2 other alsoListed
  · exact fun input listed => (tested input listed).1
  · rfl
  · rfl

end Jmdn.Messaging
