import Jmdn.Merkle.Leaf
import Jmdn.Transition.Loop
import Jmdn.Txindex.Index

/-!
# The block iterator of a sync

`dbBlockIterator` of `DB_OPs/Nodeinfo`: two cursors over a range of block
numbers, one from each end, that read the store in batches and pad the numbers
without a block.  The cursors are 64-bit words, so a window may pass the largest
number, and a window that ends there is never read.
-/

namespace Jmdn.Nodeinfo

open Config DBOPs FastsyncV2 List Merkle Transition Txindex UInt64

variable {endBlock : UInt64}

/-! ## Stores -/

/-- The stored blocks. -/
structure BlockStore where
  blocks : UInt64 → Option ZKBlock
  keyed : Keyed blocks

/-! ## Reads -/

/-- The read of a range in its three cases. -/
theorem getBlocksRange_eq (stored : UInt64 → Option ZKBlock) {startBlock : UInt64}
    (ordered : startBlock ≤ endBlock) (small : endBlock.toNat - startBlock.toNat + 1 < 2 ^ 63) :
    getBlocksRange stored startBlock endBlock =
      if endBlock.toNat + 1 < 2 ^ 64 then
        .found ((blockNumbers startBlock endBlock).filterMap stored)
      else .hangs := by
  have order := le_iff_toNat_le.mp ordered
  have bound := endBlock.toNat_lt
  have total : (endBlock - startBlock + 1).toNat = endBlock.toNat - startBlock.toNat + 1 := by
    rw [UInt64.toNat_add, UInt64.toNat_sub_of_le _ _ ordered, toNat_one,
      Nat.mod_eq_of_lt (by omega)]
  have counted : ¬(endBlock - startBlock + 1 = 0 ∨ endBlock - startBlock + 1 ≥ 2 ^ 63) := by
    rintro (zero | large)
    · rw [zero] at total
      exact absurd total.symm (Nat.succ_ne_zero _)
    · have most : (2 ^ 63 : UInt64).toNat = 2 ^ 63 := by decide +kernel
      have wide := le_iff_toNat_le.mp large
      omega
  have last : endBlock = UInt64.ofNat (UInt64.size - 1) ↔ ¬ endBlock.toNat + 1 < 2 ^ 64 := by
    have most : (UInt64.ofNat (UInt64.size - 1)).toNat = 2 ^ 64 - 1 := rfl
    rw [← UInt64.toNat_inj, most]
    omega
  rw [getBlocksRange, if_neg (UInt64.not_lt.mpr ordered)]
  dsimp only
  rw [if_neg counted]
  simp only [last, ite_not]

/-! ## The iterator -/

/-- `dbBlockIterator`. -/
structure DbBlockIterator where
  current : UInt64
  tail : UInt64
  start : UInt64
  end_ : UInt64
  batchsize : UInt64
  tailDone : Bool := false
  deriving DecidableEq, Repr

/-- `NewBlockIterator`. -/
def newBlockIterator (start end_ : UInt64) (batchsize : Int64) : DbBlockIterator :=
  { current := start, tail := end_, start, end_, batchsize := batchsize.toUInt64 }

/-- What a call of `Next` or `Prev` comes to. -/
inductive Batch where
  | fails
  | hangs
  | blocks (ptrs : List (Option ZKBlock))
  deriving DecidableEq, Repr

/-- An entry of `blockMap`: of two blocks with one number the later stays. -/
def blockMap (blocks : List ZKBlock) (number : UInt64) : Option ZKBlock :=
  blocks.reverse.find? fun block => block.blockNumber = number

/-- The slice `ptrs`: a position without a block stays nil. -/
def padded (blocks : List ZKBlock) (batchStart batchEnd : UInt64) : List (Option ZKBlock) :=
  (List.range (batchEnd - batchStart + 1).toNat).map fun pos =>
    (blockMap blocks (batchStart + UInt64.ofNat pos)).map configToFastsyncBlock

/-- The last number of the next batch. -/
def DbBlockIterator.batchEnd (iter : DbBlockIterator) : UInt64 :=
  let batchEnd := iter.current + iter.batchsize - 1
  if batchEnd > iter.end_ then iter.end_ else batchEnd

/-- The first number of the next batch from the end. -/
def DbBlockIterator.batchStart (iter : DbBlockIterator) : UInt64 :=
  let batchStart := if iter.tail ≥ iter.batchsize then iter.tail - iter.batchsize + 1 else 0
  if batchStart < iter.start then iter.start else batchStart

section

variable (stored : UInt64 → Option ZKBlock)

/-- `Next`; `ok` is whether there is a connection and the database answers. -/
def DbBlockIterator.next (ok : Bool) (iter : DbBlockIterator) : Batch × DbBlockIterator :=
  if iter.current > iter.end_ then (.blocks [], iter)
  else if ok then
    match getBlocksRange stored iter.current iter.batchEnd with
    | .fails => (.fails, iter)
    | .hangs => (.hangs, iter)
    | .found blocks =>
      (.blocks (padded blocks iter.current iter.batchEnd),
        { iter with current := iter.batchEnd + 1 })
  else (.fails, iter)

/-- `Prev`. -/
def DbBlockIterator.prev (ok : Bool) (iter : DbBlockIterator) : Batch × DbBlockIterator :=
  if iter.tailDone ∨ iter.tail < iter.start then (.blocks [], iter)
  else if ok then
    match getBlocksRange stored iter.batchStart iter.tail with
    | .fails => (.fails, iter)
    | .hangs => (.hangs, iter)
    | .found blocks =>
      (.blocks (padded blocks iter.batchStart iter.tail).reverse,
        if iter.batchStart ≤ iter.start then { iter with tailDone := true }
        else { iter with tail := iter.batchStart - 1 })
  else (.fails, iter)

end

/-- The positions of a range: each stored block, or nil for a gap. -/
def BlockStore.positions (store : BlockStore) (first last : UInt64) : List (Option ZKBlock) :=
  (blockNumbers first last).map fun number => (store.blocks number).map configToFastsyncBlock

/-- The map of a batch holds the stored blocks of its range. -/
theorem BlockStore.blockMap_eq (store : BlockStore) {numbers : List UInt64} {number : UInt64}
    (listed : number ∈ numbers) :
    blockMap (numbers.filterMap store.blocks) number = store.blocks number := by
  have own : ∀ block ∈ (numbers.filterMap store.blocks).reverse, block.blockNumber = number →
      store.blocks number = some block := by
    intro block mem named
    obtain ⟨other, -, found⟩ := mem_filterMap.mp (mem_reverse.mp mem)
    rw [← named, store.keyed other block found]
    exact found
  cases result : blockMap (numbers.filterMap store.blocks) number with
  | none =>
    cases found : store.blocks number with
    | none => rfl
    | some block =>
      have mem := mem_reverse.mpr (mem_filterMap.mpr ⟨number, listed, found⟩)
      have absent := List.find?_eq_none.mp result block mem
      exact absurd (store.keyed number block found) (by simpa using absent)
  | some block =>
    have named : block.blockNumber = number := by simpa using List.find?_some result
    exact (own block (mem_of_find?_eq_some result) named).symm

theorem BlockStore.padded_eq (store : BlockStore) {first last : UInt64} (ordered : first ≤ last)
    (room : last.toNat - first.toNat + 1 < 2 ^ 64) :
    padded ((blockNumbers first last).filterMap store.blocks) first last =
      store.positions first last := by
  have order := le_iff_toNat_le.mp ordered
  have count : (last - first + 1).toNat = last.toNat + 1 - first.toNat := by
    rw [UInt64.toNat_add, UInt64.toNat_sub_of_le _ _ ordered, toNat_one,
      Nat.mod_eq_of_lt room]
    omega
  rw [padded, count, positions, blockNumbers, map_map]
  refine map_congr_left fun pos inside => ?_
  rw [Function.comp_apply]
  congr 1
  exact store.blockMap_eq (mem_map.mpr ⟨pos, inside, rfl⟩)

/-! ## One call -/

/-- The end of the window from a cursor, before it is cut to the range. -/
theorem toNat_window (cursor : UInt64) {size : UInt64} (positive : 0 < size.toNat) :
    (cursor + size - 1).toNat = (cursor.toNat + size.toNat - 1) % 2 ^ 64 := by
  have bound := cursor.toNat_lt
  have bound' := size.toNat_lt
  rw [UInt64.toNat_sub, UInt64.toNat_add, toNat_one]
  omega

variable {iter : DbBlockIterator}

section

variable (positive : 0 < iter.batchsize.toNat)
include positive

/-- A window that ends in the range. -/
theorem batchEnd_far (far : iter.current.toNat + iter.batchsize.toNat ≤ iter.end_.toNat) :
    iter.batchEnd = iter.current + iter.batchsize - 1 := by
  have bound := iter.end_.toNat_lt
  refine if_neg (UInt64.not_lt.mpr ?_)
  rw [le_iff_toNat_le, toNat_window _ positive, Nat.mod_eq_of_lt (by omega)]
  omega

/-- A window that ends at or after the range. -/
theorem batchEnd_near (fits : iter.current.toNat + iter.batchsize.toNat ≤ 2 ^ 64)
    (near : iter.end_.toNat < iter.current.toNat + iter.batchsize.toNat) :
    iter.batchEnd = iter.end_ := by
  have window := toNat_window iter.current positive
  rw [Nat.mod_eq_of_lt (by omega)] at window
  unfold DbBlockIterator.batchEnd
  dsimp only
  split
  · rfl
  next below =>
  have least := le_iff_toNat_le.mp (UInt64.not_lt.mp below)
  apply UInt64.toNat_inj.mp
  omega

/-- A window that passes the largest number ends before it begins. -/
theorem batchEnd_wraps (open_ : iter.current ≤ iter.end_)
    (wraps : 2 ^ 64 < iter.current.toNat + iter.batchsize.toNat) :
    iter.batchEnd < iter.current := by
  have bound := iter.current.toNat_lt
  have bound' := iter.batchsize.toNat_lt
  have order := le_iff_toNat_le.mp open_
  have window := toNat_window iter.current positive
  have small : (iter.current + iter.batchsize - 1).toNat < iter.current.toNat := by omega
  have inside : ¬ iter.current + iter.batchsize - 1 > iter.end_ := by
    rw [gt_iff_lt, lt_iff_toNat_lt]
    omega
  rw [DbBlockIterator.batchEnd, if_neg inside]
  exact lt_iff_toNat_lt.mpr small

end

section

variable (store : BlockStore) {iter : DbBlockIterator}

theorem next_done (ok : Bool) (done : iter.end_ < iter.current) :
    iter.next store.blocks ok = (.blocks [], iter) :=
  if_pos done

/-- A window that passes the largest number fails. -/
theorem next_fails (positive : 0 < iter.batchsize.toNat) (open_ : iter.current ≤ iter.end_)
    (wraps : 2 ^ 64 < iter.current.toNat + iter.batchsize.toNat) :
    iter.next store.blocks true = (.fails, iter) := by
  have backwards := batchEnd_wraps positive open_ wraps
  rw [DbBlockIterator.next, if_neg (UInt64.not_lt.mpr open_), if_pos rfl, getBlocksRange,
    if_pos backwards]

/-- The read of the next window, if it neither passes the largest number nor is cut
to nothing. -/
theorem next_eq (small : iter.batchEnd.toNat - iter.current.toNat + 1 < 2 ^ 63)
    (open_ : iter.current ≤ iter.end_) (ordered : iter.current ≤ iter.batchEnd) :
    iter.next store.blocks true =
      if iter.batchEnd.toNat + 1 < 2 ^ 64 then
        (.blocks (store.positions iter.current iter.batchEnd),
          { iter with current := iter.batchEnd + 1 })
      else (.hangs, iter) := by
  rw [DbBlockIterator.next, if_neg (UInt64.not_lt.mpr open_), if_pos rfl,
    getBlocksRange_eq store.blocks ordered small]
  split_ifs with room
  · dsimp only
    rw [store.padded_eq ordered (by omega)]
  · rfl

/-- A window that ends in the range. -/
theorem next_far (positive : 0 < iter.batchsize.toNat) (small : iter.batchsize.toNat < 2 ^ 63)
    (far : iter.current.toNat + iter.batchsize.toNat ≤ iter.end_.toNat) :
    iter.next store.blocks true =
      (.blocks (store.positions iter.current (iter.current + iter.batchsize - 1)),
        { iter with current := iter.current + iter.batchsize }) := by
  have bound := iter.end_.toNat_lt
  have window := toNat_window iter.current positive
  rw [Nat.mod_eq_of_lt (by omega)] at window
  have last := batchEnd_far positive far
  have open_ : iter.current ≤ iter.end_ := le_iff_toNat_le.mpr (by omega)
  have ordered : iter.current ≤ iter.batchEnd := by
    rw [last, le_iff_toNat_le, window]
    omega
  have room : iter.batchEnd.toNat + 1 < 2 ^ 64 := by
    rw [last, window]
    omega
  have size : iter.batchEnd.toNat - iter.current.toNat + 1 < 2 ^ 63 := by
    rw [last, window]
    omega
  rw [next_eq store size open_ ordered, if_pos room, last, UInt64.sub_add_cancel]

/-- The last window of a range. -/
theorem next_near (positive : 0 < iter.batchsize.toNat) (small : iter.batchsize.toNat < 2 ^ 63)
    (open_ : iter.current ≤ iter.end_)
    (fits : iter.current.toNat + iter.batchsize.toNat ≤ 2 ^ 64)
    (near : iter.end_.toNat < iter.current.toNat + iter.batchsize.toNat) :
    iter.next store.blocks true =
      if iter.end_.toNat + 1 < 2 ^ 64 then
        (.blocks (store.positions iter.current iter.end_), { iter with current := iter.end_ + 1 })
      else (.hangs, iter) := by
  have last := batchEnd_near positive fits near
  have ordered : iter.current ≤ iter.batchEnd := by
    rw [last]
    exact open_
  have size : iter.batchEnd.toNat - iter.current.toNat + 1 < 2 ^ 63 := by
    rw [last]
    omega
  rw [next_eq store size open_ ordered, last]

end

end Jmdn.Nodeinfo
