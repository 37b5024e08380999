import Mathlib.Data.List.ReduceOption
import Jmdn.Nodeinfo.BatchLoop

/-!
# The scan of a reconciliation

The loop of `reconcileBlocksLocally` over the batches of a range, with the number
of calls of the iterator.  The iterator pads the numbers without a block, so the
loop runs to the end of the range a peer reported, however little is stored.
-/

namespace Jmdn.FastsyncV2

open Config DBOPs List Merkle Nodeinfo Transition

variable {fromBlock : UInt64}

/-- The database with the given blocks and markers. -/
def storeDB (store : BlockStore) (markers : Markers) : DB :=
  { blocks := store.blocks, txProcessed := markers }

/-- The body of the loop: the references of a batch, nil positions left out. -/
def reconBody (db : DB) (refs : List BlockReconRef) (batch : List (Option ZKBlock)) :
    List BlockReconRef :=
  refs ++ outstanding db batch.reduceOption

/-- `reconcileBlocksLocally` leaves its loop with the references it hands to
`EnqueueBlockRecons`, or with an error, after a number of iterator calls. -/
def ReconScan (store : BlockStore) (markers : Markers) (env : ScanCalls)
    (fromBlock toBlock : UInt64) (result : Option (List BlockReconRef) × Nat) : Prop :=
  Returns (batchRound store.blocks env (reconBody (storeDB store markers)))
    { iter := newBlockIterator fromBlock toBlock 500, acc := [] } result

/-- The end of the range of phase 5 for the height a peer reports. -/
def remoteBlockNum (blockHeight : UInt64) : UInt64 :=
  if blockHeight = 0 then 18446744073709551615 else blockHeight

/-! ## What is handed over -/

/-- A block with a transaction that is not applied. -/
def unapplied (db : DB) (block : ZKBlock) : Bool :=
  (txHashes block).any fun hash => !db.txApplied hash

def reconRef (block : ZKBlock) : BlockReconRef :=
  { blockNumber := block.blockNumber, blockHash := block.blockHash }

/-- The filter asks for the markers of all blocks at once, with the same result as
block by block. -/
theorem outstanding_eq (db : DB) (blocks : List ZKBlock) :
    outstanding db blocks = (blocks.filter (unapplied db)).map reconRef := by
  unfold outstanding
  dsimp only
  congr 1
  refine filter_congr fun block mem => ?_
  rw [Bool.eq_iff_iff, any_eq_true, unapplied, any_eq_true]
  refine exists_congr fun hash => and_congr_right fun inBlock => ?_
  have asked : hash ∈ blocks.flatMap txHashes := mem_flatMap.mpr ⟨block, mem, inBlock⟩
  rw [decide_eq_true_eq, mem_filterProcessedTxMarkers, and_iff_right asked, DB.txApplied]
  simp

theorem foldl_reconBody (db : DB) (batches : List (List (Option ZKBlock)))
    (refs : List BlockReconRef) :
    batches.foldl (reconBody db) refs = refs ++ outstanding db batches.flatten.reduceOption := by
  induction batches generalizing refs with
  | nil => simp [outstanding_eq, List.reduceOption]
  | cons batch rest ih =>
    rw [foldl_cons, ih, reconBody, append_assoc, flatten_cons,
      reduceOption_append]
    simp only [outstanding_eq, filter_append, map_append]

theorem reduceOption_positions (store : BlockStore) (first last : UInt64) :
    (store.positions first last).reduceOption =
      ((blockNumbers first last).filterMap store.blocks).map configToFastsyncBlock := by
  rw [List.reduceOption, BlockStore.positions, filterMap_map, map_filterMap]
  rfl

/-- What a sync sees of a block has the same reference and transactions. -/
theorem outstanding_positions (store : BlockStore) (db : DB) (first last : UInt64) :
    outstanding db (store.positions first last).reduceOption =
      outstanding db ((blockNumbers first last).filterMap store.blocks) := by
  rw [outstanding_eq, outstanding_eq, reduceOption_positions, filter_map, map_map]
  rfl

/-- Each block of the range with an unapplied transaction is referred to once, and
nothing else is. -/
structure HandsOff (db : DB) (fromBlock toBlock : UInt64) (refs : List BlockReconRef) : Prop where
  once : ∀ number block, db.blocks number = some block → fromBlock ≤ number → number ≤ toBlock →
    unapplied db block = true → refs.count (reconRef block) = 1
  only : ∀ ref ∈ refs, ∃ number block, db.blocks number = some block ∧ fromBlock ≤ number ∧
    number ≤ toBlock ∧ unapplied db block = true ∧ reconRef block = ref

theorem handsOff_outstanding (store : BlockStore) (markers : Markers) (first last : UInt64) :
    HandsOff (storeDB store markers) first last
      (outstanding (storeDB store markers) ((blockNumbers first last).filterMap store.blocks)) := by
  have own : ∀ one two block, block ∈ store.blocks one → block ∈ store.blocks two → one = two := by
    intro one two block inOne inTwo
    rw [← store.keyed one block inOne, store.keyed two block inTwo]
  have distinct := ((nodup_blockNumbers first last).filterMap own).filter
    (unapplied (storeDB store markers))
  have refs : (outstanding (storeDB store markers)
      ((blockNumbers first last).filterMap store.blocks)).Nodup := by
    rw [outstanding_eq]
    refine distinct.map_on fun block mem other mem' same => ?_
    obtain ⟨number, -, found⟩ := mem_filterMap.mp (mem_filter.mp mem).1
    obtain ⟨number', -, found'⟩ := mem_filterMap.mp (mem_filter.mp mem').1
    have equal : block.blockNumber = other.blockNumber := congrArg BlockReconRef.blockNumber same
    rw [store.keyed number block found, store.keyed number' other found'] at equal
    rw [equal, found'] at found
    exact (Option.some.inj found).symm
  constructor
  case once =>
    intro number block found above below pending
    apply count_eq_one_of_mem refs
    rw [outstanding_eq]
    exact mem_map.mpr ⟨block, mem_filter.mpr ⟨mem_filterMap.mpr
      ⟨number, mem_blockNumbers_iff.mpr ⟨above, below⟩, found⟩, pending⟩, rfl⟩
  case only =>
    intro ref mem
    rw [outstanding_eq] at mem
    obtain ⟨block, kept, rfl⟩ := mem_map.mp mem
    obtain ⟨listed, pending⟩ := mem_filter.mp kept
    obtain ⟨number, inRange, found⟩ := mem_filterMap.mp listed
    obtain ⟨above, below⟩ := mem_blockNumbers_iff.mp inRange
    exact ⟨number, block, found, above, below, pending, rfl⟩

/-! ## The number of calls -/

/-- The last window of 500 numbers does not pass the largest number. -/
def WindowFits (fromBlock toBlock : UInt64) : Prop :=
  fromBlock.toNat + (toBlock.toNat - fromBlock.toNat) / 500 * 500 + 500 ≤ 2 ^ 64

theorem reconScan_iff (store : BlockStore) (markers : Markers) {env : ScanCalls}
    (answers : env.Answers) {toBlock : UInt64} (ordered : fromBlock ≤ toBlock)
    {refs : List BlockReconRef} {calls : Nat} :
    ReconScan store markers env fromBlock toBlock (some refs, calls) ↔
      WindowFits fromBlock toBlock ∧ toBlock.toNat + 1 < 2 ^ 64 ∧
        refs = outstanding (storeDB store markers)
          ((blockNumbers fromBlock toBlock).filterMap store.blocks) ∧
        calls = (toBlock.toNat - fromBlock.toNat) / 500 + 2 := by
  have size : (500 : Int64).toUInt64.toNat = 500 := by decide
  have pos : 0 < (500 : Int64).toUInt64.toNat := by decide
  have last := (lastWindow_spec pos ordered).start
  have loop := @returns_batchLoop_iff _ store env answers (reconBody (storeDB store markers)) []
    fromBlock toBlock 500 (by decide) ordered (some refs, calls)
  have gathered : (store.batches fromBlock toBlock (500 : Int64).toUInt64).foldl
      (reconBody (storeDB store markers)) [] = outstanding (storeDB store markers)
        ((blockNumbers fromBlock toBlock).filterMap store.blocks) := by
    rw [foldl_reconBody, nil_append, store.flatten_batches pos ordered,
      outstanding_positions]
  rw [ReconScan, loop, last, size, gathered, WindowFits]
  split_ifs with wraps
  · simp only [Prod.mk.injEq, reduceCtorEq, false_and, false_iff, not_and]
    intro fits
    omega
  · rw [and_iff_right (Nat.not_lt.mp wraps), Prod.mk.injEq, Option.some.injEq]

theorem scanEnds_eq_true_iff {toBlock : UInt64} (ordered : fromBlock ≤ toBlock) :
    scanEnds fromBlock toBlock = true ↔
      WindowFits fromBlock toBlock ∧ toBlock.toNat + 1 < 2 ^ 64 := by
  have size : UInt64.size = 2 ^ 64 := rfl
  rw [scanEnds, Bool.or_eq_true, decide_eq_true_eq, decide_eq_true_eq,
    or_iff_right (UInt64.not_lt.mpr ordered), WindowFits, size, and_comm]
  exact and_congr_left' (by omega)

/-- The loop leaves with the references that the pass of a node with these blocks hands
over. -/
theorem reconScan_iff_scan {node : Node} (keyed : Keyed node.db.blocks) {env : ScanCalls}
    (answers : env.Answers) {sync : SyncEnv} (reads : sync.scanOk = true) {toBlock : UInt64}
    (ordered : fromBlock ≤ toBlock) {refs : List BlockReconRef} :
    (∃ calls, ReconScan ⟨node.db.blocks, keyed⟩ node.db.txProcessed env fromBlock toBlock
        (some refs, calls)) ↔
      (scan sync node.db fromBlock toBlock).map (outstanding node.db) = some refs := by
  simp only [reconScan_iff ⟨node.db.blocks, keyed⟩ node.db.txProcessed answers ordered]
  rw [scan, reads, Bool.true_and]
  split
  · next ends =>
    obtain ⟨fits, room⟩ := (scanEnds_eq_true_iff ordered).mp ends
    rw [Option.map_some, Option.some.injEq]
    constructor
    · rintro ⟨_, -, -, rfl, -⟩
      rfl
    · rintro rfl
      exact ⟨_, fits, room, rfl, rfl⟩
  · next endless =>
    rw [Option.map_none]
    refine iff_of_false ?_ nofun
    rintro ⟨_, fits, room, -, -⟩
    exact endless ((scanEnds_eq_true_iff ordered).mpr ⟨fits, room⟩)

/-- Stored blocks with the highest of their numbers, zero if there are none. -/
structure StoredBlocks extends BlockStore where
  highest : UInt64
  most : ∀ number, (blocks number).isSome → number ≤ highest
  attained : (blocks highest).isSome ∨ highest = 0

/-- `reconcileBlocksLocally` over the range of phase 5 leaves its loop within the
bound given by the stored blocks and hands every outstanding block over once, exactly
if the range is empty, or if it has no more windows than the stored blocks and stays
below the largest number. -/
theorem reconcile_within_bound_iff (store : StoredBlocks) (markers : Markers) {env : ScanCalls}
    (answers : env.Answers) (fromBlock blockHeight : UInt64) :
    (∃ refs calls, ReconScan store.toBlockStore markers env fromBlock
        (remoteBlockNum blockHeight) (some refs, calls) ∧
      calls ≤ (max store.highest.toNat fromBlock.toNat - fromBlock.toNat) / 500 + 2 ∧
      HandsOff (storeDB store.toBlockStore markers) fromBlock (remoteBlockNum blockHeight) refs) ↔
    remoteBlockNum blockHeight < fromBlock ∨
      (remoteBlockNum blockHeight).toNat + 1 < 2 ^ 64 ∧
        WindowFits fromBlock (remoteBlockNum blockHeight) ∧
        ((remoteBlockNum blockHeight).toNat - fromBlock.toNat) / 500 ≤
          (max store.highest.toNat fromBlock.toNat - fromBlock.toNat) / 500 := by
  generalize remoteBlockNum blockHeight = toBlock
  rcases UInt64.lt_or_le toBlock fromBlock with empty | ordered
  · refine iff_of_true ?_ (.inl empty)
    have scan : ReconScan store.toBlockStore markers env fromBlock toBlock (some [], 1) :=
      Returns.leave (batchRound_done answers (next_done store.toBlockStore true empty))
    have nothing := handsOff_outstanding store.toBlockStore markers fromBlock toBlock
    rw [blockNumbers_eq_nil empty] at nothing
    exact ⟨[], 1, scan, by omega, nothing⟩
  · rw [or_iff_right (UInt64.not_lt.mpr ordered)]
    constructor
    · rintro ⟨refs, calls, scan, bounded, -⟩
      obtain ⟨fits, room, -, rfl⟩ :=
        (reconScan_iff store.toBlockStore markers answers ordered).mp scan
      exact ⟨room, fits, by omega⟩
    · rintro ⟨room, fits, few⟩
      have scan := (reconScan_iff store.toBlockStore markers answers ordered).mpr
        ⟨fits, room, rfl, rfl⟩
      exact ⟨_, _, scan, by omega, handsOff_outstanding store.toBlockStore markers _ _⟩

/-! ## A short and a long range -/

/-- A node that has stored block 1 with one transaction. -/
def firstBlock : StoredBlocks where
  blocks number := if number = 1 then some { blockNumber := 1, transactions := [{}] } else none
  keyed := by
    intro number block found
    dsimp only at found
    split at found
    · next same =>
      cases found
      exact same.symm
    · cases found
  highest := 1
  most := by
    intro number stored
    split at stored
    · next same =>
      rw [same]
      exact UInt64.le_rfl
    · cases stored
  attained := Or.inl rfl

theorem one_block_reconciled :
    ∃ refs calls, ReconScan firstBlock.toBlockStore {} {} 1 (remoteBlockNum 400)
        (some refs, calls) ∧
      calls ≤ (max 1 1 - 1) / 500 + 2 ∧
      HandsOff (storeDB firstBlock.toBlockStore {}) 1 (remoteBlockNum 400) refs :=
  (reconcile_within_bound_iff firstBlock {} ⟨fun _ => rfl, fun _ => rfl⟩ 1 400).mpr
    (.inr ⟨by decide, by unfold WindowFits; decide, by decide⟩)

/-- With block 1 alone and a peer at height 2000 the loop takes five calls, where the
stored blocks allow two.  With a peer that reports height 0 it never leaves normally. -/
theorem reported_height_exceeds_bound :
    (¬ ∃ refs calls, ReconScan firstBlock.toBlockStore {} {} 1 (remoteBlockNum 2000)
        (some refs, calls) ∧
      calls ≤ (max 1 1 - 1) / 500 + 2 ∧
      HandsOff (storeDB firstBlock.toBlockStore {}) 1 (remoteBlockNum 2000) refs) ∧
    ¬ ∃ refs calls, ReconScan firstBlock.toBlockStore {} {} 1 (remoteBlockNum 0)
        (some refs, calls) := by
  have answers : (({} : ScanCalls)).Answers := ⟨fun _ => rfl, fun _ => rfl⟩
  constructor
  · rintro ⟨refs, calls, scan, bounded, -⟩
    have ordered : (1 : UInt64) ≤ remoteBlockNum 2000 := by decide
    obtain ⟨-, -, -, rfl⟩ := (reconScan_iff firstBlock.toBlockStore {} answers ordered).mp scan
    exact absurd bounded (by decide)
  · rintro ⟨refs, calls, scan⟩
    have ordered : (1 : UInt64) ≤ remoteBlockNum 0 := by decide
    obtain ⟨-, room, -⟩ := (reconScan_iff firstBlock.toBlockStore {} answers ordered).mp scan
    exact absurd room (by decide)

end Jmdn.FastsyncV2
