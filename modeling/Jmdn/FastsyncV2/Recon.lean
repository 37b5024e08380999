import Jmdn.FastsyncV2.Node

/-!
# Reconciliation passes

The range a pass covers, the hand-over of its blocks to the account queue, the
application of a queue entry, and the two ways a pass advances the applied
anchor (`fastsyncv2.go`, `reconcile_local.go`, `catchup.go`).  A wait for the
queue confirms exactly when every entry was applied.
-/

namespace Jmdn.FastsyncV2

open Config DBOPs List UInt64

variable (env : SyncEnv) (node : Node)

variable {first last : UInt64}

/-! ## Ranges -/

/-- Whether `SeedAppliedAnchor` writes. -/
def seeds (capped : UInt64) : Bool :=
  node.db.appliedAnchor.isNone && (seedAppliedAnchor env.seedOk none capped).isSome

/-- The legacy part of `reconAnchor`: an absent anchor is seeded once with the
legacy watermark, capped at the local tip. -/
def seedFromLegacy : Node :=
  let capped := capAnchorTarget node.legacyRecon (getBlockNumber env node)
  if node.legacyRecon > 0 ∧ seeds env node capped then
    { node with
      db := { node.db with appliedAnchor := some capped }
      legacyRecon := if env.tombstoneOk then 0 else node.legacyRecon
      seed := capped }
  else node

/-- `reconAnchor`: zero when the anchor cannot be read. -/
def reconAnchor : UInt64 :=
  if env.anchorReadOk then (seedFromLegacy env node).anchor else 0

/-- `effectiveReconRange`: the first block not covered yet, and whether nothing is
left. -/
def effectiveReconRange (fromBlock toBlock : UInt64) : UInt64 × Bool :=
  let anchor := reconAnchor env node
  let first := if anchor + 1 > fromBlock then anchor + 1 else fromBlock
  (first, first > toBlock)

/-- The numbers of a range, in ascending order. -/
def blockNumbers (fromBlock toBlock : UInt64) : List UInt64 :=
  (List.range (toBlock.toNat + 1 - fromBlock.toNat)).map fun offset =>
    fromBlock + UInt64.ofNat offset

theorem length_blockNumbers (first last : UInt64) :
    (blockNumbers first last).length = last.toNat + 1 - first.toNat := by
  rw [blockNumbers, length_map, length_range]

theorem blockNumbers_eq_nil (empty : last < first) :
    blockNumbers first last = [] := by
  have order := lt_iff_toNat_lt.mp empty
  apply eq_nil_of_length_eq_zero
  rw [length_blockNumbers]
  omega

/-- A range is cut after any of its numbers but the last. -/
theorem blockNumbers_append {middle : UInt64} (lower : first ≤ middle) (upper : middle < last) :
    blockNumbers first last = blockNumbers first middle ++ blockNumbers (middle + 1) last := by
  have low := le_iff_toNat_le.mp lower
  have high := lt_iff_toNat_lt.mp upper
  have bound := last.toNat_lt
  have next := @toNat_succ middle (by omega)
  have length : last.toNat + 1 - first.toNat =
      (middle.toNat + 1 - first.toNat) + (last.toNat + 1 - (middle + 1).toNat) := by omega
  rw [blockNumbers, length, range_add, map_append, map_map]
  congr 1
  refine map_congr_left fun offset inside => ?_
  rw [mem_range] at inside
  apply UInt64.toNat_inj.mp
  rw [Function.comp_apply, UInt64.toNat_add, UInt64.toNat_add, next, toNat_ofNat',
    toNat_ofNat']
  omega

theorem blockNumbers_self (number : UInt64) : blockNumbers number number = [number] := by
  rw [blockNumbers, Nat.add_sub_cancel_left]
  simp

theorem blockNumbers_cons (ordered : first ≤ last) (room : last.toNat + 1 < 2 ^ 64) :
    blockNumbers first last = first :: blockNumbers (first + 1) last := by
  rcases UInt64.lt_or_eq_of_le ordered with below | rfl
  · rw [blockNumbers_append UInt64.le_rfl below, blockNumbers_self, singleton_append]
  have past : first < first + 1 := by
    rw [lt_iff_toNat_lt, toNat_succ room]
    omega
  rw [blockNumbers_self, blockNumbers_eq_nil past]

theorem mem_blockNumbers_iff {number : UInt64} :
    number ∈ blockNumbers first last ↔ first ≤ number ∧ number ≤ last := by
  rw [le_iff_toNat_le, le_iff_toNat_le, blockNumbers, mem_map]
  have bound := number.toNat_lt
  have bound' := last.toNat_lt
  constructor
  · rintro ⟨offset, inside, rfl⟩
    rw [mem_range] at inside
    rw [UInt64.toNat_add, toNat_ofNat']
    omega
  · rintro ⟨above, below⟩
    refine ⟨number.toNat - first.toNat, mem_range.mpr (by omega), ?_⟩
    apply UInt64.toNat_inj.mp
    rw [UInt64.toNat_add, toNat_ofNat']
    omega

theorem nodup_blockNumbers (first last : UInt64) : (blockNumbers first last).Nodup := by
  refine (nodup_range).map_on fun one oneIn two twoIn same => ?_
  rw [mem_range] at oneIn twoIn
  have bound := last.toNat_lt
  have numbers := congrArg UInt64.toNat same
  rw [UInt64.toNat_add, UInt64.toNat_add, toNat_ofNat', toNat_ofNat'] at numbers
  omega

/-- Whether the block iterator gets through a range: its window of 500 numbers
must not pass the largest number, and the number after the range must exist. -/
def scanEnds (fromBlock toBlock : UInt64) : Bool :=
  toBlock < fromBlock ||
    decide (toBlock.toNat + 1 < UInt64.size ∧
      fromBlock.toNat + (toBlock.toNat - fromBlock.toNat) / 500 * 500 + 499 < UInt64.size)

/-- The stored blocks of a range, as the block iterator finds them. -/
def scan (db : DB) (fromBlock toBlock : UInt64) : Option (List ZKBlock) :=
  if env.scanOk && scanEnds fromBlock toBlock then
    some ((blockNumbers fromBlock toBlock).filterMap db.blocks)
  else none

/-! ## Hand-over -/

/-- The blocks with a transaction that is not applied yet. -/
def outstanding (db : DB) (blocks : List ZKBlock) : List BlockReconRef :=
  let applied := filterProcessedTxMarkers db.txProcessed (blocks.flatMap txHashes)
  (blocks.filter fun block => (txHashes block).any (· ∉ applied)).map fun block =>
    { blockNumber := block.blockNumber, blockHash := block.blockHash }

/-- `applyBlockReconsDirect`: the references that failed, and the database. -/
def applyBlockReconsDirect : List BlockReconRef → DB → List BlockReconRef × DB
  | [], db => ([], db)
  | ref :: rest, db =>
    let outcome := applyBlockRecon (env.direct ref) ref.blockNumber (some ref.blockHash) db
    let later := applyBlockReconsDirect rest outcome.2
    if outcome.1 = .ok () then later else (ref :: later.1, later.2)

/-- The chunks that were enqueued, by their index. -/
def enqueued (chunkList : List (List BlockReconRef)) : List (List BlockReconRef) :=
  (chunkList.zipIdx.filter fun chunk => env.enqueueOk chunk.2).map Prod.fst

/-- The references of the chunks that were not. -/
def unqueued (chunkList : List (List BlockReconRef)) : List BlockReconRef :=
  (chunkList.zipIdx.filter fun chunk => !env.enqueueOk chunk.2).flatMap Prod.fst

/-- `maxRecordsPerMessage`. -/
def maxRecordsPerMessage : Nat := 500

/-- `EnqueueBlockRecons`: the references that failed, and the node. -/
def enqueueBlockRecons (refs : List BlockReconRef) : List BlockReconRef × Node :=
  if refs = [] then ([], node)
  else if env.queueInstalled then
    (unqueued env (chunks maxRecordsPerMessage refs),
      { node with queue := node.queue ++ enqueued env (chunks maxRecordsPerMessage refs) })
  else
    let outcome := applyBlockReconsDirect env refs node.db
    (outcome.1, { node with db := outcome.2 })

/-- What a caller keeps of `reconcileBlocksLocally`: whether it returned an error,
and the blocks that failed. -/
structure Handover where
  failed : Bool
  failedBlocks : List UInt64
  deriving DecidableEq, Repr

/-- `reconcileBlocksLocally`. -/
def reconcileBlocksLocally (fromBlock toBlock : UInt64) : Handover × Node :=
  match scan env node.db fromBlock toBlock with
  | none => ({ failed := true, failedBlocks := [] }, node)
  | some blocks =>
    if env.filterOk then
      let outcome := enqueueBlockRecons env node (outstanding node.db blocks)
      ({ failed := outcome.1 ≠ []
         failedBlocks := outcome.1.map BlockReconRef.blockNumber }, outcome.2)
    else ({ failed := true, failedBlocks := [] }, node)

/-! ## Application -/

/-- The blocks of one queue entry, up to the first that fails. -/
def applyEntry (recon : BlockReconRef → ReconEnv) : List BlockReconRef → DB → Bool × DB
  | [], db => (true, db)
  | ref :: rest, db =>
    let outcome := applyBlockRecon (recon ref) ref.blockNumber (some ref.blockHash) db
    if outcome.1 = .ok () then applyEntry recon rest outcome.2 else (false, outcome.2)

/-- The drain worker on one entry: it leaves the queue when it was applied and
acknowledged. -/
def drain (recon : BlockReconRef → ReconEnv) (ack : Bool) (index : Nat) : Node :=
  match node.queue[index]? with
  | none => node
  | some entry =>
    let outcome := applyEntry recon entry node.db
    { node with
      db := outcome.2
      queue := if outcome.1 && ack then node.queue.eraseIdx index else node.queue }

/-! ## Advancing the anchor -/

/-- `blockNeedsDataSync`. -/
def blockNeedsDataSync (block : ZKBlock) : Bool :=
  block.starkProof = [] || (block.gasUsed > 0 && block.transactions = [])

/-- The variables of `buildDataMissingTag`; `run` is `runStart` while `inRun` is set. -/
structure DataScan where
  cursor : UInt64
  run : Option UInt64 := none
  ranges : List (UInt64 × UInt64) := []

namespace DataScan

/-- `addToRun`. -/
def addToRun (scan : DataScan) (b : UInt64) : DataScan :=
  { scan with run := scan.run <|> some b }

/-- `endRunAt`. -/
def endRunAt (scan : DataScan) (end_ : UInt64) : DataScan :=
  { scan with
    run := none
    ranges := scan.ranges ++ scan.run.elim [] fun runStart => [(runStart, end_)] }

/-- The absent numbers before the next block. -/
def joinGap (scan : DataScan) (b : UInt64) : DataScan :=
  if b > scan.cursor then scan.addToRun scan.cursor else scan

/-- The body of the loop for one element of a batch, for the blocks that need a sync. -/
def step (needs : ZKBlock → Bool) (scan : DataScan) : Option ZKBlock → DataScan
  | none => scan
  | some block =>
    let b := block.blockNumber
    if b < scan.cursor then scan
    else
      let scan := scan.joinGap b
      let scan := if needs block then scan.addToRun b else scan.endRunAt (b - 1)
      { scan with cursor := b + 1 }

/-- The empty batch at the end. -/
def tag (scan : DataScan) (remoteTip : UInt64) : List (UInt64 × UInt64) :=
  let scan := if scan.cursor ≤ remoteTip then scan.addToRun scan.cursor else scan
  (scan.endRunAt remoteTip).ranges

end DataScan

/-- `buildDataMissingTag`. -/
def buildDataMissingTag (db : DB) (fromBlock toBlock : UInt64) : Option (List (UInt64 × UInt64)) :=
  (scan env db fromBlock toBlock).map fun blocks =>
    ((blocks.map some).foldl (.step blockNeedsDataSync) { cursor := fromBlock : DataScan }).tag
      toBlock

/-- `markReconComplete`: whether the anchor covers the target afterwards. -/
def markReconComplete (toBlock : UInt64) : Bool × Node :=
  let target := capAnchorTarget toBlock (trueLocalHead env node)
  -- the wait for the queue confirms exactly when nothing is left in it
  if node.queue = [] ∧ env.anchorConnOk then
    match advanceAppliedAnchorTo env.anchorWriteOk node.db.appliedAnchor target with
    | (none, _) => (false, node)
    | (some (anchor, _), stored) =>
      (anchor ≥ target, { node with db := { node.db with appliedAnchor := stored } })
  else (false, node)

/-- `advanceReconAnchorIfProven`. -/
def advanceReconAnchorIfProven (handover : Handover) (fromBlock toBlock : UInt64) : Bool × Node :=
  let toBlock := capAnchorTarget toBlock (trueLocalHead env node)
  if toBlock < fromBlock then (false, node)
  else
    let verifyPassed := !handover.failed && handover.failedBlocks.length == 0 &&
      buildDataMissingTag env node.db fromBlock toBlock = some []
    if shouldAdvanceReconAnchor handover.failed handover.failedBlocks.length verifyPassed then
      markReconComplete env node toBlock
    else (false, node)

end Jmdn.FastsyncV2
