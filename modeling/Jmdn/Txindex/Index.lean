import Jmdn.FastsyncV2.Recon
import Jmdn.Transition.Run

/-!
# The transaction index

The SQLite index of transactions by address (`DB_OPs/txindex/txindex.go`) and the
block iterator it is filled from (`DB_OPs/BulkGetBlock.go`).  Every SQLite
transaction is one step; between two steps of a catch-up any other operation can
happen.
-/

namespace Jmdn.Txindex

open Config FastsyncV2 Transition

/-! ## Tables -/

/-- A row of `address_txns`. -/
structure Row where
  address : Address
  blockNumber : UInt64
  txHash : Hash
  deriving DecidableEq, Repr

/-- The primary key of `address_txns`. -/
def Row.key (row : Row) : Address × Hash := (row.address, row.txHash)

/-- `INSERT OR IGNORE INTO address_txns`. -/
def insertOrIgnore (rows : List Row) (row : Row) : List Row :=
  if row.key ∈ rows.map Row.key then rows else rows ++ [row]

/-- The rows of one block in the order in which they are inserted: for each
transaction the sender's and then the recipient's, if set. -/
def blockRows (block : ZKBlock) : List Row :=
  block.transactions.flatMap fun tx =>
    (tx.fromAddr.toList ++ tx.toAddr.toList).map fun address =>
      { address, blockNumber := block.blockNumber, txHash := tx.hash }

/-- `address_txns`, and the row of `index_meta` with the key `last_indexed_block`. -/
structure Index where
  rows : List Row := []
  lastIndexed : Option UInt64 := none
  deriving DecidableEq, Repr

/-- `CAST(value AS INTEGER)` of a decimal text: the largest signed value stands for
what does not fit. -/
def castAsInteger (value : UInt64) : Nat := min value.toNat (2 ^ 63 - 1)

/-- `setMetaMonotonicMax`. -/
def setMetaMonotonicMax (value : UInt64) : Option UInt64 → UInt64
  | none => value
  | some old => if castAsInteger old < castAsInteger value then value else old

/-- `lastIndexedBlock`: zero without a row. -/
def lastIndexedBlock (index : Index) : UInt64 := index.lastIndexed.getD 0

/-- The highest number of a batch. -/
def lastBlock (blocks : List ZKBlock) : UInt64 :=
  blocks.foldl (fun last block => if last < block.blockNumber then block.blockNumber else last) 0

/-- `indexBlocks`: one SQLite transaction, which fails without an effect when
`writeOk` is false. -/
def indexBlocks (writeOk : Bool) (blocks : List ZKBlock) (index : Index) : Option Index :=
  if blocks = [] then some index
  else if writeOk then
    some {
      rows := (blocks.flatMap blockRows).foldl insertOrIgnore index.rows
      lastIndexed := some (setMetaMonotonicMax (lastBlock blocks) index.lastIndexed) }
  else none

/-- `IndexBlock`. -/
def indexBlock (writeOk : Bool) (block : ZKBlock) (index : Index) : Option Index :=
  if block.transactions = [] then some index else indexBlocks writeOk [block] index

/-! ## Iterator -/

/-- `migrationBatchSize`. -/
def migrationBatchSize : UInt64 := 500

/-- What a call of `GetBlocksRange` comes to when the database answers.  The loop
over the keys does not end if the last number is the largest of its type. -/
inductive Fetch where
  | fails
  | hangs
  | found (blocks : List ZKBlock)

/-- `GetBlocksRange`.  Numbers without a block are left out.  The sort changes
nothing: each block is stored under its own number. -/
def getBlocksRange (stored : UInt64 → Option ZKBlock) (startBlock endBlock : UInt64) : Fetch :=
  if startBlock > endBlock then .fails
  else
    let totalBlocks := endBlock - startBlock + 1
    -- `int(totalBlocks) <= 0`
    if totalBlocks = 0 ∨ totalBlocks ≥ 2 ^ 63 then .found []
    else if endBlock = UInt64.ofNat (UInt64.size - 1) then .hangs
    else .found ((blockNumbers startBlock endBlock).filterMap stored)

/-- `BlockIterator`. -/
structure BlockIterator where
  currentBlock : UInt64
  endBlock : UInt64
  deriving DecidableEq, Repr

/-- The last number of the next batch. -/
def BlockIterator.batchEnd (iter : BlockIterator) : UInt64 :=
  let batchEnd := iter.currentBlock + migrationBatchSize - 1
  if batchEnd > iter.endBlock then iter.endBlock else batchEnd

/-! ## Operations under way -/

/-- How far a catch-up has come. -/
inductive Phase where
  /-- `EnsureReady` has been called. -/
  | called
  /-- `EnsureReady` has read `last_indexed_block`. -/
  | marked (lastIndexed : UInt64)
  /-- `buildRange` is about to call `Next`. -/
  | range (iter : BlockIterator)
  /-- `buildRange` is about to write a batch. -/
  | batch (blocks : List ZKBlock) (iter : BlockIterator)

/-- A call of `EnsureReady`, if `ensures`, or of `RebuildRange`. -/
structure Job where
  ensures : Bool
  phase : Phase

/-- `asyncQueueSize`. -/
def asyncQueueSize : Nat := 2048

/-- The block store, the index and what is under way.  `returned` holds right after
a step in which `EnsureReady` returned nil. -/
structure State where
  blocks : UInt64 → Option ZKBlock := fun _ => none
  latestBlock : UInt64 := 0
  index : Index := {}
  queue : List ZKBlock := []
  jobs : Nat → Option Job := fun _ => none
  returned : Bool := false

namespace State

/-- A job goes on. -/
def goOn (state : State) (id : Nat) (job : Job) : State :=
  { state with jobs := Function.update state.jobs id (some job), returned := false }

/-- A job returns nil. -/
def returnNil (state : State) (id : Nat) (job : Job) : State :=
  { state with jobs := Function.update state.jobs id none, returned := job.ensures }

/-- A job returns an error. -/
def returnError (state : State) (id : Nat) : State :=
  { state with jobs := Function.update state.jobs id none, returned := false }

/-- The next step of `buildRange`. -/
def nextBatch (state : State) (id : Nat) (job : Job) (iter : BlockIterator) : Option State :=
  if iter.currentBlock > iter.endBlock then some (state.returnNil id job)
  else
    match getBlocksRange state.blocks iter.currentBlock iter.batchEnd with
    | .hangs => none
    | .fails => some (state.returnError id)
    | .found [] => some (state.returnNil id job)
    | .found (first :: rest) =>
      some (state.goOn id { job with
        phase := .batch (first :: rest) { iter with currentBlock := iter.batchEnd + 1 } })

/-- `EnsureReady` after both reads. -/
def compare (state : State) (id : Nat) (job : Job) (lastIndexed : UInt64) : State :=
  if state.latestBlock = 0 ∨ lastIndexed ≥ state.latestBlock then state.returnNil id job
  else
    state.goOn id { job with
      phase := .range {
        currentBlock := if lastIndexed = 0 then 0 else lastIndexed + 1
        endBlock := state.latestBlock } }

/-- The next step of a job; `ok` is false when its database access fails or its
context has ended. -/
def advance (state : State) (id : Nat) (job : Job) (ok : Bool) : Option State :=
  if ok then
    match job.phase with
    | .called =>
      some (state.goOn id { job with phase := .marked (lastIndexedBlock state.index) })
    | .marked lastIndexed => some (state.compare id job lastIndexed)
    | .range iter => state.nextBatch id job iter
    | .batch blocks iter =>
      (indexBlocks true blocks state.index).map fun index =>
        { state.goOn id { job with phase := .range iter } with index }
  else some (state.returnError id)

end State

/-- What can happen to the block store and the index. -/
inductive Event where
  /-- A block is written under its number. -/
  | store (block : ZKBlock)
  /-- `latest_block` is written. -/
  | setLatest (number : UInt64)
  /-- `IndexBlockAsync`. -/
  | enqueue (block : ZKBlock)
  /-- `asyncIndexWorker` takes the next block. -/
  | work (writeOk : Bool)
  | ensureReady (id : Nat)
  | rebuildRange (id : Nat) (fromBlock toBlock : UInt64)
  /-- The truncation of `RebuildIndex`; the rest of it is a call of `EnsureReady`. -/
  | rebuildIndex (id : Nat) (writeOk : Bool)
  | advance (id : Nat) (ok : Bool)
  | restart

/-- One event.  A new call takes an identifier that is not in use. -/
def step : Step State Event
  | state, .store block =>
    some { state with
      blocks := Function.update state.blocks block.blockNumber (some block)
      returned := false }
  | state, .setLatest number => some { state with latestBlock := number, returned := false }
  | state, .enqueue block =>
    some { state with
      queue := if state.queue.length < asyncQueueSize then state.queue ++ [block]
        else state.queue
      returned := false }
  | state, .work writeOk =>
    match state.queue with
    | [] => none
    | block :: queue =>
      some { state with
        index := (indexBlock writeOk block state.index).getD state.index
        queue
        returned := false }
  | state, .ensureReady id =>
    match state.jobs id with
    | some _ => none
    | none => some (state.goOn id { ensures := true, phase := .called })
  | state, .rebuildRange id fromBlock toBlock =>
    match state.jobs id with
    | some _ => none
    | none =>
      some (state.goOn id { ensures := false, phase := .range ⟨fromBlock, toBlock⟩ })
  | state, .rebuildIndex id writeOk =>
    match state.jobs id with
    | some _ => none
    | none =>
      if writeOk then
        some { state.goOn id { ensures := true, phase := .called } with index := {} }
      else some { state with returned := false }
  | state, .advance id ok =>
    match state.jobs id with
    | none => none
    | some job => state.advance id job ok
  | state, .restart =>
    some { state with queue := [], jobs := fun _ => none, returned := false }

end Jmdn.Txindex
