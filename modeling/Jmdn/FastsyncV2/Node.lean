import Jmdn.DBOPs.Recon

/-!
# The state a sync works on

The keys and in-memory values that `FastsyncV2` and its writers read and write,
next to the databases: the `latest_block` and `header_latest_block` markers, the
legacy watermark in SQLite, the account queue and the sync session of
`DB_OPs/Nodeinfo`.  Account documents fetched from peers are left out, as they
touch none of these.
-/

namespace Jmdn.FastsyncV2

open Config DBOPs

theorem toNat_succ {number : UInt64} (room : number.toNat + 1 < 2 ^ 64) :
    (number + 1).toNat = number.toNat + 1 := by
  rw [UInt64.toNat_add, UInt64.toNat_one, Nat.mod_eq_of_lt room]

/-- `BlockReconRef`: a block handed to the account queue. -/
structure BlockReconRef where
  blockNumber : UInt64
  blockHash : Hash
  deriving DecidableEq, Repr

/-- `syncSession`: how many flows are active, and the highest block they wrote. -/
structure SyncSession where
  active : Nat := 0
  tip : UInt64 := 0
  deriving DecidableEq, Repr

/-- A node.  A queue entry is one message; it stays until all its blocks are
applied.  `legacyRecon` is the legacy watermark, zero when absent or tombstoned.
`seed` is the value the applied anchor started from. -/
structure Node where
  db : DB := {}
  latestBlock : UInt64 := 0
  headerLatestBlock : Option UInt64 := none
  legacyRecon : UInt64 := 0
  queue : List (List BlockReconRef) := []
  session : SyncSession := {}
  seed : UInt64 := 0

/-- The applied anchor; an absent key reads as zero. -/
def Node.anchor (node : Node) : UInt64 :=
  node.db.appliedAnchor.getD 0

/-- Which calls of a sync step succeed, and with what a direct application of a
block meets. -/
structure SyncEnv where
  blockNumberOk : Bool := true
  anchorReadOk : Bool := true
  seedOk : Bool := true
  tombstoneOk : Bool := true
  scanOk : Bool := true
  filterOk : Bool := true
  queueInstalled : Bool := true
  enqueueOk : Nat → Bool := fun _ => true
  direct : BlockReconRef → ReconEnv := fun _ => {}
  anchorConnOk : Bool := true
  anchorWriteOk : Bool := true
  latestOk : Bool := true

variable (env : SyncEnv) (node : Node)

def highest (first second : UInt64) : UInt64 :=
  if second > first then second else first

/-- `GetBlockNumber`: zero when the marker cannot be read. -/
def getBlockNumber : UInt64 :=
  if env.blockNumberOk then node.latestBlock else 0

/-- The block number of `GetBlockDetails`: the headers may be ahead of the data,
and the block at that height has to be stored. -/
def getBlockDetails : UInt64 :=
  if env.blockNumberOk then
    let latestNum := highest node.latestBlock (node.headerLatestBlock.getD 0)
    ((node.db.blocks latestNum).map ZKBlock.blockNumber).getD 0
  else 0

/-- `trueLocalHead`. -/
def trueLocalHead : UInt64 :=
  highest (getBlockNumber env node) node.session.tip

/-- `UpdateLatestBlockMonotonic`. -/
def updateLatestBlockMonotonic (ok : Bool) (blockNumber : UInt64) : Node :=
  if ok then { node with latestBlock := highest node.latestBlock blockNumber } else node

/-! ## Writers -/

def putBlock (db : DB) (block : ZKBlock) : DB :=
  { db with blocks := Function.update db.blocks block.blockNumber (some block) }

/-- The block `WriteHeaders` stores for a header. -/
def skeleton (header : ZKBlock) : ZKBlock :=
  { blockNumber := header.blockNumber, proofHash := header.proofHash
    timestamp := header.timestamp, status := header.status, txnsRoot := header.txnsRoot
    extraData := header.extraData, gasLimit := header.gasLimit, gasUsed := header.gasUsed
    logsBloom := header.logsBloom, stateRoot := header.stateRoot, blockHash := header.blockHash
    prevHash := header.prevHash, coinbaseAddr := header.coinbaseAddr
    zkvmAddr := header.zkvmAddr }

/-- `WriteHeaders`: a stored block is overwritten.  `completed` is whether no
later header of the batch failed. -/
def writeHeaders (headers : List ZKBlock) (completed : Bool) : Node :=
  let written :=
    { node with db := headers.foldl (fun db header => putBlock db (skeleton header)) node.db }
  match headers with
  | [] => written
  | first :: rest =>
    if completed then
      { written with
        headerLatestBlock :=
          some (rest.foldl (fun top header => highest top header.blockNumber) first.blockNumber) }
    else written

/-- The proof data of a block: hash, proof and commitment. -/
structure ZkProof where
  proofHash : String
  starkProof : List UInt8
  commitment : List UInt32

/-- `NonHeaders`: what `DataSync` adds to a block.  `snapshotHash` is the block
hash of the snapshot and `l1` the transaction and block of the L1 finality. -/
structure NonHeaders where
  blockNumber : UInt64
  snapshotHash : Option Hash := none
  zkProof : Option ZkProof := none
  l1 : Option (String × UInt64) := none
  transactions : List Transaction := []

/-- The block `WriteData` stores: the transactions are always overwritten. -/
def mergeData (existing : Option ZKBlock) (data : NonHeaders) : ZKBlock :=
  let block := existing.getD
    { blockNumber := data.blockNumber, blockHash := data.snapshotHash.getD 0 }
  let proved := data.zkProof.elim block fun proof =>
    { block with
      proofHash := proof.proofHash
      starkProof := proof.starkProof
      commitment := proof.commitment }
  let final := data.l1.elim proved fun l1 =>
    { proved with l1TxHash := l1.1, l1BlockNumber := l1.2 }
  { final with transactions := data.transactions }

theorem mergeData_blockNumber (existing : Option ZKBlock) (data : NonHeaders) :
    (mergeData existing data).blockNumber =
      (existing.map ZKBlock.blockNumber).getD data.blockNumber := by
  unfold mergeData
  cases data.zkProof <;> cases data.l1 <;> cases existing <;> rfl

def putData (db : DB) (data : NonHeaders) : DB :=
  putBlock db (mergeData (db.blocks data.blockNumber) data)

/-- `DeferLatestBlockAdvance` or, outside a session, the marker. -/
def noteWritten (latestOk : Bool) (highestWritten : UInt64) : Node :=
  if node.session.active = 0 then updateLatestBlockMonotonic node latestOk highestWritten
  else { node with
    session := { node.session with tip := highest node.session.tip highestWritten } }

/-- `WriteData`. -/
def writeData (data : List NonHeaders) (completed latestOk : Bool) : Node :=
  let written := { node with db := data.foldl putData node.db }
  match data with
  | [] => written
  | first :: rest =>
    if completed then
      noteWritten written latestOk
        (rest.foldl (fun top item => highest top item.blockNumber) first.blockNumber)
    else written

/-! ## Sessions -/

/-- `BeginSyncSession`. -/
def beginSyncSession : Node :=
  { node with session := { node.session with active := node.session.active + 1 } }

/-- The walk of `ReconcileBlockNumber` over stored blocks. -/
def contiguousHead (db : DB) (head : UInt64) : Nat → UInt64
  | 0 => head
  | ahead + 1 =>
    if (db.blocks (head + 1)).isSome then contiguousHead db (head + 1) ahead else head

/-- `ReconcileBlockNumber`: the stored blocks after the marker, at most 500; `none` if
the call does not come back.  `GetBlocksRange` writes a key for each number of the
window: for a window that wraps around it writes none, and up to the largest number it
writes keys until the memory is used up. -/
def reconcileBlockNumber : Option UInt64 :=
  let base := getBlockNumber env node
  if base = 0 then some 0
  else if !env.scanOk then some base
  else if base + 500 = 18446744073709551615 then none
  else if base + 500 < base + 1 then some base
  else some (contiguousHead node.db base 500)

/-- The loop of `endSyncSession`: the marker goes up to what is stored without a
gap and covered by the anchor.  A scan that does not come back is the last thing the
loop does; the node is left as the rounds before it have it. -/
def ratchet (anchor : UInt64) : Nat → Node → Node
  | 0, node => node
  | rounds + 1, node =>
    match reconcileBlockNumber env node with
    | none => node
    | some head =>
      let target := if anchor < head then anchor else head
      if target = 0 ∨ !env.latestOk ∨ target ≤ node.latestBlock then node
      else
        let advanced := { node with latestBlock := target }
        if target ≥ anchor then advanced else ratchet anchor rounds advanced

/-- `endSyncSession`. -/
def endSyncSession : Node :=
  let active := node.session.active - 1
  let ended :=
    { node with session := { active, tip := if active = 0 then 0 else node.session.tip } }
  match if env.anchorReadOk then node.db.appliedAnchor else none with
  | none => ended
  | some anchor => ratchet env anchor 1000 ended

end Jmdn.FastsyncV2
