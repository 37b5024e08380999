import Jmdn.FastsyncV2.Node
import Jmdn.Go.Bytes

/-!
# Blocks on the sync wire

The protobuf messages of a block: `GetBlockHeaders` and
`convertZKBlockToNonHeaders` on the sending side, `WriteHeaders` and `WriteData`
on the receiving side.  Absent bytes and empty bytes are the same message.  The
JSON text of the L1 metadata is the pair it denotes.
-/

namespace Jmdn.Nodeinfo

open Config DBOPs FastsyncV2 Go List

/-- `blockpb.Header`. -/
structure Header where
  proofHash : String := ""
  status : String := ""
  txnsRoot : String := ""
  timestamp : Int64 := 0
  extraData : String := ""
  stateRoot : List UInt8 := []
  blockHash : List UInt8 := []
  prevHash : List UInt8 := []
  gasLimit : UInt64 := 0
  gasUsed : UInt64 := 0
  blockNumber : UInt64 := 0
  logsBloom : List UInt8 := []
  coinbaseAddr : List UInt8 := []
  zkvmAddr : List UInt8 := []

/-- `blockpb.AccessTuple`. -/
structure WireAccessTuple where
  address : List UInt8
  storageKeys : List (List UInt8)

/-- `blockpb.Transaction`. -/
structure WireTransaction where
  hash : List UInt8 := []
  fromAddr : List UInt8 := []
  toAddr : List UInt8 := []
  value : List UInt8 := []
  txType : UInt32 := 0
  timestamp : UInt64 := 0
  chainId : List UInt8 := []
  nonce : UInt64 := 0
  gasLimit : UInt64 := 0
  gasPrice : List UInt8 := []
  maxFee : List UInt8 := []
  maxPriorityFee : List UInt8 := []
  data : List UInt8 := []
  accessList : List WireAccessTuple := []
  v : List UInt8 := []
  r : List UInt8 := []
  s : List UInt8 := []

/-- `blockpb.ZKProof`. -/
structure WireProof where
  proofHash : String
  starkProof : List UInt8
  commitment : List UInt8

/-- `blockpb.NonHeaders`; `snapshot` is the block hash of the snapshot record. -/
structure WireNonHeaders where
  blockNumber : UInt64
  snapshot : Option (List UInt8) := none
  zkProof : Option WireProof := none
  l1Finality : Option (String × UInt64) := none
  transactions : List (Option WireTransaction) := []

/-! ## Sending -/

/-- The bytes of a number that may be absent. -/
def numberBytes (number : Option Int) : List UInt8 :=
  number.elim [] fun present => bytes present.natAbs

/-- The bytes of an address that may be absent. -/
def addressBytes (address : Option Address) : List UInt8 :=
  address.elim [] wordBytes

/-- The header `GetBlockHeaders` sends. -/
def blockHeader (block : ZKBlock) : Header :=
  { proofHash := block.proofHash
    status := block.status
    txnsRoot := block.txnsRoot
    timestamp := block.timestamp
    extraData := block.extraData
    stateRoot := wordBytes block.stateRoot
    blockHash := wordBytes block.blockHash
    prevHash := wordBytes block.prevHash
    gasLimit := block.gasLimit
    gasUsed := block.gasUsed
    blockNumber := block.blockNumber
    logsBloom := block.logsBloom
    coinbaseAddr := addressBytes block.coinbaseAddr
    zkvmAddr := addressBytes block.zkvmAddr }

/-- `commitmentToBytes`: four bytes each, little-endian. -/
def commitmentToBytes (commitment : List UInt32) : List UInt8 :=
  commitment.flatMap fun word => (fixedBytes 4 word.toNat).reverse

/-- One transaction of `convertZKBlockToNonHeaders`. -/
def wireTransaction (tx : Transaction) : WireTransaction :=
  { hash := wordBytes tx.hash
    fromAddr := addressBytes tx.fromAddr
    toAddr := addressBytes tx.toAddr
    value := numberBytes tx.value
    txType := tx.txType.toUInt32
    timestamp := tx.timestamp
    chainId := numberBytes tx.chainID
    nonce := tx.nonce
    gasLimit := tx.gasLimit
    gasPrice := numberBytes tx.gasPrice
    maxFee := numberBytes tx.maxFee
    maxPriorityFee := numberBytes tx.maxPriorityFee
    data := tx.data
    accessList := tx.accessList.map fun tuple =>
      { address := wordBytes tuple.address, storageKeys := tuple.storageKeys.map wordBytes }
    v := numberBytes tx.v
    r := numberBytes tx.r
    s := numberBytes tx.s }

/-- `convertZKBlockToNonHeaders`. -/
def convertZKBlockToNonHeaders (block : ZKBlock) : WireNonHeaders :=
  { blockNumber := block.blockNumber
    snapshot := some (wordBytes block.blockHash)
    zkProof :=
      if block.proofHash ≠ "" then
        some
          { proofHash := block.proofHash
            starkProof := block.starkProof
            commitment := commitmentToBytes block.commitment }
      else none
    l1Finality :=
      if block.l1TxHash ≠ "" then some (block.l1TxHash, block.l1BlockNumber) else none
    transactions := block.transactions.map fun tx => some (wireTransaction tx) }

/-! ## Receiving -/

/-- The number read from bytes; no bytes leave it unset. -/
def readNumber (data : List UInt8) : Option Int :=
  if data = [] then none else some (setBytes data)

/-- The address read from bytes. -/
def readAddress (data : List UInt8) : Option Address :=
  if data = [] then none else some (bytesToWord 160 data)

/-- The hash read from bytes; no bytes leave it zero. -/
def readHash (data : List UInt8) : Hash :=
  if data = [] then 0 else bytesToWord 256 data

/-- What `WriteHeaders` reads of a header. -/
def readHeader (header : Header) : ZKBlock :=
  { proofHash := header.proofHash
    status := header.status
    txnsRoot := header.txnsRoot
    timestamp := header.timestamp
    extraData := header.extraData
    stateRoot := readHash header.stateRoot
    blockHash := readHash header.blockHash
    prevHash := readHash header.prevHash
    gasLimit := header.gasLimit
    gasUsed := header.gasUsed
    blockNumber := header.blockNumber
    logsBloom := header.logsBloom
    coinbaseAddr := readAddress header.coinbaseAddr
    zkvmAddr := readAddress header.zkvmAddr }

/-- `bytesToCommitment`; a rest of less than four bytes is dropped. -/
def bytesToCommitment : List UInt8 → List UInt32
  | a :: b :: c :: d :: rest => UInt32.ofNat (setBytes [d, c, b, a]) :: bytesToCommitment rest
  | _ => []

/-- What `WriteData` reads of a transaction. -/
def readTransaction (tx : WireTransaction) : Transaction :=
  { hash := readHash tx.hash
    fromAddr := readAddress tx.fromAddr
    toAddr := readAddress tx.toAddr
    value := readNumber tx.value
    txType := tx.txType.toUInt8
    timestamp := tx.timestamp
    chainID := readNumber tx.chainId
    nonce := tx.nonce
    gasLimit := tx.gasLimit
    gasPrice := readNumber tx.gasPrice
    maxFee := readNumber tx.maxFee
    maxPriorityFee := readNumber tx.maxPriorityFee
    data := tx.data
    accessList := tx.accessList.map fun tuple =>
      { address := bytesToWord 160 tuple.address
        storageKeys := tuple.storageKeys.map (bytesToWord 256) }
    v := readNumber tx.v
    r := readNumber tx.r
    s := readNumber tx.s }

/-- What `WriteData` reads of a message. -/
def readNonHeaders (message : WireNonHeaders) : NonHeaders :=
  { blockNumber := message.blockNumber
    snapshotHash := message.snapshot.map readHash
    zkProof := message.zkProof.map fun proof =>
      { proofHash := proof.proofHash
        starkProof := proof.starkProof
        commitment := bytesToCommitment proof.commitment }
    l1 := message.l1Finality.filter fun l1 => l1.1 ≠ ""
    transactions := (message.transactions.filterMap id).map readTransaction }

/-- A block sent to a node: its header first, then its data. -/
def syncBlock (latestOk : Bool) (block : ZKBlock) (node : Node) : Node :=
  writeData (writeHeaders node [readHeader (blockHeader block)] true)
    [readNonHeaders (convertZKBlockToNonHeaders block)] true latestOk

/-! ## What arrives -/

/-- A number after the transport: only its magnitude, and nothing if it is zero. -/
def carriedNumber (number : Option Int) : Option Int :=
  (number.map fun present => (present.natAbs : Int)).filter (· ≠ 0)

/-- A transaction after the transport. -/
def carriedTransaction (tx : Transaction) : Transaction :=
  { tx with
    value := carriedNumber tx.value
    chainID := carriedNumber tx.chainID
    gasPrice := carriedNumber tx.gasPrice
    maxFee := carriedNumber tx.maxFee
    maxPriorityFee := carriedNumber tx.maxPriorityFee
    v := carriedNumber tx.v
    r := carriedNumber tx.r
    s := carriedNumber tx.s }

/-- A block after the transport: the proof travels only with a proof hash and the
L1 block only with an L1 transaction; fee recipients and identity nonces do not. -/
def carriedBlock (block : ZKBlock) : ZKBlock :=
  { block with
    starkProof := if block.proofHash ≠ "" then block.starkProof else []
    commitment := if block.proofHash ≠ "" then block.commitment else []
    transactions := block.transactions.map carriedTransaction
    feeRecipients := []
    l1BlockNumber := if block.l1TxHash ≠ "" then block.l1BlockNumber else 0
    accountNonces := [] }

section

variable (tx : Transaction) (block : ZKBlock)

@[simp]
theorem carriedTransaction_hash : (carriedTransaction tx).hash = tx.hash :=
  rfl

@[simp]
theorem carriedTransaction_fromAddr : (carriedTransaction tx).fromAddr = tx.fromAddr :=
  rfl

@[simp]
theorem carriedTransaction_toAddr : (carriedTransaction tx).toAddr = tx.toAddr :=
  rfl

@[simp]
theorem carriedTransaction_nonce : (carriedTransaction tx).nonce = tx.nonce :=
  rfl

@[simp]
theorem carriedBlock_coinbaseAddr : (carriedBlock block).coinbaseAddr = block.coinbaseAddr :=
  rfl

@[simp]
theorem carriedBlock_zkvmAddr : (carriedBlock block).zkvmAddr = block.zkvmAddr :=
  rfl

theorem carriedBlock_txHashes : txHashes (carriedBlock block) = txHashes block := by
  simp [txHashes, carriedBlock]

end

@[simp]
theorem readNumber_numberBytes (number : Option Int) :
    readNumber (numberBytes number) = carriedNumber number := by
  cases number with
  | none => rfl
  | some present =>
    by_cases zero : present = 0 <;>
      simp [readNumber, numberBytes, carriedNumber, bytes_eq_nil_iff, zero, Option.filter]

@[simp]
theorem readAddress_addressBytes (addr : Option Address) :
    readAddress (addressBytes addr) = addr := by
  cases addr with
  | none => rfl
  | some present =>
    have nonempty := wordBytes_ne_nil (by decide) present
    simp [readAddress, addressBytes, nonempty]

@[simp]
theorem readHash_wordBytes (hash : Hash) : readHash (wordBytes hash) = hash := by
  rw [readHash, if_neg (wordBytes_ne_nil (by decide) hash), bytesToWord_wordBytes]

@[simp]
theorem readTransaction_wireTransaction (tx : Transaction) :
    readTransaction (wireTransaction tx) = carriedTransaction tx := by
  simp [readTransaction, wireTransaction, carriedTransaction, Function.comp_def]

theorem bytesToCommitment_commitmentToBytes (commitment : List UInt32) :
    bytesToCommitment (commitmentToBytes commitment) = commitment := by
  induction commitment with
  | nil => rfl
  | cons word rest ih =>
    have four : (fixedBytes 4 word.toNat).length = 4 :=
      fixedBytes_length (by have := word.toNat_lt; omega)
    have value := setBytes_fixedBytes 4 word.toNat
    unfold commitmentToBytes at ih ⊢
    rw [flatMap_cons]
    match array : fixedBytes 4 word.toNat, four with
    | [a, b, c, d], _ =>
      rw [array] at value
      simp [bytesToCommitment, value, ih]

theorem noteWritten_db (node : Node) (latestOk : Bool) (highestWritten : UInt64) :
    (noteWritten node latestOk highestWritten).db = node.db := by
  unfold noteWritten updateLatestBlockMonotonic
  split_ifs <;> rfl

/-- The block under the number of the data `WriteData` stored. -/
theorem writeData_stored (node : Node) (data : NonHeaders) (latestOk : Bool)
    (same : (mergeData (node.db.blocks data.blockNumber) data).blockNumber = data.blockNumber) :
    (writeData node [data] true latestOk).db.blocks data.blockNumber =
      some (mergeData (node.db.blocks data.blockNumber) data) := by
  simp only [writeData, if_true, noteWritten_db, foldl_cons, foldl_nil, putData, putBlock,
    same, Function.update_self]

/-- Data over the skeleton of the same block is the whole block. -/
theorem mergeData_skeleton (block : ZKBlock) :
    mergeData (some (skeleton (readHeader (blockHeader block))))
      (readNonHeaders (convertZKBlockToNonHeaders block)) = carriedBlock block := by
  by_cases proof : block.proofHash = "" <;> by_cases l1 : block.l1TxHash = "" <;>
    simp [mergeData, skeleton, readHeader, blockHeader, readNonHeaders,
      convertZKBlockToNonHeaders, carriedBlock, proof, l1, bytesToCommitment_commitmentToBytes,
      Function.comp_def, Option.filter, filterMap_map]

/-- The receiving node stores the block as the transport leaves it. -/
theorem syncBlock_stored (latestOk : Bool) (block : ZKBlock) (node : Node) :
    (syncBlock latestOk block node).db.blocks block.blockNumber = some (carriedBlock block) := by
  have header : (writeHeaders node [readHeader (blockHeader block)] true).db.blocks
      block.blockNumber = some (skeleton (readHeader (blockHeader block))) := by
    simp [writeHeaders, putBlock, skeleton, readHeader, blockHeader]
  have merged := mergeData_skeleton block
  rw [← header] at merged
  have numbered : (mergeData ((writeHeaders node [readHeader (blockHeader block)] true).db.blocks
      block.blockNumber) (readNonHeaders (convertZKBlockToNonHeaders block))).blockNumber =
      block.blockNumber := by
    rw [merged]
    rfl
  rw [← merged]
  exact writeData_stored _ (readNonHeaders (convertZKBlockToNonHeaders block)) latestOk numbered

/-- What arrives over several nodes, each of which sends on what it has stored. -/
def relayed (block : ZKBlock) (hops : List (Bool × Node)) : Option ZKBlock :=
  hops.foldl (fun sent hop => sent.bind fun block =>
    (syncBlock hop.1 block hop.2).db.blocks block.blockNumber) (some block)

theorem carriedNumber_carriedNumber (number : Option Int) :
    carriedNumber (carriedNumber number) = carriedNumber number := by
  cases number with
  | none => rfl
  | some present => by_cases zero : present = 0 <;> simp [carriedNumber, Option.filter, zero]

theorem carriedBlock_carriedBlock (block : ZKBlock) :
    carriedBlock (carriedBlock block) = carriedBlock block := by
  simp +contextual [carriedBlock, carriedTransaction, carriedNumber_carriedNumber,
    Function.comp_def]

/-- The transport changes a block on the first hop and on no later one. -/
theorem relayed_cons (block : ZKBlock) (first : Bool × Node) (later : List (Bool × Node)) :
    relayed block (first :: later) = some (carriedBlock block) := by
  have settled : relayed (carriedBlock block) later = some (carriedBlock block) := by
    induction later with
    | nil => rfl
    | cons hop rest ih =>
      rw [relayed, foldl_cons, Option.bind_some, syncBlock_stored, carriedBlock_carriedBlock]
      exact ih
  rw [relayed, foldl_cons, Option.bind_some, syncBlock_stored]
  exact settled

end Jmdn.Nodeinfo
