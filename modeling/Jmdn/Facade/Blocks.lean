import Jmdn.Go.Panic
import Jmdn.Go.Strings
import Jmdn.Nodeinfo.Transport

/-!
# Stored blocks for clients

The two conversions of a stored block: `ConvertZKBlockToETHBlock` of `gETH`, for the
gRPC service, and `ConvertZKBlockToBlock` of the facade, for JSON-RPC.  The first
reads most pointers of a block unguarded; the second guards those of transactions,
and gives up the whole header when the receipts cannot be looked up.
-/

namespace Jmdn.Facade

open Config Go Nodeinfo

/-- `proto.BlockHeader` and `Types.BlockHeader`, without the fields neither sets. -/
structure BlockHeader where
  parentHash : List UInt8 := []
  stateRoot : List UInt8 := []
  receiptsRoot : List UInt8 := []
  logsBloom : List UInt8 := []
  miner : List UInt8 := []
  number : UInt64 := 0
  gasLimit : UInt64 := 0
  gasUsed : UInt64 := 0
  timestamp : UInt64 := 0
  mixHashOrPrevRandao : List UInt8 := []
  baseFee : List UInt8 := []
  extraData : List UInt8 := []
  hash : List UInt8 := []

/-- `proto.Transaction` and `Types.Tx`, which differ in the form of access tuples. -/
structure ClientTx (Tuple : Type) where
  hash : List UInt8
  fromAddr : List UInt8
  toAddr : List UInt8
  input : List UInt8
  nonce : UInt64
  value : List UInt8
  gas : UInt64
  gasPrice : List UInt8
  txType : UInt32
  r : List UInt8
  s : List UInt8
  v : UInt32
  accessList : List Tuple
  maxFeePerGas : List UInt8
  maxPriorityFeePerGas : List UInt8
  chainID : List UInt8 := []

/-- `proto.Block` and `Types.Block`. -/
structure ClientBlock (Tuple : Type) where
  header : BlockHeader
  transactions : List (ClientTx Tuple)
  l1TxHash : String := ""
  l1BlockNumber : UInt64 := 0

/-- `uint32(number.Uint64())`. -/
def low32 (number : Int) : UInt32 :=
  UInt32.ofNat (number.natAbs % 2 ^ 64)

/-! ## For gRPC -/

/-- One round of `ConvertZKTransactiontoETHTransaction`; the gas price is the fee
cap. -/
def convertZKTransaction (tx : Transaction) : Except Stop (ClientTx WireAccessTuple) := do
  let r ← dereference tx.r
  let s ← dereference tx.s
  let sender ← dereference tx.fromAddr
  let receiver ← dereference tx.toAddr
  let value ← dereference tx.value
  let maxFee ← dereference tx.maxFee
  let v ← dereference tx.v
  let maxPriorityFee ← dereference tx.maxPriorityFee
  return {
    hash := wordBytes tx.hash
    fromAddr := wordBytes sender
    toAddr := wordBytes receiver
    input := tx.data
    nonce := tx.nonce
    value := bytes value.natAbs
    gas := tx.gasLimit
    gasPrice := bytes maxFee.natAbs
    txType := tx.txType.toUInt32
    r := bytes r.natAbs
    s := bytes s.natAbs
    v := low32 v
    accessList := tx.accessList.map fun tuple =>
      { address := wordBytes tuple.address, storageKeys := tuple.storageKeys.map wordBytes }
    maxFeePerGas := bytes maxFee.natAbs
    maxPriorityFeePerGas := bytes maxPriorityFee.natAbs }

/-- `[]byte(hash.Hex())`. -/
def hashText (hash : Hash) : List UInt8 :=
  utf8 ("0x" ++ @hexEncode 64 hash)

/-- `ConvertZKBlockToETHBlock`. -/
def convertZKBlockToETHBlock (block : ZKBlock) : Except Stop (ClientBlock WireAccessTuple) := do
  let transactions ← block.transactions.mapM convertZKTransaction
  let coinbase ← dereference block.coinbaseAddr
  return {
    header :=
      { parentHash := hashText block.prevHash
        stateRoot := hashText block.stateRoot
        receiptsRoot := utf8 block.txnsRoot
        logsBloom := block.logsBloom
        miner := wordBytes coinbase
        number := block.blockNumber
        gasLimit := block.gasLimit
        gasUsed := block.gasUsed
        timestamp := block.timestamp.toUInt64
        mixHashOrPrevRandao := wordBytes block.prevHash
        extraData := utf8 block.extraData
        hash := wordBytes block.blockHash }
    transactions }

/-! ## For JSON-RPC -/

/-- `ConvertTrabsactionToTx`: an absent pointer becomes empty bytes. -/
def convertTransactionToTx (tx : Transaction) : ClientTx AccessTuple where
  hash := wordBytes tx.hash
  fromAddr := addressBytes tx.fromAddr
  toAddr := addressBytes tx.toAddr
  input := tx.data
  nonce := tx.nonce
  value := numberBytes tx.value
  gas := tx.gasLimit
  gasPrice := numberBytes tx.gasPrice
  txType := tx.txType.toUInt32
  r := numberBytes tx.r
  s := numberBytes tx.s
  v := tx.v.elim 0 low32
  accessList := tx.accessList
  maxFeePerGas := numberBytes tx.maxFee
  maxPriorityFeePerGas := numberBytes tx.maxPriorityFee
  chainID := numberBytes tx.chainID

/-- What looking up the receipts of a block meets: the answer of
`GetReceiptsofBlock`, in which the receipt of a transaction that is not found but
marked as in processing is nil, with the bloom of every other receipt; the outcome
of their RLP encoding; and Keccak-256. -/
structure ReceiptLookup where
  receipts : Option (List (Option (List UInt8)))
  encoded : Option (List UInt8)
  keccak256 : List UInt8 → List UInt8

/-- `GenerateReceiptRoot`. -/
def generateReceiptRoot (lookup : ReceiptLookup) (receipts : List (Option (List UInt8))) :
    Option (List UInt8) :=
  if receipts = [] then some (List.replicate 32 0) else lookup.encoded.map lookup.keccak256

/-- One round of `GenerateBlockLogsBloom`. -/
def addBloom (blockBloom : List UInt8) (receipt : Option (List UInt8)) :
    Except Stop (List UInt8) := do
  let bloom ← dereference receipt
  return if bloom.length = 256 then List.zipWith (· ||| ·) blockBloom bloom else blockBloom

/-- `GenerateBlockLogsBloom`. -/
def generateBlockLogsBloom (receipts : List (Option (List UInt8))) : Except Stop (List UInt8) :=
  receipts.foldlM addBloom (List.replicate 256 0)

/-- The header once the receipts are there. -/
def headerWithReceipts (block : ZKBlock) (receiptsRoot : List UInt8)
    (receipts : List (Option (List UInt8))) : Except Stop BlockHeader := do
  let logsBloom ← generateBlockLogsBloom receipts
  let zkvm ← dereference block.zkvmAddr
  return {
    parentHash := wordBytes block.prevHash
    stateRoot := wordBytes block.stateRoot
    receiptsRoot
    logsBloom
    miner := wordBytes zkvm
    number := block.blockNumber
    gasLimit := block.gasLimit
    gasUsed := block.gasUsed
    timestamp := block.timestamp.toUInt64
    baseFee := bytes baseFeeWei.natAbs
    extraData := utf8 block.extraData
    hash := wordBytes block.blockHash }

/-- `ConvertZKBlockToblockheader`: a failed lookup or encoding gives an empty
header. -/
def convertZKBlockToBlockHeader (lookup : ReceiptLookup) (block : ZKBlock) :
    Except Stop BlockHeader :=
  match lookup.receipts with
  | none => .ok {}
  | some receipts =>
    match generateReceiptRoot lookup receipts with
    | none => .ok {}
    | some receiptsRoot => headerWithReceipts block receiptsRoot receipts

/-- `ConvertZKBlockToBlock`. -/
def convertZKBlockToBlock (lookup : ReceiptLookup) (block : ZKBlock) :
    Except Stop (ClientBlock AccessTuple) := do
  let header ← convertZKBlockToBlockHeader lookup block
  return {
    header
    transactions := block.transactions.map convertTransactionToTx
    l1TxHash := block.l1TxHash
    l1BlockNumber := block.l1BlockNumber }

/-! ## Which blocks are converted -/

/-- The pointers of a transaction that the gRPC conversion reads are set. -/
@[mk_iff]
structure Complete (tx : Transaction) : Prop where
  r : tx.r.isSome
  s : tx.s.isSome
  fromAddr : tx.fromAddr.isSome
  toAddr : tx.toAddr.isSome
  value : tx.value.isSome
  maxFee : tx.maxFee.isSome
  v : tx.v.isSome
  maxPriorityFee : tx.maxPriorityFee.isSome

/-- The receipts are looked up and encoded, and none of them is nil. -/
def ReceiptLookup.Succeeds (lookup : ReceiptLookup) : Prop :=
  ∃ receipts, lookup.receipts = some receipts ∧ none ∉ receipts ∧
    (generateReceiptRoot lookup receipts).isSome

/-- A header carries the number and the hash of a block. -/
def Carries (header : BlockHeader) (block : ZKBlock) : Prop :=
  header.number = block.blockNumber ∧ header.hash = wordBytes block.blockHash

theorem exists_dereference_iff {α : Type} {pointer : Option α} :
    (∃ value, dereference pointer = .ok value) ↔ pointer.isSome := by
  cases pointer <;> simp [dereference]

theorem convertZKTransaction_returns_iff {tx : Transaction} :
    (∃ result, convertZKTransaction tx = .ok result) ↔ Complete tx := by
  simp only [convertZKTransaction, exists_bind_eq_ok_iff, pure, Except.pure, Except.ok.injEq,
    exists_eq', and_true, exists_and_right, exists_dereference_iff, complete_iff]

theorem convertZKBlockToETHBlock_carries_iff (block : ZKBlock) :
    (∃ result, convertZKBlockToETHBlock block = .ok result ∧ Carries result.header block) ↔
      block.coinbaseAddr.isSome ∧ ∀ tx ∈ block.transactions, Complete tx := by
  have complete : (∀ tx ∈ block.transactions, Complete tx) ↔
      ∃ results, block.transactions.mapM convertZKTransaction = .ok results := by
    rw [exists_mapM_eq_ok_iff]
    exact forall₂_congr fun _ _ => convertZKTransaction_returns_iff.symm
  rw [complete, ← exists_dereference_iff]
  constructor
  · rintro ⟨result, done, -⟩
    obtain ⟨transactions, converted, done⟩ := bind_eq_ok done
    obtain ⟨coinbase, present, -⟩ := bind_eq_ok done
    exact ⟨⟨coinbase, present⟩, transactions, converted⟩
  · rintro ⟨⟨coinbase, present⟩, transactions, converted⟩
    unfold convertZKBlockToETHBlock
    rw [converted, present]
    exact ⟨_, rfl, rfl, rfl⟩

/-- The blooms are joined as long as no receipt is nil. -/
theorem generateBlockLogsBloom_returns_iff (receipts : List (Option (List UInt8)))
    (start : List UInt8) :
    (∃ bloom, receipts.foldlM addBloom start = .ok bloom) ↔ none ∉ receipts := by
  induction receipts generalizing start with
  | nil => simp [pure, Except.pure]
  | cons receipt rest ih =>
    rw [List.foldlM_cons, List.mem_cons, not_or]
    cases receipt with
    | none => simp [addBloom, dereference, bind, Except.bind]
    | some bloom =>
      simp only [reduceCtorEq, not_false_eq_true, true_and]
      exact ih _

theorem headerWithReceipts_returns_iff {block : ZKBlock} {receiptsRoot : List UInt8}
    {receipts : List (Option (List UInt8))} :
    (∃ header, headerWithReceipts block receiptsRoot receipts = .ok header ∧
      Carries header block) ↔ none ∉ receipts ∧ block.zkvmAddr.isSome := by
  rw [← generateBlockLogsBloom_returns_iff receipts (List.replicate 256 0),
    ← exists_dereference_iff]
  constructor
  · rintro ⟨header, done, -⟩
    obtain ⟨bloom, joined, done⟩ := bind_eq_ok done
    obtain ⟨zkvm, present, -⟩ := bind_eq_ok done
    exact ⟨⟨bloom, joined⟩, zkvm, present⟩
  · rintro ⟨⟨bloom, joined⟩, zkvm, present⟩
    unfold headerWithReceipts generateBlockLogsBloom
    rw [joined, present]
    exact ⟨_, rfl, rfl, rfl⟩

/-- The empty header is not the header of any block. -/
theorem not_carries_empty (block : ZKBlock) : ¬ Carries {} block := by
  rintro ⟨-, hash⟩
  exact wordBytes_ne_nil (by decide) block.blockHash hash.symm

theorem convertZKBlockToBlockHeader_carries_iff (lookup : ReceiptLookup) (block : ZKBlock) :
    (∃ header, convertZKBlockToBlockHeader lookup block = .ok header ∧ Carries header block) ↔
      lookup.Succeeds ∧ block.zkvmAddr.isSome := by
  unfold convertZKBlockToBlockHeader
  cases found : lookup.receipts with
  | none =>
    refine iff_of_false ?_ ?_
    · rintro ⟨header, done, carries⟩
      cases done
      exact not_carries_empty block carries
    · rintro ⟨⟨receipts, present, -⟩, -⟩
      rw [found] at present
      cases present
  | some receipts =>
    dsimp only
    cases encoded : generateReceiptRoot lookup receipts with
    | none =>
      refine iff_of_false ?_ ?_
      · rintro ⟨header, done, carries⟩
        cases done
        exact not_carries_empty block carries
      · rintro ⟨⟨other, present, -, rooted⟩, -⟩
        rw [found] at present
        cases present
        rw [encoded] at rooted
        cases rooted
    | some receiptsRoot =>
      rw [headerWithReceipts_returns_iff]
      refine and_congr_left fun _ => ⟨fun calm => ⟨receipts, found, calm, ?_⟩, ?_⟩
      · rw [encoded]
        rfl
      · rintro ⟨other, present, calm, -⟩
        rw [found] at present
        cases present
        exact calm

theorem convertZKBlockToBlock_carries_iff (lookup : ReceiptLookup) (block : ZKBlock) :
    (∃ result, convertZKBlockToBlock lookup block = .ok result ∧ Carries result.header block) ↔
      lookup.Succeeds ∧ block.zkvmAddr.isSome := by
  rw [← convertZKBlockToBlockHeader_carries_iff]
  constructor
  · rintro ⟨result, done, carries⟩
    obtain ⟨header, converted, done⟩ := bind_eq_ok done
    cases done
    exact ⟨header, converted, carries⟩
  · rintro ⟨header, converted, carries⟩
    unfold convertZKBlockToBlock
    rw [converted]
    exact ⟨_, rfl, carries⟩

/-- Both conversions return the block under its number and hash exactly when its
addresses are set, its transactions are complete, and the receipts are there. -/
theorem conversions_carry_block_iff (lookup : ReceiptLookup) (block : ZKBlock) :
    ((∃ result, convertZKBlockToETHBlock block = .ok result ∧ Carries result.header block) ∧
      ∃ result, convertZKBlockToBlock lookup block = .ok result ∧ Carries result.header block) ↔
      (block.coinbaseAddr.isSome ∧ ∀ tx ∈ block.transactions, Complete tx) ∧
        lookup.Succeeds ∧ block.zkvmAddr.isSome :=
  and_congr (convertZKBlockToETHBlock_carries_iff block)
    (convertZKBlockToBlock_carries_iff lookup block)

/-- A block with one signed legacy transfer, which has no fee cap. -/
def legacyBlock : ZKBlock :=
  { transactions :=
      [{ hash := 9, fromAddr := some 1, toAddr := some 2, value := some 5, gasPrice := some 1,
         v := some 27, r := some 1, s := some 1 }]
    coinbaseAddr := some 3
    zkvmAddr := some 4
    blockHash := 8
    blockNumber := 7 }

/-- A node that got the block through a sync panics on it for gRPC, and after a
failed receipt lookup answers with an empty header for JSON-RPC. -/
theorem legacy_block_is_not_converted :
    ∃ stored, (syncBlock true legacyBlock {}).db.blocks 7 = some stored ∧
      convertZKBlockToETHBlock stored = .error (.panicked .nilDereference) ∧
      (convertZKBlockToBlock ⟨none, none, id⟩ stored).toOption.map (fun result =>
        (result.header.number, result.header.hash)) = some (0, []) ∧
      (stored.blockNumber, stored.blockHash) = (7, 8) := by
  refine ⟨carriedBlock legacyBlock, syncBlock_stored true legacyBlock {}, ?_, ?_, ?_⟩
  · rfl
  · rfl
  · rfl

end Jmdn.Facade
