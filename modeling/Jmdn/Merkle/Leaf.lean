import Jmdn.Config.Types
import Jmdn.Go.Bytes
import Jmdn.Text.Delimited

/-!
# Merkle leaves

`hashBlock` of `internal/merkle` over the block `configToFastsyncBlock` makes of
a stored one.  A leaf is the digest of the block's fields, with one digest for
each transaction.  The text under a digest is self-delimiting up to the fields
the fees and balances depend on; it does not tell an absent number from zero.
-/

namespace Jmdn.Merkle

open Config Go List Text

/-- `configToFastsyncBlock`: fee recipients, L1 finality and identity nonces have no
field there. -/
def configToFastsyncBlock (block : ZKBlock) : ZKBlock :=
  { block with feeRecipients := [], l1TxHash := "", l1BlockNumber := 0, accountNonces := [] }

/-! ## The texts -/

/-- `writeU64`. -/
def u64Text (value : UInt64) : List UInt8 :=
  fixedBytes 8 value.toNat

/-- `writeU32BE` of a length, which is cut to 32 bits. -/
def lengthText (length : Nat) : List UInt8 :=
  fixedBytes 4 (length % 2 ^ 32)

/-- `writeVar`. -/
def varText (data : List UInt8) : List UInt8 :=
  lengthText data.length ++ data

/-- The magnitude of a number that is there and not zero. -/
def magnitude (number : Option Int) : Option Nat :=
  (number.map Int.natAbs).filter (· ≠ 0)

/-- `writeBigInt`. -/
def bigIntText (number : Option Int) : List UInt8 :=
  optional 0 1 (fun n => varText (bytes n)) (magnitude number)

/-- `writeAddr`, with the flag of an absent address. -/
def addrText (address : Option Address) : List UInt8 :=
  optional 0 1 wordBytes address

/-- The fields of a transaction up to its fees. -/
def txHeadText (tx : Transaction) : List UInt8 :=
  wordBytes tx.hash ++ addrText tx.fromAddr ++ addrText tx.toAddr ++ bigIntText tx.value ++
    [tx.txType] ++ u64Text tx.timestamp ++ u64Text tx.nonce ++ u64Text tx.gasLimit ++
    bigIntText tx.chainID ++ bigIntText tx.gasPrice ++ bigIntText tx.maxFee ++
    bigIntText tx.maxPriorityFee

/-- The access list of a transaction. -/
def accessListText (entries : List AccessTuple) : List UInt8 :=
  lengthText entries.length ++ entries.flatMap fun entry =>
    wordBytes entry.address ++ lengthText entry.storageKeys.length ++
      entry.storageKeys.flatMap wordBytes

/-- What is written for a transaction. -/
def txText (tx : Transaction) : List UInt8 :=
  txHeadText tx ++ (varText tx.data ++ accessListText tx.accessList ++ bigIntText tx.v ++
    bigIntText tx.r ++ bigIntText tx.s)

/-- The fields of a block up to its transactions. -/
def blockHeadText (block : ZKBlock) : List UInt8 :=
  u64Text block.blockNumber ++ u64Text block.timestamp.toUInt64 ++ u64Text block.gasLimit ++
    u64Text block.gasUsed ++ wordBytes block.prevHash ++ wordBytes block.stateRoot ++
    varText (utf8 block.txnsRoot) ++ varText (utf8 block.proofHash) ++
    varText (utf8 block.status) ++ varText (utf8 block.extraData) ++ varText block.starkProof ++
    varText block.logsBloom ++
    (lengthText block.commitment.length ++
      block.commitment.flatMap fun word => fixedBytes 4 word.toNat) ++
    addrText block.coinbaseAddr ++ addrText block.zkvmAddr

/-- What is written for a block; each transaction is a digest of its own. -/
def blockText (sha256 : List UInt8 → Hash) (block : ZKBlock) : List UInt8 :=
  blockHeadText block ++ (lengthText block.transactions.length ++
    block.transactions.flatMap fun tx => wordBytes (sha256 (txText tx)))

/-- `hashBlock`. -/
def hashBlock (sha256 : List UInt8 → Hash) (block : ZKBlock) : Hash :=
  sha256 (blockText sha256 block)

/-- The Merkle leaf of a stored block. -/
def leaf (sha256 : List UInt8 → Hash) (block : ZKBlock) : Hash :=
  hashBlock sha256 (configToFastsyncBlock block)

/-! ## Reading the texts back -/

theorem fixedBytes_injective {size first second : Nat}
    (same : fixedBytes size first = fixedBytes size second) : first = second := by
  rw [← setBytes_fixedBytes size first, same, setBytes_fixedBytes]

theorem delimits_u64Text : Delimits (fun _ => True) u64Text id := by
  refine Delimits.of_length (fun value _ => fixedBytes_length ?_) fun first second _ _ same => ?_
  · exact value.toNat_lt
  · exact UInt64.toNat_inj.mp (fixedBytes_injective same)

theorem delimits_wordBytes {width : Nat} (whole : 8 * (width / 8) = width) :
    Delimits (fun _ : BitVec width => True) wordBytes id := by
  refine Delimits.of_length (fun word _ => fixedBytes_length ?_) fun first second _ _ same => ?_
  · have small := word.isLt
    rw [show 256 = 2 ^ 8 by rfl, ← Nat.pow_mul, whole]
    exact small
  · exact BitVec.eq_of_toNat_eq (fixedBytes_injective same)

theorem delimits_lengthText : Delimits (fun length => length < 2 ^ 32) lengthText id := by
  refine Delimits.of_length (fun length _ => fixedBytes_length ?_)
    fun first second one two same => ?_
  · exact Nat.mod_lt _ (by decide)
  · have equal := fixedBytes_injective same
    rwa [Nat.mod_eq_of_lt one, Nat.mod_eq_of_lt two] at equal

theorem delimits_varText : Delimits (fun data : List UInt8 => data.length < 2 ^ 32) varText id :=
  (delimits_lengthText.comap List.length fun _ short => short).sized fun _ _ => rfl

theorem delimits_address : Delimits (fun _ : Address => True) wordBytes id :=
  delimits_wordBytes rfl

theorem delimits_hash : Delimits (fun _ : Hash => True) wordBytes id :=
  delimits_wordBytes rfl

theorem delimits_addrText : Delimits (fun _ => True) addrText id := by
  intro first second rest rest' _ _ same
  have zero_ne_one : (0 : UInt8) ≠ 1 := by decide
  obtain ⟨seen, tails⟩ := delimits_address.optional zero_ne_one (fun _ _ => trivial)
    (fun _ _ => trivial) same
  rw [Option.map_id, id_eq, id_eq] at seen
  exact ⟨seen, tails⟩

/-- The bytes of a number have a length that fits its prefix word. -/
def Fits (number : Option Int) : Prop :=
  ∀ value ∈ number, (bytes value.natAbs).length < 2 ^ 32

theorem delimits_bigIntText : Delimits Fits bigIntText magnitude := by
  intro first second rest rest' one two same
  have zero_ne_one : (0 : UInt8) ≠ 1 := by decide
  have short : ∀ {number : Option Int}, Fits number →
      ∀ value ∈ magnitude number, (bytes value).length < 2 ^ 32 := by
    intro number fits value present
    obtain ⟨there, -⟩ := Option.mem_filter_iff.mp present
    obtain ⟨integer, given, rfl⟩ := Option.mem_map.mp there
    exact fits integer given
  have numbers : Delimits (fun n => (bytes n).length < 2 ^ 32) (fun n => varText (bytes n)) id := by
    intro n m tail tail' fits fits' equal
    obtain ⟨seen, tails⟩ := delimits_varText fits fits' equal
    have read := congrArg setBytes seen
    rw [id_eq, id_eq, setBytes_bytes, setBytes_bytes] at read
    exact ⟨read, tails⟩
  obtain ⟨seen, tails⟩ := numbers.optional zero_ne_one (short one) (short two) same
  rw [Option.map_id, id_eq, id_eq] at seen
  exact ⟨seen, tails⟩

/-- The numbers of a transaction up to its fees are not negative and fit a text. -/
structure StorableTx (tx : Transaction) : Prop where
  nonneg : ∀ number ∈ [tx.value, tx.chainID, tx.gasPrice, tx.maxFee, tx.maxPriorityFee],
    ∀ value ∈ number, 0 ≤ value
  fits : ∀ number ∈ [tx.value, tx.chainID, tx.gasPrice, tx.maxFee, tx.maxPriorityFee], Fits number

/-- A block the store can hold: a field of 4 GiB is in no stored document, and
integers are not negative. -/
structure Storable (block : ZKBlock) : Prop where
  texts : ∀ text ∈ [block.txnsRoot, block.proofHash, block.status, block.extraData],
    (utf8 text).length < 2 ^ 32
  proofs : ∀ data ∈ [block.starkProof, block.logsBloom], data.length < 2 ^ 32
  commitment : block.commitment.length < 2 ^ 32
  transactions : ∀ tx ∈ block.transactions, StorableTx tx

/-- What the text of a transaction tells of its effects. -/
structure TxAgrees (first second : Transaction) : Prop where
  fromAddr : first.fromAddr = second.fromAddr
  toAddr : first.toAddr = second.toAddr
  value : magnitude first.value = magnitude second.value
  txType : first.txType = second.txType
  nonce : first.nonce = second.nonce
  gasLimit : first.gasLimit = second.gasLimit
  gasPrice : magnitude first.gasPrice = magnitude second.gasPrice
  maxFee : magnitude first.maxFee = magnitude second.maxFee
  maxPriorityFee : magnitude first.maxPriorityFee = magnitude second.maxPriorityFee

theorem delimits_byte : Delimits (fun _ : UInt8 => True) (fun byte => [byte]) id :=
  Delimits.of_length (fun _ _ => rfl) fun _ _ _ _ same => (List.cons.inj same).1

/-- What the text of a transaction tells of the fields up to its fees. -/
def txHeadView (tx : Transaction) :=
  (((((((((((tx.hash, tx.fromAddr), tx.toAddr), magnitude tx.value), tx.txType), tx.timestamp),
    tx.nonce), tx.gasLimit), magnitude tx.chainID), magnitude tx.gasPrice), magnitude tx.maxFee),
    magnitude tx.maxPriorityFee)

theorem delimits_txHeadText : Delimits StorableTx txHeadText txHeadView :=
  (delimits_hash.comap Transaction.hash fun _ _ => trivial).append
    (delimits_addrText.comap Transaction.fromAddr fun _ _ => trivial) |>.append
    (delimits_addrText.comap Transaction.toAddr fun _ _ => trivial) |>.append
    (delimits_bigIntText.comap Transaction.value fun _ tx => tx.fits _ (by simp)) |>.append
    (delimits_byte.comap Transaction.txType fun _ _ => trivial) |>.append
    (delimits_u64Text.comap Transaction.timestamp fun _ _ => trivial) |>.append
    (delimits_u64Text.comap Transaction.nonce fun _ _ => trivial) |>.append
    (delimits_u64Text.comap Transaction.gasLimit fun _ _ => trivial) |>.append
    (delimits_bigIntText.comap Transaction.chainID fun _ tx => tx.fits _ (by simp)) |>.append
    (delimits_bigIntText.comap Transaction.gasPrice fun _ tx => tx.fits _ (by simp)) |>.append
    (delimits_bigIntText.comap Transaction.maxFee fun _ tx => tx.fits _ (by simp)) |>.append
    (delimits_bigIntText.comap Transaction.maxPriorityFee fun _ tx => tx.fits _ (by simp))

theorem txText_agrees {first second : Transaction} (one : StorableTx first)
    (two : StorableTx second) (same : txText first = txText second) : TxAgrees first second := by
  have seen := (delimits_txHeadText one two same).1
  simp only [txHeadView, Prod.mk.injEq] at seen
  obtain ⟨⟨⟨⟨⟨⟨⟨⟨⟨⟨⟨-, sender⟩, receiver⟩, value⟩, txType⟩, -⟩, nonce⟩, gasLimit⟩, -⟩, gasPrice⟩,
    maxFee⟩, tip⟩ := seen
  exact ⟨sender, receiver, value, txType, nonce, gasLimit, gasPrice, maxFee, tip⟩

/-- The texts digested for a leaf. -/
def hashedTexts (sha256 : List UInt8 → Hash) (block : ZKBlock) : List (List UInt8) :=
  blockText sha256 block :: block.transactions.map txText

/-- No two of the texts have one digest. -/
def CollisionFree (sha256 : List UInt8 → Hash) (texts : List (List UInt8)) : Prop :=
  ∀ first ∈ texts, ∀ second ∈ texts, sha256 first = sha256 second → first = second

/-- What a leaf tells of the effects of a block. -/
structure BlockAgrees (first second : ZKBlock) : Prop where
  coinbaseAddr : first.coinbaseAddr = second.coinbaseAddr
  zkvmAddr : first.zkvmAddr = second.zkvmAddr
  transactions : List.Forall₂ TxAgrees first.transactions second.transactions

/-- What the text of a block tells of the fields up to its transactions. -/
def blockHeadView (block : ZKBlock) :=
  ((((((((((((((block.blockNumber, block.timestamp.toUInt64), block.gasLimit), block.gasUsed),
    block.prevHash), block.stateRoot), utf8 block.txnsRoot), utf8 block.proofHash),
    utf8 block.status), utf8 block.extraData), block.starkProof), block.logsBloom),
    block.commitment.map UInt32.toNat), block.coinbaseAddr), block.zkvmAddr)

theorem delimits_blockHeadText : Delimits Storable blockHeadText blockHeadView := by
  have word : Delimits (fun _ => True) (fun word : UInt32 => fixedBytes 4 word.toNat)
      UInt32.toNat :=
    .of_length (fun word _ => fixedBytes_length word.toNat_lt)
      fun _ _ _ _ same => fixedBytes_injective same
  exact (delimits_u64Text.comap ZKBlock.blockNumber fun _ _ => trivial).append
    (delimits_u64Text.comap (fun block : ZKBlock => block.timestamp.toUInt64)
      fun _ _ => trivial) |>.append
    (delimits_u64Text.comap ZKBlock.gasLimit fun _ _ => trivial) |>.append
    (delimits_u64Text.comap ZKBlock.gasUsed fun _ _ => trivial) |>.append
    (delimits_hash.comap ZKBlock.prevHash fun _ _ => trivial) |>.append
    (delimits_hash.comap ZKBlock.stateRoot fun _ _ => trivial) |>.append
    (delimits_varText.comap (fun block : ZKBlock => utf8 block.txnsRoot)
      fun _ block => block.texts _ (by simp)) |>.append
    (delimits_varText.comap (fun block : ZKBlock => utf8 block.proofHash)
      fun _ block => block.texts _ (by simp)) |>.append
    (delimits_varText.comap (fun block : ZKBlock => utf8 block.status)
      fun _ block => block.texts _ (by simp)) |>.append
    (delimits_varText.comap (fun block : ZKBlock => utf8 block.extraData)
      fun _ block => block.texts _ (by simp)) |>.append
    (delimits_varText.comap ZKBlock.starkProof fun _ block => block.proofs _ (by simp)) |>.append
    (delimits_varText.comap ZKBlock.logsBloom fun _ block => block.proofs _ (by simp)) |>.append
    ((word.counted delimits_lengthText).comap ZKBlock.commitment
      fun _ block => ⟨block.commitment, fun _ _ => trivial⟩) |>.append
    (delimits_addrText.comap ZKBlock.coinbaseAddr fun _ _ => trivial) |>.append
    (delimits_addrText.comap ZKBlock.zkvmAddr fun _ _ => trivial)

/-- The digests at the end of a block's text are read back. -/
theorem digests_injective : Function.Injective fun digests : List Hash =>
    lengthText digests.length ++ digests.flatMap wordBytes := by
  intro first second same
  have count : ∀ length, (lengthText length).length = 4 := fun length =>
    fixedBytes_length (Nat.mod_lt length (by decide))
  have bodies := (append_inj same ((count _).trans (count _).symm)).2
  have length : ∀ digest : Hash, (wordBytes digest).length = 32 := fun digest =>
    fixedBytes_length digest.isLt
  have read : Function.Injective fun digest : Hash => wordBytes digest := fun one two equal =>
    BitVec.eq_of_toNat_eq (fixedBytes_injective equal)
  exact flatMap_injective (by decide) length read bodies

theorem blockText_digests (sha256 : List UInt8 → Hash) (block : ZKBlock) :
    blockText sha256 block = blockHeadText block ++
      (lengthText (block.transactions.map fun tx => sha256 (txText tx)).length ++
        (block.transactions.map fun tx => sha256 (txText tx)).flatMap wordBytes) := by
  rw [blockText, length_map, flatMap_map]

section

variable {sha256 : List UInt8 → Hash} {first second : ZKBlock}

/-- Blocks of one hash have the same head, and transactions of the same texts one by
one. -/
theorem texts_of_hashBlock_eq (one : Storable first) (two : Storable second)
    (free : CollisionFree sha256 (hashedTexts sha256 first ++ hashedTexts sha256 second))
    (same : hashBlock sha256 first = hashBlock sha256 second) :
    blockHeadView first = blockHeadView second ∧
      List.Forall₂ (fun tx other => tx ∈ first.transactions ∧ other ∈ second.transactions ∧
        txText tx = txText other) first.transactions second.transactions := by
  have texts : blockText sha256 first = blockText sha256 second :=
    free _ (by simp [hashedTexts]) _ (by simp [hashedTexts]) same
  rw [blockText_digests, blockText_digests] at texts
  obtain ⟨heads, tails⟩ := delimits_blockHeadText one two texts
  have digests := digests_injective tails
  rw [← forall₂_eq_eq_eq, forall₂_map_left_iff, forall₂_map_right_iff] at digests
  refine ⟨heads, forall₂_iff_zip.mpr ⟨digests.length_eq, fun {tx other} paired => ?_⟩⟩
  obtain ⟨mem, mem'⟩ := of_mem_zip paired
  refine ⟨mem, mem', ?_⟩
  refine free _ (mem_append_left _ ?_) _ (mem_append_right _ ?_)
    ((forall₂_iff_zip.mp digests).2 paired)
  · exact mem_cons_of_mem _ (mem_map_of_mem mem)
  · exact mem_cons_of_mem _ (mem_map_of_mem mem')

/-- Equal leaves agree on what the fees and balances depend on, up to absent
numbers and the fields that have no text. -/
theorem blockAgrees_of_leaf_eq (one : Storable first) (two : Storable second)
    (free : CollisionFree sha256 (hashedTexts sha256 (configToFastsyncBlock first) ++
      hashedTexts sha256 (configToFastsyncBlock second)))
    (same : leaf sha256 first = leaf sha256 second) : BlockAgrees first second := by
  have storable : ∀ {block}, Storable block → Storable (configToFastsyncBlock block) :=
    fun block => ⟨block.texts, block.proofs, block.commitment, block.transactions⟩
  obtain ⟨heads, texts⟩ := texts_of_hashBlock_eq (storable one) (storable two) free same
  simp only [blockHeadView, Prod.mk.injEq] at heads
  exact ⟨heads.1.2, heads.2, texts.imp fun tx other ⟨mem, mem', equal⟩ =>
    txText_agrees (one.transactions tx mem) (two.transactions other mem') equal⟩

end

/-! ## All hashed fields -/

/-- The integers of a transaction are not negative and its fields are shorter than
4 GiB. -/
structure SizedTx (tx : Transaction) : Prop extends StorableTx tx where
  data : tx.data.length < 2 ^ 32
  accessList : tx.accessList.length < 2 ^ 32
  storageKeys : ∀ entry ∈ tx.accessList, entry.storageKeys.length < 2 ^ 32
  signature : ∀ number ∈ [tx.v, tx.r, tx.s], (∀ value ∈ number, 0 ≤ value) ∧ Fits number

/-- The integers of a block are not negative and its fields are shorter than 4 GiB. -/
structure SizedBlock (block : ZKBlock) : Prop extends Storable block where
  sized : ∀ tx ∈ block.transactions, SizedTx tx

/-- Absent integers are zero. -/
def zeroForNil (tx : Transaction) : Transaction :=
  { tx with
    value := some (tx.value.getD 0), chainID := some (tx.chainID.getD 0)
    gasPrice := some (tx.gasPrice.getD 0), maxFee := some (tx.maxFee.getD 0)
    maxPriorityFee := some (tx.maxPriorityFee.getD 0)
    v := some (tx.v.getD 0), r := some (tx.r.getD 0), s := some (tx.s.getD 0) }

/-- The fields of a block that `hashBlock` reads. -/
def hashedFields (block : ZKBlock) : ZKBlock :=
  { configToFastsyncBlock block with
    blockHash := 0
    transactions := block.transactions.map zeroForNil }

theorem getD_eq_of_magnitude {first second : Option Int} (one : ∀ value ∈ first, 0 ≤ value)
    (two : ∀ value ∈ second, 0 ≤ value) (same : magnitude first = magnitude second) :
    first.getD 0 = second.getD 0 := by
  have known : ∀ number : Option Int, (∀ value ∈ number, 0 ≤ value) →
      number.getD 0 = ((magnitude number).getD 0 : Nat) := by
    intro number nonneg
    cases number with
    | none => rfl
    | some value =>
      have size : value = value.natAbs := (Int.natAbs_of_nonneg (nonneg value rfl)).symm
      by_cases zero : value = 0
      · subst zero
        rfl
      · simpa [magnitude, Option.filter, zero] using size
  rw [known first one, known second two, same]

theorem delimits_accessListText : Delimits
    (fun entries : List AccessTuple => entries.length < 2 ^ 32 ∧
      ∀ entry ∈ entries, entry.storageKeys.length < 2 ^ 32) accessListText id := by
  have entry : Delimits (fun entry : AccessTuple => entry.storageKeys.length < 2 ^ 32)
      (fun entry => wordBytes entry.address ++ (lengthText entry.storageKeys.length ++
        entry.storageKeys.flatMap wordBytes))
      fun entry => (entry.address, entry.storageKeys.map id) :=
    (delimits_address.comap AccessTuple.address fun _ _ => trivial).append
      ((delimits_hash.counted delimits_lengthText).comap AccessTuple.storageKeys
        fun _ short => ⟨short, fun _ _ => trivial⟩)
  have list := (entry.map fun view => AccessTuple.mk view.1 view.2).counted delimits_lengthText
  intro first second rest rest' one two same
  rw [accessListText, accessListText] at same
  simp only [← append_assoc] at list
  simpa using list one two same

theorem zeroForNil_eq {first second : Transaction} (one : SizedTx first) (two : SizedTx second)
    (same : txText first = txText second) : zeroForNil first = zeroForNil second := by
  have tail : Delimits SizedTx _ _ :=
    (delimits_varText.comap Transaction.data fun _ tx => tx.data).append
      (delimits_accessListText.comap Transaction.accessList
        fun _ tx => ⟨tx.accessList, tx.storageKeys⟩) |>.append
      (delimits_bigIntText.comap Transaction.v fun _ tx => (tx.signature _ (by simp)).2) |>.append
      (delimits_bigIntText.comap Transaction.r fun _ tx => (tx.signature _ (by simp)).2) |>.append
      (delimits_bigIntText.comap Transaction.s fun _ tx => (tx.signature _ (by simp)).2)
  obtain ⟨heads, tails⟩ := delimits_txHeadText one.toStorableTx two.toStorableTx same
  obtain ⟨tails, -⟩ := tail one two (congrArg (· ++ []) tails)
  simp only [txHeadView, Prod.mk.injEq, id_eq] at heads tails
  obtain ⟨⟨⟨⟨⟨⟨⟨⟨⟨⟨⟨hash, sender⟩, receiver⟩, value⟩, txType⟩, timestamp⟩, nonce⟩, gasLimit⟩, chainID⟩,
    gasPrice⟩, maxFee⟩, tip⟩ := heads
  obtain ⟨⟨⟨⟨data, accessList⟩, v⟩, r⟩, s⟩ := tails
  have fee : ∀ {number number' : Option Int}, number ∈ _ → number' ∈ _ → _ :=
    fun mem mem' => getD_eq_of_magnitude (one.nonneg _ mem) (two.nonneg _ mem')
  have signed : ∀ {number number' : Option Int}, number ∈ _ → number' ∈ _ → _ :=
    fun mem mem' =>
      getD_eq_of_magnitude (one.signature _ mem).1 (two.signature _ mem').1
  simp only [zeroForNil, hash, sender, receiver, txType, timestamp, nonce, gasLimit, data,
    accessList, fee (by simp) (by simp) value, fee (by simp) (by simp) chainID,
    fee (by simp) (by simp) gasPrice, fee (by simp) (by simp) maxFee, fee (by simp) (by simp) tip,
    signed (by simp) (by simp) v, signed (by simp) (by simp) r, signed (by simp) (by simp) s]

/-- Equal block hashes come from equal hashed fields. -/
theorem hashBlock_injective (sha256 : List UInt8 → Hash) {first second : ZKBlock}
    (one : SizedBlock first) (two : SizedBlock second)
    (free : CollisionFree sha256 (hashedTexts sha256 first ++ hashedTexts sha256 second))
    (same : hashBlock sha256 first = hashBlock sha256 second) :
    hashedFields first = hashedFields second := by
  obtain ⟨heads, texts⟩ := texts_of_hashBlock_eq one.toStorable two.toStorable free same
  simp only [blockHeadView, Prod.mk.injEq] at heads
  obtain ⟨⟨⟨⟨⟨⟨⟨⟨⟨⟨⟨⟨⟨⟨number, timestamp⟩, gasLimit⟩, gasUsed⟩, prevHash⟩, stateRoot⟩, txnsRoot⟩,
    proofHash⟩, status⟩, extraData⟩, starkProof⟩, logsBloom⟩, commitment⟩, coinbase⟩, zkvm⟩ := heads
  have transactions : first.transactions.map zeroForNil = second.transactions.map zeroForNil := by
    rw [← forall₂_eq_eq_eq, forall₂_map_left_iff, forall₂_map_right_iff]
    exact texts.imp fun tx other ⟨mem, mem', equal⟩ =>
      zeroForNil_eq (one.sized tx mem) (two.sized other mem') equal
  have clock : first.timestamp = second.timestamp := congrArg UInt64.toInt64 timestamp
  have words : first.commitment = second.commitment :=
    map_injective_iff.mpr (fun _ _ => UInt32.toNat_inj.mp) commitment
  simp only [hashedFields, configToFastsyncBlock, number, clock, gasLimit, gasUsed,
    prevHash, stateRoot, utf8_injective txnsRoot, utf8_injective proofHash,
    utf8_injective status, utf8_injective extraData, starkProof, logsBloom, words, coinbase, zkvm,
    transactions]

/-- A digest that tells texts of different lengths apart. -/
def lengthDigest (text : List UInt8) : Hash :=
  BitVec.ofNat 256 text.length

/-- Two transactions with access lists, and a number for the integers they need not
have. -/
def listedBlock (blockHash : Hash) (number : Option Int) : ZKBlock where
  blockHash := blockHash
  blockNumber := 1
  starkProof := [5, 6]
  commitment := [3, 4]
  coinbaseAddr := some 3
  transactions :=
    [{ hash := 7, fromAddr := some 1, toAddr := some 2, value := some 300, txType := 1,
       chainID := some 5, gasPrice := number, accessList := [⟨2, [8, 9]⟩],
       v := number, r := some 6, s := some 256 },
     { hash := 8, fromAddr := some 2, value := number, txType := 2, nonce := 1, data := [1, 2],
       maxFee := some 9, maxPriorityFee := number, accessList := [⟨1, []⟩, ⟨3, [4]⟩],
       r := some 1, s := number }]

theorem sizedTx_listedBlock {blockHash : Hash} {number : Option Int}
    (absent : number = none ∨ number = some 0) :
    ∀ tx ∈ (listedBlock blockHash number).transactions, SizedTx tx := by
  have known : ∀ known : Option Int, known ∈ [none, some 0, some 1, some 5, some 6, some 9,
      some 256, some 300] → (∀ value ∈ known, 0 ≤ value) ∧ Fits known := by
    unfold Fits
    decide +kernel
  rcases absent with rfl | rfl
  all_goals
    rw [listedBlock, forall_mem_cons, forall_mem_singleton]
    constructor
    all_goals
      refine ⟨⟨fun number mem => (known number ?_).1, fun number mem => (known number ?_).2⟩,
        by decide, by decide, by decide, fun number mem => known number ?_⟩
      all_goals
        revert mem
        revert number
        decide

theorem sizedBlock_listedBlock (blockHash : Hash) {number : Option Int}
    (absent : number = none ∨ number = some 0) : SizedBlock (listedBlock blockHash number) := by
  have sized := @sizedTx_listedBlock blockHash number absent
  have short : (utf8 "").length < 2 ^ 32 := by decide +kernel
  exact ⟨⟨by simpa [listedBlock] using short, by simp [listedBlock], by simp [listedBlock],
    fun tx mem => (sized tx mem).toStorableTx⟩, sized⟩

/-- The hash a block carries is not among the hashed fields, and an absent integer
counts as zero. -/
theorem nil_and_zero_share_hash :
    hashBlock lengthDigest (listedBlock 8 none) = hashBlock lengthDigest (listedBlock 9 (some 0)) ∧
      hashedFields (listedBlock 8 none) = hashedFields (listedBlock 9 (some 0)) := by
  have free : CollisionFree lengthDigest (hashedTexts lengthDigest (listedBlock 8 none) ++
      hashedTexts lengthDigest (listedBlock 9 (some 0))) := by
    unfold CollisionFree
    decide +kernel
  exact ⟨rfl, hashBlock_injective lengthDigest (sizedBlock_listedBlock 8 (.inl rfl))
    (sizedBlock_listedBlock 9 (.inr rfl)) free rfl⟩

end Jmdn.Merkle
