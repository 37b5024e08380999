import Jmdn.Config.Types

/-!
# Transaction checks

The stateless checks of `Security/Security.go` that a remote block passes:
signature, content hash and sign of the numeric fields.  The hash and the sender
recovery belong to go-ethereum and are parameters.
-/

namespace Jmdn.Security

open Config

/-- The go-ethereum transaction built from the wire fields; an absent number
becomes zero. -/
inductive EthTx where
  | dynamicFee (chainID : Int) (nonce : UInt64) (toAddr : Option Address)
      (value gasTipCap gasFeeCap : Int) (gas : UInt64) (data : List UInt8)
      (accessList : List AccessTuple) (v r s : Int)
  | accessList (chainID : Int) (nonce : UInt64) (toAddr : Option Address) (value gasPrice : Int)
      (gas : UInt64) (data : List UInt8) (accessList : List AccessTuple) (v r s : Int)
  | legacy (nonce : UInt64) (toAddr : Option Address) (value gasPrice : Int) (gas : UInt64)
      (data : List UInt8) (v r s : Int)
  deriving DecidableEq, Repr

/-- `ethTxFromConfig`. -/
def ethTxFromConfig (tx : Transaction) : EthTx :=
  if tx.txType = 2 then
    .dynamicFee (tx.chainID.getD 0) tx.nonce tx.toAddr (tx.value.getD 0)
      (tx.maxPriorityFee.getD 0) (tx.maxFee.getD 0) tx.gasLimit tx.data tx.accessList
      (tx.v.getD 0) (tx.r.getD 0) (tx.s.getD 0)
  else if tx.txType = 1 then
    .accessList (tx.chainID.getD 0) tx.nonce tx.toAddr (tx.value.getD 0) (tx.gasPrice.getD 0)
      tx.gasLimit tx.data tx.accessList (tx.v.getD 0) (tx.r.getD 0) (tx.s.getD 0)
  else
    .legacy tx.nonce tx.toAddr (tx.value.getD 0) (tx.gasPrice.getD 0) tx.gasLimit tx.data
      (tx.v.getD 0) (tx.r.getD 0) (tx.s.getD 0)

/-- The signers `CheckSignature` tries.  The chain is the configured one, or the
transaction's own when none is configured. -/
inductive Signer where
  | latest (chainID : Option Int)
  | homestead
  | eip155 (chainID : Option Int)
  deriving DecidableEq, Repr

/-- What go-ethereum and the standard library compute: transaction hashes,
sender recovery, Keccak-256 over a concatenation of 32-byte words, and SHA-256
of two words. -/
structure Crypto where
  txHash : EthTx → Hash
  sender : Signer → EthTx → Option Address
  keccak256 : List Hash → Hash
  sha256 : Hash → Hash → Hash

/-- `CheckSignature`: whether the recovered sender is the claimed one. -/
def checkSignature (crypto : Crypto) (expectedChainID : Option Int) (tx : Transaction) : Bool :=
  match tx.fromAddr, tx.v, tx.r, tx.s with
  | some sender, some v, some _, some _ =>
    let ethTx := ethTxFromConfig tx
    let chain := expectedChainID.or tx.chainID
    if tx.txType = 2 ∨ tx.txType = 1 then
      crypto.sender (.latest chain) ethTx = some sender
    else
      -- V is read as the low 64 bits of its magnitude
      ((v.natAbs % 2 ^ 64 = 27 ∨ v.natAbs % 2 ^ 64 = 28) ∧
          crypto.sender .homestead ethTx = some sender) ∨
        crypto.sender (.eip155 chain) ethTx = some sender
  | _, _, _, _ => false

/-- `CheckTransactionHash`. -/
def checkTransactionHash (crypto : Crypto) (tx : Transaction) : Bool :=
  crypto.txHash (ethTxFromConfig tx) = tx.hash

/-- Whether a number that may be absent is not negative. -/
def nonNegative (number : Option Int) : Bool :=
  number.all (0 ≤ ·)

/-- `CheckTransactionValues`. -/
def checkTransactionValues (tx : Transaction) : Bool :=
  nonNegative tx.value && nonNegative tx.gasPrice && nonNegative tx.maxFee &&
    nonNegative tx.maxPriorityFee &&
    match tx.maxFee, tx.maxPriorityFee with
    | some maxFee, some maxPriorityFee => maxPriorityFee ≤ maxFee
    | _, _ => true

/-- `RecomputeBlockHashFromContents`. -/
def recomputeBlockHashFromContents (crypto : Crypto) (txs : List Transaction) : Hash :=
  if txs = [] then 0
  else crypto.keccak256 (txs.map fun tx => crypto.txHash (ethTxFromConfig tx))

/-- `CheckBlockHash`. -/
def checkBlockHash (crypto : Crypto) (block : ZKBlock) : Bool :=
  block.blockHash = recomputeBlockHashFromContents crypto block.transactions

theorem nonNegative_iff {number : Option Int} :
    nonNegative number = true ↔ ∀ n ∈ number, 0 ≤ n := by
  cases number <;> simp [nonNegative]

/-- The sign conditions, and a tip within the fee cap. -/
theorem checkTransactionValues_iff {tx : Transaction} :
    checkTransactionValues tx = true ↔
      (∀ value ∈ tx.value, 0 ≤ value) ∧ (∀ price ∈ tx.gasPrice, 0 ≤ price) ∧
        (∀ fee ∈ tx.maxFee, 0 ≤ fee) ∧ (∀ tip ∈ tx.maxPriorityFee, 0 ≤ tip) ∧
        ∀ fee ∈ tx.maxFee, ∀ tip ∈ tx.maxPriorityFee, tip ≤ fee := by
  simp only [checkTransactionValues, Bool.and_eq_true, nonNegative_iff, and_assoc]
  cases tx.maxFee <;> cases tx.maxPriorityFee <;> simp

section

variable {crypto : Crypto} {chain : Option Int} {tx : Transaction}
  (valid : checkSignature crypto chain tx = true)
include valid

/-- A valid signature recovers the claimed sender under one of the signers. -/
theorem sender_of_checkSignature :
    ∃ signer, crypto.sender signer (ethTxFromConfig tx) = tx.fromAddr := by
  unfold checkSignature at valid
  split at valid
  · next sender v r s known _ _ _ =>
    rw [known]
    dsimp only at valid
    split at valid
    · exact ⟨_, of_decide_eq_true valid⟩
    · rcases of_decide_eq_true valid with ⟨-, recovered⟩ | recovered
      · exact ⟨_, recovered⟩
      · exact ⟨_, recovered⟩
  · cases valid

theorem fromAddr_of_checkSignature : tx.fromAddr.isSome := by
  unfold checkSignature at valid
  split at valid
  · next sender _ _ _ known _ _ _ => simp [known]
  · cases valid

end

/-- No two of the given transactions collide: equal hashes mean equal contents,
and the signers that recover a sender from one content recover the same one. -/
structure CollisionFree (crypto : Crypto) (txs : List Transaction) : Prop where
  content : ∀ first ∈ txs, ∀ second ∈ txs,
    crypto.txHash (ethTxFromConfig first) = crypto.txHash (ethTxFromConfig second) →
      ethTxFromConfig first = ethTxFromConfig second
  recovery : ∀ tx ∈ txs, ∀ one other first second,
    crypto.sender one (ethTxFromConfig tx) = some first →
    crypto.sender other (ethTxFromConfig tx) = some second → first = second

/-- Signed transactions with one content have one sender. -/
theorem fromAddr_eq_of_content {crypto : Crypto} {txs : List Transaction}
    {first second : Transaction} (sound : CollisionFree crypto txs) (mem : first ∈ txs)
    (content : ethTxFromConfig first = ethTxFromConfig second)
    (one : ∃ signer, crypto.sender signer (ethTxFromConfig first) = first.fromAddr)
    (known : first.fromAddr.isSome)
    (two : ∃ signer, crypto.sender signer (ethTxFromConfig second) = second.fromAddr)
    (given : second.fromAddr.isSome) : first.fromAddr = second.fromAddr := by
  obtain ⟨signer, recovered⟩ := one
  obtain ⟨another, again⟩ := two
  obtain ⟨sender, known⟩ := Option.isSome_iff_exists.mp known
  obtain ⟨claimed, given⟩ := Option.isSome_iff_exists.mp given
  rw [known] at recovered
  rw [← content, given] at again
  rw [known, given, sound.recovery first mem signer another sender claimed recovered again]

/-- The wire fields that the content determines. -/
theorem fields_of_ethTxFromConfig_eq {first second : Transaction}
    (same : ethTxFromConfig first = ethTxFromConfig second) :
    first.nonce = second.nonce ∧ first.toAddr = second.toAddr ∧
      first.value.getD 0 = second.value.getD 0 ∧ first.gasLimit = second.gasLimit := by
  unfold ethTxFromConfig at same
  split_ifs at same <;> injection same <;> exact ⟨‹_›, ‹_›, ‹_›, ‹_›⟩

end Jmdn.Security
