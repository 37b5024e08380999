import Jmdn.BlockProcessing.Rollback
import Jmdn.Messaging.RemoteBlock

/-!
# What acceptance of a remote block guarantees

Acceptance is inverted once, into `Admitted`.  Everything about executing an
accepted block starts from there.
-/

namespace Jmdn.Messaging

open BlockProcessing Config DBOPs Function Go List Security

variable {txs : List Transaction} {node : Node} {block : ZKBlock}
  {lastNonce : Address → Option UInt64} {index : Nat} {tx : Transaction} {crypto : Crypto}

/-- What the checks of one transaction establish. -/
structure Checked (crypto : Crypto) (tx : Transaction) : Prop where
  sender : tx.fromAddr.isSome
  signed : ∃ signer, crypto.sender signer (ethTxFromConfig tx) = tx.fromAddr
  hash : crypto.txHash (ethTxFromConfig tx) = tx.hash
  values : checkTransactionValues tx = true

/-- A sender's nonces ascend within a list of transactions. -/
def Ascending (txs : List Transaction) : Prop :=
  txs.Pairwise fun first second => first.fromAddr = second.fromAddr → first.nonce < second.nonce

/-- The facts about a block's contents that the gates establish. -/
structure Admitted (node : Node) (block : ZKBlock) : Prop where
  nonempty : block.transactions ≠ []
  feeRecipients : block.feeRecipients = []
  checked : ∀ tx ∈ block.transactions, Checked node.crypto tx
  ascending : Ascending block.transactions
  bound : node.enforceBodyBinding = true → block.blockHash = node.crypto.keccak256 (txHashes block)

theorem checkTransactions_eq_none_iff {node : Node} (index : Nat) :
    checkTransactions node index txs = none ↔ ∀ tx ∈ txs, tx.fromAddr ≠ none ∧
      checkSignature node.crypto node.expectedChainID tx = true ∧
      checkTransactionHash node.crypto tx = true ∧ checkTransactionValues tx = true := by
  induction txs generalizing index with
  | nil => simp [checkTransactions]
  | cons tx rest ih =>
    rw [checkTransactions, Option.or_eq_none_iff, ih, forall_mem_cons]
    apply and_congr_left'
    unfold checkTransaction
    split_ifs with noSender badSignature badHash badValues
    · simp [noSender]
    · simpa using fun _ valid => absurd valid (by simpa using badSignature)
    · simpa using fun _ _ valid => absurd valid (by simpa using badHash)
    · simpa using fun _ _ _ => by simpa using badValues
    · exact iff_of_true rfl ⟨noSender, by simpa using badSignature, by simpa using badHash,
        by simpa using badValues⟩

theorem checkTransactions_eq_none (passed : checkTransactions node index txs = none) :
    ∀ tx ∈ txs, Checked node.crypto tx := by
  intro tx mem
  obtain ⟨sender, signature, hash, values⟩ :=
    (checkTransactions_eq_none_iff index).mp passed tx mem
  exact ⟨Option.isSome_iff_ne_none.mpr sender, sender_of_checkSignature signature,
    by simpa [checkTransactionHash] using hash, values⟩

theorem checkNonces_cons {sender : Address} (known : tx.fromAddr = some sender) :
    checkNonces index lastNonce (tx :: txs) = none ↔
      (∀ previous, lastNonce sender = some previous → previous < tx.nonce) ∧
        checkNonces (index + 1) (update lastNonce sender (some tx.nonce)) txs = none := by
  simp only [checkNonces, known]
  cases lastNonce sender with
  | none => simp
  | some previous =>
    by_cases low : tx.nonce ≤ previous
    · simp [low, UInt64.not_lt.mpr low]
    · simp [low, UInt64.not_le.mp low]

/-- The nonce loop lets a list through exactly if each sender's nonces ascend, above
the last nonce it started with. -/
theorem checkNonces_iff (senders : ∀ tx ∈ txs, tx.fromAddr.isSome) :
    checkNonces index lastNonce txs = none ↔
      Ascending txs ∧ ∀ tx ∈ txs, ∀ sender, tx.fromAddr = some sender →
        ∀ previous, lastNonce sender = some previous → previous < tx.nonce := by
  induction txs generalizing index lastNonce with
  | nil => simp [checkNonces, Ascending]
  | cons tx rest ih =>
    rw [forall_mem_cons] at senders
    obtain ⟨sender, known⟩ := Option.isSome_iff_exists.mp senders.1
    rw [checkNonces_cons known, ih senders.2, Ascending.eq_def (tx :: rest), pairwise_cons,
      forall_mem_cons]
    constructor
    · rintro ⟨head, ascending, above⟩
      have next : ∀ other ∈ rest, other.fromAddr = some sender → tx.nonce < other.nonce :=
        fun other mem held => above other mem sender held _ (update_self ..)
      refine ⟨⟨fun other mem same => next other mem (same ▸ known), ascending⟩,
        fun _ same => ?_, fun other mem holder held previous last => ?_⟩
      · cases known.symm.trans same
        exact head
      · by_cases same : holder = sender
        · subst same
          exact UInt64.lt_trans (head previous last) (next other mem held)
        · exact above other mem holder held previous (by simp [same, last])
    · rintro ⟨⟨next, ascending⟩, head, later⟩
      refine ⟨head sender known, ascending, fun other mem holder held previous last => ?_⟩
      by_cases same : holder = sender
      · subst same
        rw [update_self] at last
        cases last
        exact next other mem (known.trans held.symm)
      · rw [update_of_ne same] at last
        exact later other mem holder held previous last

theorem blockHash_of_checkBodyBinding (nonempty : block.transactions ≠ [])
    (passed : checkBodyBinding crypto block = none) :
    block.blockHash = crypto.keccak256 (txHashes block) := by
  simp only [checkBodyBinding] at passed
  split at passed
  · cases passed
  · next same =>
    rw [not_not.mp same, recomputeBlockHashFromTxs, if_neg nonempty]
    rfl

theorem admitted_of_admissionChecks {blsResults : Option String}
    (passed : admissionChecks node block blsResults = none) : Admitted node block := by
  have passed := (Option.or_eq_none_iff.mp passed).1
  unfold contentChecks at passed
  split at passed
  · cases passed
  next nonempty =>
  split at passed
  · cases passed
  next recipients =>
  simp only [Option.or_eq_none_iff] at passed
  obtain ⟨contents, nonces, binding⟩ := passed
  have checked := checkTransactions_eq_none contents
  refine ⟨nonempty, not_not.mp recipients, checked,
    ((checkNonces_iff fun tx mem => (checked tx mem).sender).mp nonces).1,
    fun enforced => ?_⟩
  rw [if_pos enforced, Option.or_eq_none_iff] at binding
  exact blockHash_of_checkBodyBinding nonempty binding.1

/-- Checked transactions with one hash have one content and one sender, as far as
the outside functions do not collide on them. -/
theorem Checked.same_of_hash_eq {first second : Transaction}
    (collisionFree : CollisionFree crypto txs) (one : Checked crypto first) (mem : first ∈ txs)
    (two : Checked crypto second) (other : second ∈ txs) (same : first.hash = second.hash) :
    ethTxFromConfig first = ethTxFromConfig second ∧ first.fromAddr = second.fromAddr := by
  have content : ethTxFromConfig first = ethTxFromConfig second := by
    apply collisionFree.content first mem second other
    rw [one.hash, two.hash, same]
  exact ⟨content, fromAddr_eq_of_content collisionFree mem content one.signed one.sender
    two.signed two.sender⟩

/-- Ascending nonces make the hashes of a block distinct. -/
theorem Admitted.distinct (admitted : Admitted node block)
    (collisionFree : CollisionFree node.crypto block.transactions) : (txHashes block).Nodup := by
  apply pairwise_map.mpr
  apply admitted.ascending.imp_of_mem
  intro first second mem other ascending same
  obtain ⟨content, sender⟩ := Checked.same_of_hash_eq collisionFree
    (admitted.checked first mem) mem (admitted.checked second other) other same
  have lower := ascending sender
  rw [(fields_of_ethTxFromConfig_eq content).1] at lower
  exact UInt64.lt_irrefl _ lower

/-- `validateRemoteBlock` returned nil. -/
def Accepts (node : Node) (message : BlockMessage) : Prop :=
  (validateRemoteBlock node message).1 = .nil

instance (node : Node) (message : BlockMessage) : Decidable (Accepts node message) :=
  inferInstanceAs (Decidable ((validateRemoteBlock node message).1 = .nil))

theorem Accepts.admitted {message : BlockMessage} (accepted : Accepts node message)
    (carried : message.block = some block) :
    Admitted node block := by
  simp only [Accepts, validateRemoteBlock, carried] at accepted
  split at accepted
  · cases accepted
  · next passed => exact admitted_of_admissionChecks passed

/-! ## Nil pointers -/

/-- An accepted block is processed without a nil dereference exactly when it was
processed before or its recipients, its coinbase and its zkvm address are set: no
gate looks at these. -/
theorem accepted_block_dereferences_iff {node : Node} {message : BlockMessage} {block : ZKBlock}
    (accepted : Accepts node message) (carried : message.block = some block) (env : Env)
    (order : MapOrder Address) (db : DB) :
    (processBlockTransactions env order block db).1 ≠ .nilDereference ↔
      db.blockProcessed.isApplied block.blockHash = true ∨
        (∀ tx ∈ block.transactions, tx.toAddr.isSome) ∧
          block.coinbaseAddr.isSome ∧ block.zkvmAddr.isSome := by
  have checked := (accepted.admitted carried).checked
  have pointers : (affectedAccounts block).isSome ↔
      (∀ tx ∈ block.transactions, tx.toAddr.isSome) ∧
        block.coinbaseAddr.isSome ∧ block.zkvmAddr.isSome := by
    rw [affectedAccounts_isSome_iff]
    exact and_congr_left fun _ =>
      forall₂_congr fun tx member => and_iff_right (checked tx member).sender
  rw [← pointers]
  rcases processBlockTransactions_cases env block db with
    ⟨done, result⟩ | ⟨fresh, missing, result⟩ | ⟨fresh, present, result⟩ |
    ⟨fresh, affected, _, _, collected, -, ⟨_, _, -, result⟩ | ⟨_, _, _, _, -, -, result⟩⟩
  · simp [result, done]
  · simp [result, fresh, missing]
  · simp [result, present]
  · simp [result, collected]
  · simp [result, collected, endBlock]

/-- Hash functions for examples: digests that keep the nonce of a transaction and
the order of a list of words. -/
def sampleCrypto : Crypto where
  txHash
    | .legacy nonce .. => BitVec.ofNat 256 (nonce.toNat + 1)
    | _ => 0
  sender _ _ := some 1
  keccak256 words := words.foldl (fun digest word => digest * 31 + word) 7
  sha256 left right := left * 31 + right

theorem sampleCrypto_collisionFree (content : ∀ first ∈ txs, ∀ second ∈ txs,
      sampleCrypto.txHash (ethTxFromConfig first) = sampleCrypto.txHash (ethTxFromConfig second) →
        ethTxFromConfig first = ethTxFromConfig second) : CollisionFree sampleCrypto txs where
  content
  recovery _ _ _ _ _ _ recovered again :=
    (Option.some.inj recovered).symm.trans (Option.some.inj again)

/-- A node at height 6 with a committee of one buddy. -/
def sampleNode : Node where
  crypto := sampleCrypto
  committee := { source := some (.ok [("buddy", "key")]) }
  verifier := { verifyForBlock := fun _ _ _ _ _ => true, verify := fun _ _ => false }
  decodeResponses _ := some [{ agree := true, pubKey := "key", peerID := "buddy" }]
  localTip := some 6
  blockByNumber _ := some { blockHash := 60 }

/-- A signed transfer of 10 from 1 to 2 at a fee of 4. -/
def signedTransfer (nonce : UInt64) : Transaction :=
  { smallTransfer (BitVec.ofNat 256 (nonce.toNat + 1)) nonce with
    v := some 27, r := some 1, s := some 1 }

/-- The next block for `sampleNode`. -/
def sampleBlock (txs : List Transaction) (coinbase : Option Address) : ZKBlock :=
  { transactions := txs, coinbaseAddr := coinbase, zkvmAddr := some 4, prevHash := 60
    blockHash := sampleCrypto.keccak256 (txs.map Transaction.hash), blockNumber := 7 }

def certified (block : ZKBlock) : BlockMessage :=
  { block := some block, blsResults := some "votes" }

theorem accepted_block_without_coinbase_panics :
    Accepts sampleNode (certified (sampleBlock [signedTransfer 0] none)) ∧
      (processBlockTransactions {} MapOrder.listed (sampleBlock [signedTransfer 0] none)
        { accounts := fundedStore }).1 = .nilDereference := by
  decide +kernel

theorem accepted_block_with_coinbase_does_not_panic :
    Accepts sampleNode (certified (sampleBlock [signedTransfer 0] (some 3))) ∧
      (processBlockTransactions {} MapOrder.listed (sampleBlock [signedTransfer 0] (some 3))
        { accounts := fundedStore }).1 ≠ .nilDereference := by
  have accepted : Accepts sampleNode (certified (sampleBlock [signedTransfer 0] (some 3))) := by
    decide +kernel
  exact ⟨accepted, (accepted_block_dereferences_iff accepted rfl {} MapOrder.listed _).mpr
    (.inr (by decide))⟩

end Jmdn.Messaging
