import Jmdn.Messaging.Admission
import Jmdn.Security.Validation

/-!
# What a vote says about admission

A voter checks a block with `CheckZKBlockValidation`; a receiver of the certified
block checks its contents with other code.  Here the two are compared: which
approved blocks pass the content checks of every receiver.
-/

namespace Jmdn.Messaging

open BlockProcessing Config DBOPs Go List Security

variable {txs : List Transaction} {voter : Voter} {cache : SecurityCache}

/-! ## Each gate on its own -/

theorem checkNonces_eq_none_iff (senders : ∀ tx ∈ txs, tx.fromAddr.isSome) :
    checkNonces 0 (fun _ => none) txs = none ↔ Ascending txs :=
  (checkNonces_iff senders).trans (and_iff_left (by simp))

/-- The transactions root of a block is left out, or names the Merkle root of the
transaction hashes. -/
def RootBinds (crypto : Crypto) (block : ZKBlock) : Prop :=
  trimSpace block.txnsRoot = "" ∨
    equalFoldHex (trimStart block.txnsRoot "0x")
      (trimStart (recomputeTxnsRoot crypto block.transactions) "0x") = true

theorem checkBodyBinding_eq_none_iff {crypto : Crypto} {block : ZKBlock}
    (hashed : block.blockHash = recomputeBlockHashFromTxs crypto block.transactions) :
    checkBodyBinding crypto block = none ↔ RootBinds crypto block := by
  simp only [checkBodyBinding, hashed, ne_eq, not_true_eq_false, if_false, RootBinds]
  by_cases blank : trimSpace block.txnsRoot = ""
  · simp [blank]
  · simp [blank]

/-! ## Nonces in the voter's cache -/

/-- The largest nonce, after which the cached nonce wraps to zero. -/
def maxNonce : UInt64 := 18446744073709551615

/-- No transaction with the largest nonce is followed by one of its sender. -/
def NoWrap (txs : List Transaction) : Prop :=
  txs.Pairwise fun first second => first.fromAddr = second.fromAddr → first.nonce ≠ maxNonce

theorem lt_of_succ_le {first second : UInt64} (noWrap : first ≠ maxNonce)
    (above : first + 1 ≤ second) : first < second := by
  have small : first.toNat ≠ 18446744073709551615 := fun equal =>
    noWrap (UInt64.toNat_inj.mp equal)
  have bound := first.toNat_lt
  rw [UInt64.le_iff_toNat_le, UInt64.toNat_add] at above
  rw [UInt64.lt_iff_toNat_lt]
  simp only [UInt64.reduceToNat] at above
  omega

/-- Approved transactions have ascending nonces, unless the cached nonce wraps. -/
theorem ascending_of_approvedAll (approved : ApprovedAll voter cache txs) (noWrap : NoWrap txs) :
    Ascending txs ∧ ∀ tx ∈ txs, ∀ sender, tx.fromAddr = some sender →
      cache.accounts.txNonce sender ≤ tx.nonce := by
  induction approved with
  | nil cache => exact ⟨List.Pairwise.nil, by simp⟩
  | @cons before after tx rest first _ ih =>
    obtain ⟨notLast, laterNoWrap⟩ := pairwise_cons.mp noWrap
    obtain ⟨ascending, above⟩ := ih laterNoWrap
    obtain ⟨sender, _, known, _, _, _, fresh⟩ := first.funded
    -- the transactions after it start above its nonce
    have later : ∀ other ∈ rest, tx.fromAddr = other.fromAddr → tx.nonce < other.nonce := by
      intro other mem same
      have start := above other mem sender (same ▸ known)
      rw [first.txNonce, if_pos known] at start
      exact lt_of_succ_le (notLast other mem same) start
    refine ⟨pairwise_cons.mpr ⟨later, ascending⟩, ?_⟩
    rw [forall_mem_cons]
    constructor
    · intro holder held
      cases known.symm.trans held
      exact fresh
    · intro other mem holder held
      by_cases same : tx.fromAddr = some holder
      · cases known.symm.trans same
        have greater := later other mem (known.trans held.symm)
        exact UInt64.le_of_lt (UInt64.lt_of_le_of_lt fresh greater)
      · have start := above other mem holder held
        rwa [first.txNonce, if_neg same] at start

theorem noWrap_of_ascending (ascending : Ascending txs) : NoWrap txs := by
  apply ascending.imp
  intro first second lower same largest
  have less := lower same
  have bound := second.nonce.toNat_lt
  rw [largest, UInt64.lt_iff_toNat_lt] at less
  have value : maxNonce.toNat = 18446744073709551615 := rfl
  omega

/-! ## Approved blocks at the gates -/

/-- What a voter does not look at: the fee recipients, the signs of the numbers
and a tip above the fee cap, the nonce after the largest one, and, for a node that
enforces it, the transactions root. -/
structure Admissible (node : Node) (block : ZKBlock) : Prop where
  feeRecipients : block.feeRecipients = []
  values : ∀ tx ∈ block.transactions,
    (∀ value ∈ tx.value, 0 ≤ value) ∧ (∀ price ∈ tx.gasPrice, 0 ≤ price) ∧
      (∀ fee ∈ tx.maxFee, 0 ≤ fee) ∧ (∀ tip ∈ tx.maxPriorityFee, 0 ≤ tip) ∧
      ∀ fee ∈ tx.maxFee, ∀ tip ∈ tx.maxPriorityFee, tip ≤ fee
  nonces : NoWrap block.transactions
  root : node.enforceBodyBinding = true → RootBinds node.crypto block

theorem ApprovedAll.approved (all : ApprovedAll voter cache txs) :
    ∀ tx ∈ txs, ∃ before after, Approved voter tx before after := by
  induction all with
  | nil cache => simp
  | @cons before after tx rest first _ ih =>
    rw [forall_mem_cons]
    exact ⟨⟨before, after, first⟩, ih⟩

/-- The voter's chain, or the transaction's own where a node has none configured,
gives the same signature check. -/
theorem checkSignature_of_approved {tx : Transaction} {before after : SecurityCache}
    (approved : Approved voter tx before after) {chain : Option Int}
    (sameChain : chain = voter.expectedChainID ∨ chain = none) :
    checkSignature voter.crypto chain tx = true := by
  have signed := approved.signed
  rcases sameChain with rfl | rfl
  · exact signed
  have same : voter.expectedChainID.or tx.chainID = none.or tx.chainID := by
    rw [approved.chain, Option.or_self]
    rfl
  unfold checkSignature at signed ⊢
  rwa [← same]

/-- An approved block passes the content checks of a node of the same chain
exactly when what the voter does not look at is in order. -/
theorem approved_block_admissible_iff {voter : Voter} {store : Accounts} {block : ZKBlock}
    (approved : checkZKBlockValidation voter store block = .ok ()) {node : Node}
    (sameCrypto : node.crypto = voter.crypto)
    (sameChain : node.expectedChainID = voter.expectedChainID ∨ node.expectedChainID = none) :
    contentChecks node block = none ↔ Admissible node block := by
  obtain ⟨nonempty, blockHash, collected, -, all⟩ := checkZKBlockValidation_ok approved
  have checked : ∀ tx ∈ block.transactions, tx.fromAddr.isSome ∧
      checkSignature node.crypto node.expectedChainID tx = true ∧
      checkTransactionHash node.crypto tx = true := by
    intro tx member
    obtain ⟨before, after, passed⟩ := ApprovedAll.approved all tx member
    obtain ⟨sender, _, known, _⟩ := passed.funded
    rw [sameCrypto, known]
    exact ⟨rfl, checkSignature_of_approved passed sameChain, passed.hash⟩
  have fromTxs : block.blockHash = recomputeBlockHashFromTxs node.crypto block.transactions := by
    rw [recomputeBlockHashFromTxs, if_neg nonempty, sameCrypto, ← blockHash]
    rfl
  have fromContents : checkBlockHash node.crypto block = true := by
    have hashes : block.transactions.map (fun tx => node.crypto.txHash (ethTxFromConfig tx)) =
        block.transactions.map Transaction.hash := by
      apply map_congr_left
      intro tx member
      exact of_decide_eq_true (checked tx member).2.2
    rw [checkBlockHash, recomputeBlockHashFromContents, if_neg nonempty, hashes, fromTxs,
      recomputeBlockHashFromTxs, if_neg nonempty]
    exact decide_eq_true rfl
  have nonces := checkNonces_eq_none_iff fun tx member => (checked tx member).1
  rw [contentChecks, if_neg nonempty]
  constructor
  · intro passed
    split at passed
    · cases passed
    next recipients =>
    simp only [Option.or_eq_none_iff] at passed
    obtain ⟨transactions, ascending, binding⟩ := passed
    rw [checkTransactions_eq_none_iff] at transactions
    constructor
    · exact not_not.mp recipients
    · intro tx member
      exact checkTransactionValues_iff.mp (transactions tx member).2.2.2
    · exact noWrap_of_ascending (nonces.mp ascending)
    · intro enforced
      rw [if_pos enforced, Option.or_eq_none_iff] at binding
      exact (checkBodyBinding_eq_none_iff fromTxs).mp binding.1
  · rintro ⟨recipients, values, noWrap, root⟩
    rw [if_neg (not_not.mpr recipients)]
    simp only [Option.or_eq_none_iff]
    refine ⟨?_, ?_, ?_⟩
    · rw [checkTransactions_eq_none_iff]
      intro tx member
      obtain ⟨sender, signed, hashed⟩ := checked tx member
      exact ⟨Option.isSome_iff_ne_none.mp sender, signed, hashed,
        checkTransactionValues_iff.mpr (values tx member)⟩
    · exact nonces.mpr (ascending_of_approvedAll all noWrap).1
    · rw [if_pos fromContents, Option.or_none]
      exact ite_eq_right_iff.mpr fun enforced =>
        (checkBodyBinding_eq_none_iff fromTxs).mpr (root enforced)

/-- A voter on chain 8. -/
def chainVoter : Voter := { expectedChainID := some 8, crypto := sampleCrypto }

/-- A signed transfer on chain 8. -/
def chainTransfer (nonce : UInt64) : Transaction :=
  { signedTransfer nonce with chainID := some 8 }

/-- A block with two transfers of one sender. -/
def chainBlock : ZKBlock := sampleBlock [chainTransfer 0, chainTransfer 1] (some 3)

theorem approved_transfers_are_admitted :
    checkZKBlockValidation chainVoter fundedStore chainBlock = .ok () ∧
      contentChecks sampleNode chainBlock = none := by
  have approved : checkZKBlockValidation chainVoter fundedStore chainBlock = .ok () := by
    decide +kernel
  refine ⟨approved, (approved_block_admissible_iff approved rfl (.inr rfl)).mpr ?_⟩
  constructor
  case feeRecipients => rfl
  case values => decide
  case nonces =>
    have first : (chainTransfer 0).nonce ≠ maxNonce := by decide
    simp [NoWrap, chainBlock, sampleBlock, first]
  case root => exact fun _ => .inl (by decide +kernel)

/-- A block with a fee recipient is approved, and every node rejects it. -/
theorem approved_fee_recipients_are_rejected :
    checkZKBlockValidation chainVoter fundedStore
        { chainBlock with feeRecipients := [⟨5, 1⟩] } = .ok () ∧
      ∀ node, contentChecks node
          { chainBlock with feeRecipients := [⟨5, 1⟩] } =
        some (.feeRecipientsUnsupported (chainBlock).blockHash) :=
  ⟨by decide +kernel, fun _ => rfl⟩

end Jmdn.Messaging
