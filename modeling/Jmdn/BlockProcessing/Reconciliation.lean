import Jmdn.DBOPs.ReconGroups
import Jmdn.Messaging.Admission

/-!
# Live application against reconciliation

The same accepted block can reach the accounts in two ways: `ProcessBlockTransactions`
executes its transactions one by one, and `ApplyBlockRecon` adds their summed
deltas.  Both add the same effects and count the same sent transactions.  They
set the nonce differently: the live path stores the successor of the last nonce,
reconciliation the greatest of the successors and the stored nonce.
-/

namespace Jmdn.BlockProcessing

open Config DBOPs Go Ledger List Messaging Security

variable {addr : Address} {rest : List Transaction} {tx : Transaction} {block : ZKBlock}
  {stored : UInt64} {env : Env}

/-- A transaction whose nonce has no successor is the only one of its sender, and
the sender's stored nonce is zero. -/
def NonceSafeAt (txs : List Transaction) (stored : UInt64) (address : Address) : Prop :=
  ∀ tx ∈ txs, tx.fromAddr = some address → tx.nonce + 1 = 0 →
    stored = 0 ∧ ∀ other ∈ txs, other.fromAddr = some address → other.nonce = tx.nonce

def NonceSafe (block : ZKBlock) (store : Accounts) : Prop :=
  ∀ address, NonceSafeAt block.transactions (store.txNonce address) address

theorem nonceCandidates_cons (tx : Transaction) (rest : List Transaction) (addr : Address) :
    nonceCandidates (tx :: rest) addr =
      if tx.fromAddr = some addr then (tx.nonce + 1).toNat :: nonceCandidates rest addr
      else nonceCandidates rest addr := by
  by_cases sender : tx.fromAddr = some addr <;> simp [nonceCandidates, sender]

theorem toNat_succ {nonce : UInt64} (successor : nonce + 1 ≠ 0) :
    (nonce + 1).toNat = nonce.toNat + 1 := by
  have nonzero : (nonce + 1).toNat ≠ 0 := fun zero => successor (UInt64.toNat_inj.mp zero)
  rw [UInt64.toNat_add] at nonzero ⊢
  have bound := nonce.toNat_lt
  have one : (1 : UInt64).toNat = 1 := rfl
  omega

/-- Nothing of a sender follows a nonce without successor. -/
theorem not_sender_of_ascending (ascending : Ascending (tx :: rest))
    (sender : tx.fromAddr = some addr) (last : tx.nonce + 1 = 0) :
    ∀ other ∈ rest, other.fromAddr ≠ some addr := by
  intro other mem same
  have above : tx.nonce < other.nonce :=
    (pairwise_cons.mp ascending).1 other mem (sender.trans same.symm)
  rw [UInt64.lt_iff_toNat_lt] at above
  have wrapped : (tx.nonce + 1).toNat = 0 := by rw [last]; rfl
  rw [UInt64.toNat_add] at wrapped
  have bound := other.nonce.toNat_lt
  have one : (1 : UInt64).toNat = 1 := rfl
  omega

theorem nonceSafeAt_cons_of_last (sender : tx.fromAddr = some addr) (last : tx.nonce + 1 = 0)
    (others : ∀ other ∈ rest, other.fromAddr ≠ some addr) :
    NonceSafeAt (tx :: rest) stored addr ↔ stored = 0 := by
  constructor
  · exact fun safe => (safe tx mem_cons_self sender last).1
  · rintro zero other mem same wraps
    refine ⟨zero, fun third found again => ?_⟩
    have isHead : ∀ candidate ∈ tx :: rest, candidate.fromAddr = some addr → candidate = tx := by
      intro candidate listed sends
      exact (mem_cons.mp listed).resolve_right fun later => others candidate later sends
    rw [isHead other mem same, isHead third found again]

/-- After a nonce with a successor, the list is safe when nothing in it wraps. -/
theorem nonceSafeAt_cons_of_succ (sender : tx.fromAddr = some addr) (successor : tx.nonce + 1 ≠ 0) :
    NonceSafeAt (tx :: rest) stored addr ↔ NonceSafeAt rest (tx.nonce + 1) addr := by
  constructor
  · intro safe other mem same wraps
    have equal := (safe other (mem_cons_of_mem _ mem) same wraps).2 tx mem_cons_self
      sender
    exact absurd (equal ▸ wraps) successor
  · intro safe other mem same wraps
    rcases mem_cons.mp mem with rfl | later
    · exact absurd wraps successor
    · exact absurd (safe other later same wraps).1 successor

/-- The nonce an execution leaves is the one reconciliation computes exactly when
no nonce comes around to zero under a higher one. -/
theorem Executes.nonceCandidates_iff {before after : DB} {txs : List Transaction}
    (run : Executes env block before txs after) (ascending : Ascending txs) (addr : Address) :
    (nonceCandidates txs addr).foldl max (before.accounts.txNonce addr).toNat =
        (after.accounts.txNonce addr).toNat ↔
      NonceSafeAt txs (before.accounts.txNonce addr) addr := by
  induction run with
  | nil db => simp [nonceCandidates, NonceSafeAt]
  | @cons before middle after tx rest _ applies executes ih =>
    have next := ih (pairwise_cons.mp ascending).2
    rw [applies.txNonce] at next
    rw [nonceCandidates_cons]
    by_cases sender : tx.fromAddr = some addr
    · rw [if_pos sender] at next ⊢
      rw [foldl_cons]
      by_cases last : tx.nonce + 1 = 0
      · have others := not_sender_of_ascending ascending sender last
        have none : nonceCandidates rest addr = [] := by
          simpa [nonceCandidates] using others
        rw [nonceSafeAt_cons_of_last sender last others, none, foldl_nil,
          executes.txNonce_of_not_sender others, applies.txNonce, if_pos sender, last,
          ← UInt64.toNat_inj]
        simp
      · have fresh := UInt64.le_iff_toNat_le.mp (applies.fresh addr sender)
        rw [nonceSafeAt_cons_of_succ sender last, ← next,
          Nat.max_eq_right (by rw [toNat_succ last]; omega)]
    · rw [if_neg sender] at next ⊢
      simp [next, NonceSafeAt, sender]

/-! ## The two paths on one block -/

theorem txTouchedAccounts_length (noRecipients : block.feeRecipients = []) (tx : Transaction) :
    (txTouchedAccounts block tx).length < reconGroupOpBudget := by
  have few : ∀ pointer : Option Address, pointer.toList.length ≤ 1 := fun pointer => by
    cases pointer <;> simp
  have sender := few tx.fromAddr
  have recipient := few tx.toAddr
  have coinbase := few block.coinbaseAddr
  have zkvm := few block.zkvmAddr
  have budget : reconGroupOpBudget = 1000 := rfl
  simp only [txTouchedAccounts, noRecipients, map_nil, append_nil, length_append]
  omega

/-- Without fee recipients, reconciliation reads no account the live path does
not rewrite. -/
theorem mem_touchedAddresses (noRecipients : block.feeRecipients = [])
    (touched : addr ∈ txTouchedAccounts block tx) :
    addr ∈ touchedAddresses block tx := by
  simp only [txTouchedAccounts, noRecipients, map_nil, append_nil, mem_append,
    Option.mem_toList] at touched
  rcases touched with ((sender | recipient) | coinbase) | zkvm
  · exact .inl sender
  · exact .inr (.inl recipient)
  · refine .inr (.inr (.inl ⟨⟨addr, tx.gasFee - tx.gasFee / 2⟩, ?_, rfl⟩))
    rw [noRecipients, splitFee_nil, coinbase]
    exact mem_singleton_self _
  · exact .inr (.inr (.inr zkvm))

/-- A successful call on an unprocessed block whose transactions are all new has
executed every one of them. -/
theorem executes_of_processed {order : MapOrder Address} {db : DB}
    (distinct : (txHashes block).Nodup)
    (unprocessed : db.blockProcessed.isApplied block.blockHash = false)
    (unmarked : ∀ tx ∈ block.transactions, db.txApplied tx.hash = false)
    (applied : (processBlockTransactions env order block db).1 = .nil) :
    ∃ final, Executes env block (bumpCarriedOrdinals env block db) block.transactions final ∧
      final.accounts = (processBlockTransactions env order block db).2.accounts ∧
      final.txProcessed = (processBlockTransactions env order block db).2.txProcessed := by
  rcases processBlockTransactions_cases env block db with
    ⟨done, -⟩ | ⟨-, -, called⟩ | ⟨-, -, called⟩ | ⟨-, affected, coinbase, zkvm, -, pays,
      ⟨successful, final, run, called⟩ | ⟨place, hash, cause, reached, -, -, called⟩⟩
  case inr.inr.inr.inl =>
    rw [pendingBefore_unmarked distinct unmarked] at run
    rw [called]
    refine ⟨final, run.executes pays, ?_, ?_⟩ <;>
      · rw [finishBlock_others]
  · rw [unprocessed] at done
    cases done
  all_goals
    rw [called] at applied
    cases applied

/-- Two states hold the same balances, nonces and counts, and the same
transactions are marked applied. -/
structure SameOutcome (first second : DB) : Prop where
  ledger : SameLedger first.accounts second.accounts
  marked : ∀ hash, first.txApplied hash = second.txApplied hash

/-- An accepted block that the live path applies in full is also reconciled in
full.  The two results agree exactly when no nonce of the block comes around to
zero over a higher nonce of its sender. -/
theorem reconciliation_agrees_iff {node : Node} {message : BlockMessage} {block : ZKBlock}
    (accepted : Accepts node message) (carried : message.block = some block)
    (collisionFree : CollisionFree node.crypto block.transactions)
    {env : Env} {order : MapOrder Address} {db : DB}
    (unprocessed : db.blockProcessed.isApplied block.blockHash = false)
    (unmarked : ∀ tx ∈ block.transactions, db.txApplied tx.hash = false)
    (applied : (processBlockTransactions env order block db).1 = .nil)
    {reconEnv : ReconEnv} {number : UInt64} {expectHash : Option Hash}
    (stored : db.blocks number = some block)
    (expected : ∀ hash, expectHash = some hash → hash = block.blockHash)
    (filters : reconEnv.filterOk = true) (commits : ∀ group, reconEnv.commitOk group = true) :
    (applyBlockRecon reconEnv number expectHash db).1 = .ok () ∧
      (SameOutcome (applyBlockRecon reconEnv number expectHash db).2
          (processBlockTransactions env order block db).2 ↔
        NonceSafe block db.accounts) := by
  have admitted := accepted.admitted carried
  have distinct := admitted.distinct collisionFree
  obtain ⟨final, executes, accounts, markers⟩ :=
    executes_of_processed distinct unprocessed unmarked applied
  have everything : unappliedTransactions block db = block.transactions :=
    filter_eq_self.mpr fun tx member => by simp [unmarked tx member]
  have readable : Readable block db.accounts := by
    intro tx member address touched
    rw [← bumped_accounts env block db]
    exact executes.readable address
      ⟨tx, member, mem_touchedAddresses admitted.feeRecipients touched⟩
  have success := applyBlockRecon_succeeds stored expected filters commits distinct
    (txTouchedAccounts_length admitted.feeRecipients) readable
  obtain ⟨txs, -, reconciles, all⟩ := applyBlockRecon_reconciles stored distinct
  rw [all success, everything] at reconciles
  refine ⟨success, ?_⟩
  have nonces := fun address => executes.nonceCandidates_iff admitted.ascending address
  simp only [bumped_accounts, ← reconciles.txNonce] at nonces
  constructor
  · intro same address
    exact (nonces address).mp (by rw [same.ledger.txNonce, accounts])
  · intro safe
    have adds := executes.adds
    rw [bumped_accounts] at adds
    have amounts := reconciles.adds.agree adds (by
      rintro address (⟨tx, member, touches⟩ | written)
      · exact readable tx member address (txDeltaKeys_subset block tx touches)
      · rw [← bumped_accounts env block db]
        exact executes.readable address written)
    constructor
    · rw [← accounts]
      constructor
      · exact fun address => congrFun amounts address
      · exact fun address => UInt64.toNat_inj.mp ((nonces address).mpr (safe address))
      · intro address
        rw [reconciles.txCountSent, executes.txCountSent, bumped_accounts]
        rfl
    · intro hash
      have live := executes.txApplied hash
      rw [DB.txApplied, markers] at live
      rw [reconciles.txApplied, DB.txApplied, DB.txApplied, live, DB.txApplied,
        bumped_txProcessed]

/-- A funded node that has stored a block at height 7. -/
def storedAt7 (block : ZKBlock) : DB :=
  { accounts := fundedStore, blocks := fun number => if number = 7 then some block else none }

/-- The transactions with nonce 0 and with the greatest nonce, in one block. -/
def wrappingBlock : ZKBlock :=
  sampleBlock [signedTransfer 0, signedTransfer 18446744073709551615] (some 3)

theorem reconciliation_keeps_wrapped_nonce :
    Accepts sampleNode (certified wrappingBlock) ∧
    (processBlockTransactions {} MapOrder.listed wrappingBlock (storedAt7 wrappingBlock)).1 = .nil ∧
    (processBlockTransactions {} MapOrder.listed wrappingBlock
      (storedAt7 wrappingBlock)).2.accounts.txNonce 1 = 0 ∧
    (applyBlockRecon {} 7 none (storedAt7 wrappingBlock)).1 = .ok () ∧
    (applyBlockRecon {} 7 none (storedAt7 wrappingBlock)).2.accounts.txNonce 1 = 1 := by
  decide +kernel

theorem reconciliation_agrees_on_two_transfers :
    let block := sampleBlock [signedTransfer 0, signedTransfer 1] (some 3)
    SameOutcome (applyBlockRecon {} 7 none (storedAt7 block)).2
      (processBlockTransactions {} MapOrder.listed block (storedAt7 block)).2 := by
  intro block
  have accepted : Accepts sampleNode (certified block) := by decide +kernel
  have collisionFree : CollisionFree sampleNode.crypto block.transactions :=
    sampleCrypto_collisionFree (by decide +kernel)
  have successors : ∀ tx ∈ block.transactions, tx.nonce + 1 ≠ 0 := by decide +kernel
  have safe : NonceSafe block (storedAt7 block).accounts := fun address tx member _ wraps =>
    absurd wraps (successors tx member)
  exact (reconciliation_agrees_iff accepted rfl collisionFree (by decide +kernel)
    (by decide +kernel) (by decide +kernel) rfl (by simp) rfl fun _ => rfl).2.mpr safe

end Jmdn.BlockProcessing
