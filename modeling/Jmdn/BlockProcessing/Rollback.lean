import Mathlib.Algebra.Order.BigOperators.Group.List
import Mathlib.Data.List.TakeWhile
import Jmdn.BlockProcessing.Outcome

/-!
# Undoing a failed block

A block whose transaction fails is undone from a snapshot of the addresses the
caller collected.  `restoreAll` describes the accounts afterwards: every
snapshotted address ahead of the first refused write has its old ledger fields,
every other address keeps what the executed transactions left there.
-/

namespace Jmdn.BlockProcessing

open Config DBOPs DBOPs.Accounts Go Ledger List

variable {addr : Address} {affected : List Address} {block : ZKBlock} {env : Env} {db : DB}
  {position : Nat}

/-- Restore every listed account, none being refused. -/
def restoreAll (store : Accounts) (entries : List (Address × AccountSnapshot)) : Accounts :=
  entries.foldl (fun current entry => current.put (restoredAccount current entry.1 entry.2)) store

/-- The entries ahead of the first one whose write is refused. -/
def acceptedEntries (entries : List (Address × AccountSnapshot)) :
    List (Address × AccountSnapshot) :=
  entries.takeWhile fun entry => entry.1 ≠ 0

@[simp]
theorem restoredAccount_address (store : Accounts) (addr : Address) (snap : AccountSnapshot) :
    (restoredAccount store addr snap).address = addr := by
  cases stored : store.get addr with
  | none => simp [restoredAccount, stored]
  | some doc => simpa [restoredAccount, stored] using store.keyed addr doc stored

theorem rollbackState_eq (store : Accounts) (entries : List (Address × AccountSnapshot)) :
    (rollbackState store entries).1 = restoreAll store (acceptedEntries entries) := by
  induction entries generalizing store with
  | nil => rfl
  | cons entry rest ih =>
    obtain ⟨addr, snap⟩ := entry
    by_cases zero : addr = 0
    · simp [rollbackState, updateAccount, acceptedEntries, restoreAll, zero]
    have write : updateAccount store (restoredAccount store addr snap) =
        some (store.put (restoredAccount store addr snap)) := by
      rw [updateAccount, restoredAccount_address, if_neg zero]
    have accepted : acceptedEntries ((addr, snap) :: rest) =
        (addr, snap) :: acceptedEntries rest :=
      takeWhile_cons_of_pos (by simpa using zero)
    rw [rollbackState, write, accepted]
    exact ih (store.put (restoredAccount store addr snap))

/-- A rollback returns no error when no snapshotted address is the zero address. -/
theorem rollbackState_succeeds_iff (store : Accounts) (entries : List (Address × AccountSnapshot)) :
    (rollbackState store entries).2 = true ↔ ∀ entry ∈ entries, entry.1 ≠ 0 := by
  induction entries generalizing store with
  | nil => simp [rollbackState]
  | cons entry rest ih =>
    obtain ⟨addr, snap⟩ := entry
    rw [rollbackState, updateAccount, restoredAccount_address, forall_mem_cons]
    by_cases zero : addr = 0
    · simp [zero]
    · rw [if_neg zero]
      exact (ih _).trans ⟨fun others => ⟨zero, others⟩, And.right⟩

/-- An address keeps its document or has it restored from one of its entries. -/
theorem restoreAll_cases (store : Accounts) (entries : List (Address × AccountSnapshot))
    (addr : Address) :
    (addr ∉ entries.map Prod.fst ∧
        (restoreAll store entries).get addr = store.get addr) ∨
      ∃ entry ∈ entries, entry.1 = addr ∧
        (restoreAll store entries).get addr = some (restoredAccount store addr entry.2) := by
  -- the last entry of an address counts
  induction entries using List.reverseRecOn with
  | nil => exact .inl ⟨not_mem_nil, rfl⟩
  | append_singleton entries last ih =>
    rw [restoreAll, foldl_append, foldl_cons, foldl_nil, ← restoreAll]
    by_cases same : addr = last.1
    · subst same
      refine .inr ⟨last, by simp, rfl, ?_⟩
      rw [put_get, restoredAccount_address, if_pos rfl]
      rcases ih with ⟨-, kept⟩ | ⟨entry, -, -, restored⟩
      · rw [restoredAccount, kept, restoredAccount]
      · rw [restoredAccount, restored]
        rfl
    · rw [put_get_of_ne _ (by rwa [restoredAccount_address])]
      rcases ih with ⟨absent, kept⟩ | ⟨entry, mem, restored⟩
      · exact .inl ⟨by simpa [same] using absent, kept⟩
      · exact .inr ⟨entry, mem_append_left _ mem, restored⟩

/-- The ledger fields of a snapshot are those of the store it was taken from. -/
theorem snapshotAccount_ledger (store : Accounts) (addr : Address) :
    setString (snapshotAccount store addr).balance = store.amount addr ∧
      (snapshotAccount store addr).txNonce = store.txNonce addr ∧
      (snapshotAccount store addr).txCountSent = store.txCountSent addr := by
  cases stored : store.get addr with
  | none =>
    simp [snapshotAccount, stored, amount_of_absent, Accounts.txNonce,
      Accounts.txCountSent, setString_zero]
  | some doc =>
    simp [snapshotAccount, stored, amount_of_stored stored, Accounts.txNonce,
      Accounts.txCountSent]

/-! ## Failed calls -/

/-- The transactions an undisturbed call executes before the first failing one. -/
def executedBeforeFailure (env : Env) (block : ZKBlock) (db : DB) : List Transaction :=
  match block.coinbaseAddr, block.zkvmAddr with
  | some coinbase, some zkvm =>
    executedPrefix env block coinbase zkvm
      (pendingTransactions (filterProcessedTxMarkers db.txProcessed (txHashes block))
        block.transactions [])
      (bumpCarriedOrdinals env block db)
  | _, _ => []

/-- The accounts after the rollback of a run. -/
def rolledBack (order : MapOrder Address) (affected : List Address) (original reached : Accounts) :
    Accounts :=
  restoreAll reached (acceptedEntries (originalState order affected original))

section

variable {env : Env} {snapshots : List (Address × AccountSnapshot)} {successful : List Hash}
  {db : DB}

theorem failBlock_eq
    (complete : ∀ chunk, env.revokeFailsAt = some chunk → successful.length ≤ 500 * chunk) :
    failBlock env snapshots successful db = (false, { db with
      txProcessed := db.txProcessed.revoke successful
      accounts := restoreAll db.accounts (acceptedEntries snapshots) }) := by
  cases fails : env.revokeFailsAt with
  | none => simp [failBlock, revokeTxProcessedMarkers, fails, rollbackState_eq]
  | some chunk =>
    have short := complete chunk fails
    simp [failBlock, revokeTxProcessedMarkers, fails, short, take_of_length_le short,
      rollbackState_eq]

/-- A failed call that reports no failed revocation has written it. -/
theorem complete_of_failBlock (written : (failBlock env snapshots successful db).1 = false) :
    ∀ chunk, env.revokeFailsAt = some chunk → successful.length ≤ 500 * chunk := by
  intro chunk fails
  by_contra long
  simp [failBlock, revokeTxProcessedMarkers, fails, long] at written

end

/-- A call that fails at a transaction has processed the pending transactions
before it.  Every map order leads there; with the revocation written, the orders
differ only in the restoring. -/
theorem processBlockTransactions_failed {order : MapOrder Address} {total : Nat} {hash : Hash}
    {cause : TxError} {revokeFailed : Bool}
    (failed : (processBlockTransactions env order block db).1 =
      .error (.transactionFailed position total hash cause revokeFailed)) :
    db.blockProcessed.isApplied block.blockHash = false ∧
    ∃ affected coinbase zkvm reached, affectedAccounts block = some affected ∧
      PaysTo block coinbase zkvm ∧
      Performs env block coinbase zkvm (bumpCarriedOrdinals env block db)
        (pendingBefore block db position) reached ∧
      executedBeforeFailure env block db = pendingBefore block db position ∧
      (env.revokeFailsAt = none ∨ revokeFailed = false →
        ∀ other, (processBlockTransactions env other block db).2 = { reached with
          txProcessed := reached.txProcessed.revoke
            ((pendingBefore block db position).map Transaction.hash)
          accounts := rolledBack other affected db.accounts reached.accounts }) := by
  rcases processBlockTransactions_cases env block db with
    ⟨-, called⟩ | ⟨-, -, called⟩ | ⟨-, -, called⟩ |
      ⟨fresh, affected, coinbase, zkvm, collected, pays,
        ⟨successful, final, -, called⟩ | ⟨place, culprit, reason, reached, run, executed, called⟩⟩
  case inr.inr.inr.inr =>
    rw [called] at failed
    simp only [endBlock, BlockResult.error.injEq, BlockError.transactionFailed.injEq] at failed
    obtain ⟨rfl, _, _, _, flag⟩ := failed
    refine ⟨fresh, affected, coinbase, zkvm, reached, collected, pays, run, ?_, ?_⟩
    · rw [← executed, pendingBefore_length, executedBeforeFailure, pays.coinbase, pays.zkvm]
    intro written other
    have complete : ∀ chunk, env.revokeFailsAt = some chunk →
        ((pendingBefore block db place).map Transaction.hash).length ≤ 500 * chunk := by
      rcases written with never | rfl
      · simp [never]
      · exact complete_of_failBlock flag
    rw [called, endBlock, failBlock_eq complete]
    rfl
  all_goals
    rw [called] at failed
    cases failed

/-- The markers are after a rollback what they were before the call. -/
theorem txApplied_revoked {reached : DB}
    (run : Executes env block (bumpCarriedOrdinals env block db)
      (pendingBefore block db position) reached) (hash : Hash) :
    (reached.txProcessed.revoke
      ((pendingBefore block db position).map Transaction.hash)).isApplied hash =
      db.txApplied hash := by
  rw [Markers.isApplied_revoke, ← DB.txApplied, run.txApplied_bumped]
  by_cases listed : hash ∈ (pendingBefore block db position).map Transaction.hash
  · obtain ⟨tx, pending, rfl⟩ := mem_map.mp listed
    simp [listed, unmarked_of_mem_pendingBefore pending]
  · simp [listed]

/-- The snapshotted addresses a rollback reaches. -/
def restoredAddresses (order : MapOrder Address) (affected : List Address) : List Address :=
  (order.order affected).takeWhile (· ≠ 0)

theorem acceptedEntries_originalState (order : MapOrder Address) (affected : List Address)
    (store : Accounts) :
    acceptedEntries (originalState order affected store) =
      (restoredAddresses order affected).map fun addr =>
        (addr, snapshotAccount store addr) := by
  simp [acceptedEntries, originalState, restoredAddresses, takeWhile_map, Function.comp_def]

theorem rollback_get (order : MapOrder Address) (affected : List Address)
    (original reached : Accounts) (addr : Address) :
    (rolledBack order affected original reached).get addr =
      if addr ∈ restoredAddresses order affected then
        some (restoredAccount reached addr (snapshotAccount original addr))
      else reached.get addr := by
  rw [rolledBack, acceptedEntries_originalState]
  rcases restoreAll_cases reached ((restoredAddresses order affected).map fun listed =>
      (listed, snapshotAccount original listed)) addr with ⟨absent, kept⟩ | ⟨entry, mem, found⟩
  · rw [kept, if_neg (by simpa using absent)]
  · obtain ⟨listed, inside, rfl⟩ := mem_map.mp mem
    obtain ⟨rfl, restored⟩ := found
    rw [restored, if_pos inside]

/-- The zero address ends a rollback; without it every account is reached. -/
theorem mem_restoredAddresses (noZero : 0 ∉ affected) (order : MapOrder Address) (addr : Address) :
    addr ∈ restoredAddresses order affected ↔ addr ∈ affected := by
  have all : restoredAddresses order affected = order.order affected := by
    rw [restoredAddresses, takeWhile_eq_self_iff]
    intro listed mem
    have inside := order.mem_order.mp mem
    have nonzero : listed ≠ 0 := fun zero => noZero (zero ▸ inside)
    simpa using nonzero
  rw [all, order.mem_order]

theorem restoredAddresses_first_zero (zero : 0 ∈ affected) :
    restoredAddresses (MapOrder.first 0) affected = [] := by
  obtain ⟨rest, starts⟩ := MapOrder.first_order zero
  rw [restoredAddresses, starts]
  exact takeWhile_cons_of_neg (by simp)

/-- A failed call left no trace: every address has its old balance, nonce and
count, and no transaction of the block became marked. -/
structure Restored (block : ZKBlock) (before after : DB) : Prop where
  ledger : SameLedger after.accounts before.accounts
  unmarked : ∀ tx ∈ block.transactions, before.txApplied tx.hash = false →
    after.txApplied tx.hash = false

/-- Nothing was executed before the failure; or the zero address is not among
the snapshotted ones, and no executed transaction pays a fee share to an address
outside them. -/
def RollbackSafe (env : Env) (block : ZKBlock) (db : DB) : Prop :=
  executedBeforeFailure env block db = [] ∨
    ∃ affected, affectedAccounts block = some affected ∧ 0 ∉ affected ∧
      ∀ address ∉ affected, ∀ tx ∈ executedBeforeFailure env block db,
        feeEffect block tx address = 0

theorem rollbackSafe_iff {executed : List Transaction}
    (collected : affectedAccounts block = some affected)
    (before : executedBeforeFailure env block db = executed) :
    RollbackSafe env block db ↔ executed = [] ∨ 0 ∉ affected ∧
      ∀ addr ∉ affected, ∀ tx ∈ executed, feeEffect block tx addr = 0 := by
  simp [RollbackSafe, before, collected]

/-- The ledger fields of an address. -/
def ledgerAt (store : Accounts) (address : Address) : Option Int × UInt64 × UInt64 :=
  (store.amount address, store.txNonce address, store.txCountSent address)

theorem sameLedger_of_ledgerAt {first second : Accounts}
    (same : ∀ addr, ledgerAt first addr = ledgerAt second addr) :
    SameLedger first second := by
  simp only [ledgerAt, Prod.mk.injEq] at same
  exact ⟨fun addr => (same addr).1, fun addr => (same addr).2.1,
    fun addr => (same addr).2.2⟩

/-- The ledger a rollback leaves, address by address. -/
theorem ledgerAt_rolledBack (order : MapOrder Address) (affected : List Address)
    (original reached : Accounts) (addr : Address) :
    ledgerAt (rolledBack order affected original reached) addr =
      if addr ∈ restoredAddresses order affected then ledgerAt original addr
      else ledgerAt reached addr := by
  have found := rollback_get order affected original reached addr
  split
  · next mem =>
    rw [if_pos mem] at found
    obtain ⟨amount, txNonce, txCountSent⟩ := snapshotAccount_ledger original addr
    rw [ledgerAt, amount_of_stored found, txNonce_of_stored found,
      txCountSent_of_stored found, ledgerAt, ← amount, ← txNonce, ← txCountSent]
    rfl
  · next missed =>
    rw [if_neg missed] at found
    simp only [ledgerAt, Accounts.amount, Accounts.balance, Accounts.txNonce,
      Accounts.txCountSent, found]

section

variable {env : Env} {block : ZKBlock} {db reached : DB} {affected : List Address}
  {executed : List Transaction} (inBlock : executed.Sublist block.transactions)
  (run : Executes env block (bumpCarriedOrdinals env block db) executed reached)

include inBlock run

section

variable (collected : affectedAccounts block = some affected)
include collected

/-- Outside the snapshotted addresses the total effect is a sum of fee shares,
none of them negative. -/
theorem totalEffect_outside (outside : addr ∉ affected) :
    totalEffect block executed addr = 0 ↔ ∀ tx ∈ executed, feeEffect block tx addr = 0 := by
  have parties : ∀ tx ∈ executed, tx.fromAddr ≠ some addr ∧ tx.toAddr ≠ some addr := by
    intro tx mem
    rw [mem_affectedAccounts collected] at outside
    push Not at outside
    exact outside.1 tx (inBlock.subset mem)
  have shares : ∀ tx ∈ executed,
      balanceEffect block tx addr = feeEffect block tx addr := fun tx mem => by
    simp [balanceEffect, changeAt_apply, parties tx mem]
  have gains : ∀ share ∈ executed.map (fun tx => balanceEffect block tx addr), 0 ≤ share := by
    intro share mem
    obtain ⟨tx, found, rfl⟩ := mem_map.mp mem
    obtain ⟨_, _, applies⟩ := run.applies_of_mem found
    exact applies.gains addr (parties tx found).1
  rw [totalEffect_apply]
  constructor
  · intro zero tx mem
    rw [← shares tx mem]
    exact all_zero_of_le_zero_le_of_sum_eq_zero gains zero (mem_map_of_mem mem)
  · intro zero
    apply sum_eq_zero
    intro share mem
    obtain ⟨tx, found, rfl⟩ := mem_map.mp mem
    rw [shares tx found, zero tx found]

/-- An address outside the snapshotted ones sends nothing, so its counters stay. -/
theorem counters_outside (outside : addr ∉ affected) :
    reached.accounts.txNonce addr = db.accounts.txNonce addr ∧
      reached.accounts.txCountSent addr = db.accounts.txCountSent addr := by
  have notSender : ∀ tx ∈ executed, tx.fromAddr ≠ some addr := by
    intro tx mem sends
    apply outside
    rw [mem_affectedAccounts collected]
    exact .inl ⟨tx, inBlock.subset mem, Or.inl sends⟩
  constructor
  · simpa using run.txNonce_of_not_sender notSender
  · rw [run.txCountSent, countP_eq_zero.mpr (by simpa using notSender)]
    simp

theorem restored_of_safe (safe : executed = [] ∨ 0 ∉ affected ∧
      ∀ addr ∉ affected, ∀ tx ∈ executed, feeEffect block tx addr = 0)
    (order : MapOrder Address) :
    SameLedger (rolledBack order affected db.accounts reached.accounts) db.accounts := by
  apply sameLedger_of_ledgerAt
  intro addr
  rw [ledgerAt_rolledBack]
  split
  · rfl
  next missed =>
  -- what is not restored was not changed
  rcases safe with rfl | ⟨noZero, noShare⟩
  · cases run
    simp [ledgerAt]
  rw [mem_restoredAddresses noZero] at missed
  have unchanged := (run.adds.eq_iff fun touched => run.readable addr touched).mpr
    ((totalEffect_outside inBlock run collected missed).mpr (noShare addr missed))
  obtain ⟨txNonce, txCountSent⟩ := counters_outside inBlock run collected missed
  rw [ledgerAt, ledgerAt, txNonce, txCountSent, unchanged, bumped_accounts]

end

/-- An executed transaction shows in its sender's count: fewer than `2 ^ 63`
transactions cannot bring the 64-bit count around. -/
theorem exists_txCountSent_ne (small : block.transactions.length < 2 ^ 63) (some_ : executed ≠ []) :
    ∃ sender, reached.accounts.txCountSent sender ≠ db.accounts.txCountSent sender := by
  obtain ⟨tx, mem⟩ := exists_mem_of_ne_nil _ some_
  obtain ⟨_, _, applies⟩ := run.applies_of_mem mem
  obtain ⟨sender, sends⟩ := Option.isSome_iff_exists.mp applies.senderSet
  refine ⟨sender, ?_⟩
  rw [run.txCountSent, bumped_accounts]
  set count := executed.countP fun tx => tx.fromAddr = some sender
  have pos : 0 < count := countP_pos_iff.mpr ⟨tx, mem, by simpa using sends⟩
  have bounded : count < 2 ^ 63 := calc
    count ≤ executed.length := countP_le_length
    _ ≤ block.transactions.length := inBlock.length_le
    _ < 2 ^ 63 := small
  intro same
  have numeric := congrArg UInt64.toNat same
  rw [UInt64.toNat_add, UInt64.toNat_ofNat'] at numeric
  have range := (db.accounts.txCountSent sender).toNat_lt
  omega

theorem safe_of_restored (small : block.transactions.length < 2 ^ 63)
    (collected : affectedAccounts block = some affected)
    (restored : ∀ order : MapOrder Address,
      SameLedger (rolledBack order affected db.accounts reached.accounts) db.accounts) :
    executed = [] ∨ 0 ∉ affected ∧
      ∀ addr ∉ affected, ∀ tx ∈ executed, feeEffect block tx addr = 0 := by
  refine or_iff_not_imp_left.mpr fun some_ => ?_
  have noZero : 0 ∉ affected := by
    intro zero
    obtain ⟨sender, different⟩ := exists_txCountSent_ne inBlock run small some_
    have kept := ledgerAt_rolledBack (MapOrder.first 0) affected db.accounts reached.accounts sender
    rw [restoredAddresses_first_zero zero, if_neg not_mem_nil] at kept
    have counts := congrArg (fun fields => fields.2.2) kept
    exact different (counts.symm.trans ((restored (MapOrder.first 0)).txCountSent sender))
  refine ⟨noZero, fun addr outside => ?_⟩
  rw [← totalEffect_outside inBlock run collected outside,
    ← run.adds.eq_iff fun touched => run.readable addr touched, bumped_accounts]
  have kept := ledgerAt_rolledBack MapOrder.listed affected db.accounts reached.accounts addr
  rw [if_neg (mt (mem_restoredAddresses noZero MapOrder.listed addr).mp outside)] at kept
  have amounts := congrArg Prod.fst kept
  exact amounts.symm.trans ((restored MapOrder.listed).amount addr)

end

/-- A call that fails at a transaction, with the revocation written, undoes its
own effects under every map order exactly when the rollback is safe. -/
theorem failed_block_restored_iff {env : Env} {order : MapOrder Address} {block : ZKBlock} {db : DB}
    {index total : Nat} {hash : Hash} {cause : TxError} {revokeFailed : Bool}
    (small : block.transactions.length < 2 ^ 63) (revokes : env.revokeFailsAt = none)
    (failed : (processBlockTransactions env order block db).1 =
      .error (.transactionFailed index total hash cause revokeFailed)) :
    (∀ other : MapOrder Address,
      Restored block db (processBlockTransactions env other block db).2) ↔
      RollbackSafe env block db := by
  obtain ⟨-, affected, coinbase, zkvm, reached, collected, pays, performs, executed, called⟩ :=
    processBlockTransactions_failed failed
  have run := performs.executes pays
  have inBlock : (pendingBefore block db index).Sublist block.transactions :=
    (pendingTransactions_sublist _ _ _).trans (take_sublist _ _)
  rw [rollbackSafe_iff collected executed]
  constructor
  · intro restored
    apply safe_of_restored inBlock run small collected
    intro other
    have ledger := (restored other).ledger
    rw [called (.inl revokes)] at ledger
    exact ledger
  · intro safe other
    rw [called (.inl revokes)]
    refine ⟨restored_of_safe inBlock run collected safe other, fun tx _ unmarked => ?_⟩
    exact (txApplied_revoked run tx.hash).trans unmarked

/-! ## A fee recipient outside the snapshot -/

def fundedAccount (address : Address) (balance : String) : Account :=
  { address, balance }

/-- Sender 1, recipient 2, coinbase 3, zkvm 4 and fee recipient 5, each with a
balance of 100. -/
def fundedStore : Accounts :=
  [1, 2, 3, 4, 5].foldl (fun store address => store.put (fundedAccount address "100"))
    Accounts.empty

theorem fundedStore_amount (addr : Address) :
    fundedStore.amount addr = some 100 ∨ fundedStore.amount addr = some 0 := by
  have hundred : setString "100" = some 100 := by decide
  simp only [fundedStore, foldl_cons, foldl_nil, put_amount, fundedAccount,
    hundred]
  split_ifs <;> first | exact .inl rfl | exact .inr (amount_of_absent rfl)

/-- A transfer of 10 from 1 to 2 at a fee of 4. -/
def smallTransfer (hash : Hash) (nonce : UInt64) : Transaction :=
  { hash, nonce, fromAddr := some 1, toAddr := some 2, value := some 10, gasLimit := 4
    gasPrice := some 1 }

/-- Two transfers with the same nonce, of which the second is stale. -/
def staleBlock (feeRecipients : List FeeRecipient) : ZKBlock :=
  { transactions := [smallTransfer 11 0, smallTransfer 12 0], coinbaseAddr := some 3
    zkvmAddr := some 4, feeRecipients }

theorem failed_block_keeps_fee_share :
    (processBlockTransactions {} MapOrder.listed (staleBlock [⟨5, 1⟩])
        { accounts := fundedStore }).1 =
      .error (.transactionFailed 1 2 12 (.transactionFailed (.staleNonce 0 1)) false) ∧
    (processBlockTransactions {} MapOrder.listed (staleBlock [⟨5, 1⟩])
        { accounts := fundedStore }).2.accounts.amount 5 = some 102 ∧
    fundedStore.amount 5 = some 100 := by
  decide +kernel

theorem failed_block_restored_iff_without_fee_recipients :
    RollbackSafe {} (staleBlock []) { accounts := fundedStore } ∧
    ∀ other : MapOrder Address, Restored (staleBlock []) { accounts := fundedStore }
      (processBlockTransactions {} other (staleBlock []) { accounts := fundedStore }).2 := by
  have failed : (processBlockTransactions {} MapOrder.listed (staleBlock [])
      { accounts := fundedStore }).1 =
      .error (.transactionFailed 1 2 12 (.transactionFailed (.staleNonce 0 1)) false) := by
    decide +kernel
  have executed : executedBeforeFailure {} (staleBlock []) { accounts := fundedStore } =
      [smallTransfer 11 0] := by
    decide +kernel
  have safe : RollbackSafe {} (staleBlock []) { accounts := fundedStore } := by
    refine .inr ⟨[1, 2, 3, 4], by decide, by decide, fun address outside tx member => ?_⟩
    rw [executed, mem_singleton] at member
    have notCoinbase : address ≠ 3 := fun same => outside (by simp [same])
    have notZkvm : address ≠ 4 := fun same => outside (by simp [same])
    have shares : splitFee (smallTransfer 11 0).gasFee 3 [] = (2, [⟨3, 2⟩]) := by decide
    change (creditEffect (splitFee tx.gasFee 3 []).2 +
      changeAt (some 4) (splitFee tx.gasFee 3 []).1) address = 0
    rw [member, shares]
    simp only [creditEffect, changeAt, map_cons, map_nil, sum_singleton,
      Pi.add_apply, Pi.single_eq_of_ne notCoinbase, Pi.single_eq_of_ne notZkvm, add_zero]
  exact ⟨safe, (failed_block_restored_iff (by decide) rfl failed).mpr safe⟩

end Jmdn.BlockProcessing
