import Jmdn.BlockProcessing.Performs
import Jmdn.BlockProcessing.Rollback
import Jmdn.Config.ZeroSum
import Jmdn.DBOPs.ReconEffects

/-!
# The sum of all balances

Executing a transaction moves money between accounts: the sum of all balances
stays the same, and no balance becomes negative.  The deltas of a block, from
which reconciliation works, sum to zero as well.
-/

namespace Jmdn.BlockProcessing

open Config DBOPs Go Ledger List

variable {block : ZKBlock} {coinbase : Address} {tx : Transaction}

/-- The sender pays the value and the fee, and may get some of it back. -/
theorem neg_le_balanceEffect (fee : 0 ≤ tx.gasFee) (value : 0 ≤ tx.value.getD 0) (addr : Address) :
    -(tx.value.getD 0 + tx.gasFee) ≤ balanceEffect block tx addr := by
  have moved : movedValue tx = tx.value.getD 0 := max_eq_left value
  have shares : 0 ≤ feeEffect block tx addr := feeEffect_nonneg fee addr
  simp only [balanceEffect, Pi.add_apply, changeAt_apply, moved]
  split <;> split <;> omega

def NonNegative (store : Accounts) : Prop :=
  ∀ address, 0 ≤ value store.amount address

/-- One transaction keeps the sum of all balances and makes none negative. -/
theorem processTransaction_conserves {env : Env} {zkvm : Address}
    {carried : Address → Option UInt64} {before after : DB} (pays : PaysTo block coinbase zkvm)
    (nonneg : NonNegative before.accounts)
    (done : processTransaction env tx coinbase zkvm block.feeRecipients block.timestamp carried
      before = .ok after) :
    total after.accounts.amount = total before.accounts.amount ∧ NonNegative after.accounts := by
  rcases processTransaction_ok pays done with ⟨-, rfl⟩ | ⟨-, applies⟩
  · exact ⟨rfl, nonneg⟩
  constructor
  · rw [applies.adds.total_eq, sum_balanceEffect applies.senderSet applies.recipientSet
      applies.coinbaseSet applies.zkvmSet, add_zero]
  intro addr
  rw [applies.adds.value_eq]
  have held := nonneg addr
  by_cases sends : tx.fromAddr = some addr
  · -- the sender had what it pays, and every other role only gains
    have covered := applies.covered addr sends
    have least : -(tx.value.getD 0 + tx.gasFee) ≤ balanceEffect block tx addr :=
      neg_le_balanceEffect applies.gasFee applies.value addr
    omega
  · have gains := applies.gains addr sends
    omega

/-- The deltas of a block sum to zero, whatever is skipped. -/
theorem sum_computeBlockDeltas
    (set : ∀ tx ∈ block.transactions, tx.fromAddr.isSome ∧ tx.toAddr.isSome)
    (coinbaseSet : block.coinbaseAddr.isSome) (zkvmSet : block.zkvmAddr.isSome) (skip : Hash → Bool) :
    ((computeBlockDeltas block skip).keys.map (computeBlockDeltas block skip).change).sum = 0 := by
  have idle : ∀ addr ∉ (computeBlockDeltas block skip).keys,
      (computeBlockDeltas block skip).change addr = 0 := by
    intro addr absent
    rw [Deltas.change, Deltas.entry_of_not_mem absent]
  refine (sum_eq_list_sum (computeBlockDeltas block skip).nodup idle).symm.trans ?_
  rw [change_computeBlockDeltas]
  exact sum_totalEffect (fun tx kept => set tx (mem_of_mem_filter kept)) coinbaseSet zkvmSet

/-- A successful transaction of a block moves money without creating or losing
any, and so do the deltas from which the block is reconciled. -/
theorem balances_conserved {block : ZKBlock} {coinbase zkvm : Address}
    (coinbaseSet : block.coinbaseAddr = some coinbase) (zkvmSet : block.zkvmAddr = some zkvm)
    (set : ∀ tx ∈ block.transactions, tx.fromAddr.isSome ∧ tx.toAddr.isSome) :
    (∀ env carried, ∀ tx ∈ block.transactions, ∀ before after : DB,
      NonNegative before.accounts →
      processTransaction env tx coinbase zkvm block.feeRecipients block.timestamp carried before =
        .ok after →
      total after.accounts.amount = total before.accounts.amount ∧
        NonNegative after.accounts) ∧
    ∀ skip, ((computeBlockDeltas block skip).keys.map fun address =>
      ((computeBlockDeltas block skip).entry address).balanceDelta).sum = 0 := by
  constructor
  · intro env carried tx _ before after nonneg done
    exact processTransaction_conserves ⟨coinbaseSet, zkvmSet⟩ nonneg done
  · intro skip
    exact sum_computeBlockDeltas set (by simp [coinbaseSet]) (by simp [zkvmSet]) skip

theorem fundedStore_nonNegative : NonNegative fundedStore := by
  intro addr
  rcases fundedStore_amount addr with held | held <;> simp [value, held]

/-- A transfer of 1 to itself, where 1 is also the coinbase and takes half of its
own fee share. -/
def aliasedBlock : ZKBlock :=
  { transactions := [{ smallTransfer 11 0 with toAddr := some 1 }], coinbaseAddr := some 1
    zkvmAddr := some 4, feeRecipients := [⟨1, 1⟩, ⟨5, 1⟩] }

theorem aliased_roles_conserve :
    ∃ tx ∈ aliasedBlock.transactions, ∃ after,
      processTransaction {} tx 1 4 aliasedBlock.feeRecipients aliasedBlock.timestamp
        (fun _ => none) { accounts := fundedStore } = .ok after ∧
      after.accounts.amount 1 = some 97 ∧
      total after.accounts.amount = total fundedStore.amount ∧ NonNegative after.accounts ∧
      ((computeBlockDeltas aliasedBlock fun _ => false).keys.map fun address =>
        ((computeBlockDeltas aliasedBlock fun _ => false).entry address).balanceDelta).sum = 0 := by
  have set : ∀ tx ∈ aliasedBlock.transactions, tx.fromAddr.isSome ∧ tx.toAddr.isSome := by
    intro tx listed
    rw [mem_singleton.mp listed]
    exact ⟨rfl, rfl⟩
  have outcome : ((processTransaction {} { smallTransfer 11 0 with toAddr := some 1 } 1 4
      aliasedBlock.feeRecipients aliasedBlock.timestamp (fun _ => none)
      { accounts := fundedStore }).toOption.any
        fun after => after.accounts.amount 1 = some 97) = true := by
    decide +kernel
  obtain ⟨each, deltas⟩ := balances_conserved rfl rfl set
  cases done : processTransaction {} { smallTransfer 11 0 with toAddr := some 1 } 1 4
      aliasedBlock.feeRecipients aliasedBlock.timestamp (fun _ => none)
      { accounts := fundedStore } with
  | error failure =>
    rw [done] at outcome
    cases outcome
  | ok after =>
    rw [done] at outcome
    obtain ⟨same, nonneg⟩ := each {} (fun _ => none) _ (mem_singleton_self _)
      { accounts := fundedStore } after fundedStore_nonNegative done
    exact ⟨_, mem_singleton_self _, after, done, of_decide_eq_true outcome, same, nonneg,
      deltas fun _ => false⟩

end Jmdn.BlockProcessing
