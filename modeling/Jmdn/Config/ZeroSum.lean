import Mathlib.Data.FinEnum
import Jmdn.Config.FeeShares
import Jmdn.Ledger.Total

/-!
# Transactions create no money

The effect of a transaction whose addresses are all set sums to zero over all
accounts: the fee is split without a remainder, and whatever one role pays
another one receives, also when several roles are played by one account.
-/

namespace Jmdn.Config

open Ledger

variable {block : ZKBlock}

theorem sum_changeAt (addr : Address) (change : Int) :
    ∑ other, changeAt (some addr) change other = change := by
  exact sum_single addr change

theorem sum_creditEffect (credits : List FeeCredit) :
    ∑ other, creditEffect credits other = (credits.map FeeCredit.amount).sum := by
  refine (sum_map_sum _ credits).trans (congrArg List.sum ?_)
  exact List.map_congr_left fun credit _ => sum_single credit.addr credit.amount

theorem sum_feeEffect (coinbaseSet : block.coinbaseAddr.isSome) (zkvmSet : block.zkvmAddr.isSome)
    (tx : Transaction) :
    ∑ other, feeEffect block tx other = tx.gasFee := by
  obtain ⟨zkvm, zkvmSet⟩ := Option.isSome_iff_exists.mp zkvmSet
  have split := splitFee_sum tx.gasFee (block.coinbaseAddr.getD 0) block.feeRecipients
  simp only [feeEffect, coinbaseSet, if_true, zkvmSet, Pi.add_apply, Finset.sum_add_distrib,
    sum_creditEffect, sum_changeAt]
  rw [add_comm]
  exact split

/-- What the sender loses the others gain. -/
theorem sum_balanceEffect {tx : Transaction} (senderSet : tx.fromAddr.isSome)
    (recipientSet : tx.toAddr.isSome) (coinbaseSet : block.coinbaseAddr.isSome)
    (zkvmSet : block.zkvmAddr.isSome) : ∑ other, balanceEffect block tx other = 0 := by
  obtain ⟨sender, senderSet⟩ := Option.isSome_iff_exists.mp senderSet
  obtain ⟨recipient, recipientSet⟩ := Option.isSome_iff_exists.mp recipientSet
  simp only [balanceEffect, senderSet, recipientSet, Pi.add_apply, Finset.sum_add_distrib,
    sum_changeAt, sum_feeEffect coinbaseSet zkvmSet]
  omega

theorem sum_totalEffect {txs : List Transaction}
    (set : ∀ tx ∈ txs, tx.fromAddr.isSome ∧ tx.toAddr.isSome)
    (coinbaseSet : block.coinbaseAddr.isSome) (zkvmSet : block.zkvmAddr.isSome) :
    ∑ other, totalEffect block txs other = 0 := by
  refine (sum_map_sum (balanceEffect block) txs).trans (List.sum_eq_zero ?_)
  intro change mem
  obtain ⟨tx, listed, rfl⟩ := List.mem_map.mp mem
  exact sum_balanceEffect (set tx listed).1 (set tx listed).2 coinbaseSet zkvmSet

end Jmdn.Config
