import Jmdn.Config.GasFee

/-!
# The effect of a transaction on balances

`balanceEffect` states what a transaction of a block is for: who pays, who is
paid, and who shares the fee.  Live execution and reconciliation are both
compared with it.
-/

namespace Jmdn.Config

/-- A change at an address that may be missing. -/
def changeAt (address : Option Address) (change : Int) : Address → Int :=
  match address with
  | none => 0
  | some present => Pi.single present change

/-- Sum of a list of credits. -/
def creditEffect (credits : List FeeCredit) : Address → Int :=
  (credits.map fun credit => (Pi.single credit.addr credit.amount : Address → Int)).sum

/-- The value that changes hands; only a positive one does. -/
def movedValue (tx : Transaction) : Int :=
  max (tx.value.getD 0) 0

/-- The fee shares a block gives its recipients for one transaction. -/
def feeEffect (block : ZKBlock) (tx : Transaction) : Address → Int :=
  let shares := splitFee tx.gasFee (block.coinbaseAddr.getD 0) block.feeRecipients
  (if block.coinbaseAddr.isSome then creditEffect shares.2 else 0) +
    changeAt block.zkvmAddr shares.1

/-- What a transaction of a block does to the balances. -/
def balanceEffect (block : ZKBlock) (tx : Transaction) : Address → Int :=
  changeAt tx.fromAddr (-(movedValue tx + tx.gasFee)) + changeAt tx.toAddr (movedValue tx) +
    feeEffect block tx

/-- The summed balance effect of a list of transactions. -/
def totalEffect (block : ZKBlock) (txs : List Transaction) : Address → Int :=
  (txs.map (balanceEffect block)).sum

/-- A change at an address, read at an address. -/
theorem changeAt_apply (party : Option Address) (change : Int) (addr : Address) :
    changeAt party change addr = if party = some addr then change else 0 := by
  cases party with
  | none => rfl
  | some present =>
    by_cases same : present = addr
    · simp [changeAt, same]
    · have other : addr ≠ present := fun equal => same equal.symm
      simp [changeAt, same, other]

/-- The fee shares of a block without fee recipients. -/
theorem feeEffect_apply {block : ZKBlock} (single : block.feeRecipients = []) (tx : Transaction)
    (addr : Address) :
    feeEffect block tx addr =
      (if block.coinbaseAddr = some addr then tx.gasFee - tx.gasFee / 2 else 0) +
        if block.zkvmAddr = some addr then tx.gasFee / 2 else 0 := by
  rw [feeEffect, single, splitFee_nil, Pi.add_apply, changeAt_apply]
  cases coinbase : block.coinbaseAddr with
  | none => simp
  | some present =>
    by_cases same : present = addr
    · simp [creditEffect, same]
    · have other : addr ≠ present := fun equal => same equal.symm
      simp [creditEffect, same, other]

theorem totalEffect_apply (block : ZKBlock) (txs : List Transaction) (addr : Address) :
    totalEffect block txs addr = (txs.map fun tx => balanceEffect block tx addr).sum := by
  induction txs with
  | nil => rfl
  | cons tx rest ih =>
    rw [List.map_cons, List.sum_cons, ← ih]
    simp [totalEffect]

end Jmdn.Config
