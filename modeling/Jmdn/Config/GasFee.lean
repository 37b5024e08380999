import Jmdn.Config.Types

/-!
# The gas-fee formula

The functions of `config/gasfee.go`, which live execution and reconciliation
share.  `big.Int.Div` is Euclidean division, as is `/` on `Int`.
-/

namespace Jmdn.Config

/-- A resolved crediting instruction: add `amount` to the balance of `addr`. -/
structure FeeCredit where
  addr : Address
  amount : Int
  deriving DecidableEq, Repr

/-- The flat protocol base fee, 35 gwei. -/
def baseFeeWei : Int := 35000000000

/-- Effective price of a legacy transaction without any fee field, 1 gwei. -/
def fallbackGasPriceWei : Int := 1000000000

/-- Gas limit charged when the transaction declares none. -/
def fallbackTxGasLimit : UInt64 := 21000

/-- `EffectiveGasPrice`: type 2 pays `min maxFee (baseFee + tip)`; every other
type pays the first fee field that is present. -/
def effectiveGasPrice (txType : UInt8) (gasPrice maxFee maxPriorityFee : Option Int) : Int :=
  if txType = 2 then
    let mf := maxFee.getD baseFeeWei
    let basePlusTip := baseFeeWei + maxPriorityFee.getD 0
    if mf ≤ basePlusTip then mf else basePlusTip
  else
    match gasPrice, maxFee, maxPriorityFee with
    | some price, _, _ => price
    | none, some fee, _ => fee
    | none, none, some tip => tip
    | none, none, none => fallbackGasPriceWei

/-- `EffectiveGasLimit`. -/
def effectiveGasLimit (gasLimit : UInt64) : UInt64 :=
  if gasLimit = 0 then fallbackTxGasLimit else gasLimit

/-- `GasFee` over the fields it is called with. -/
def gasFee (txType : UInt8) (gasLimit : UInt64)
    (gasPrice maxFee maxPriorityFee : Option Int) : Int :=
  (effectiveGasLimit gasLimit).toNat * effectiveGasPrice txType gasPrice maxFee maxPriorityFee

/-- The fee of a transaction, as both balance writers compute it. -/
def Transaction.gasFee (tx : Transaction) : Int :=
  Config.gasFee tx.txType tx.gasLimit tx.gasPrice tx.maxFee tx.maxPriorityFee

def totalWeight (recipients : List FeeRecipient) : Int :=
  (recipients.map fun recipient => (recipient.weight.toNat : Int)).sum

/-- Add the rounding remainder to the first credit. -/
def assignRemainder (remainder : Int) : List FeeCredit → List FeeCredit
  | [] => []
  | credit :: rest => { credit with amount := credit.amount + remainder } :: rest

/-- The share of each recipient, in canonical address order. -/
def weightedCredits (coinbaseShare total : Int) (recipients : List FeeRecipient) :
    List FeeCredit :=
  ((recipients.insertionSort fun first second => first.addr ≤ second.addr).filter
    fun recipient => recipient.weight ≠ 0).map fun recipient =>
      { addr := recipient.addr
        amount := coinbaseShare * recipient.weight.toNat / total }

/-- `SplitFee`: the zkvm share, and the credits of the coinbase side. -/
def splitFee (gasFee : Int) (coinbase : Address) (recipients : List FeeRecipient) :
    Int × List FeeCredit :=
  let zkvmShare := gasFee / 2
  let coinbaseShare := gasFee - zkvmShare
  let total := totalWeight recipients
  if recipients = [] ∨ total = 0 then
    (zkvmShare, [⟨coinbase, coinbaseShare⟩])
  else
    let credits := weightedCredits coinbaseShare total recipients
    let distributed := (credits.map FeeCredit.amount).sum
    (zkvmShare, assignRemainder (coinbaseShare - distributed) credits)

/-- No negative fee field makes the price negative. -/
theorem effectiveGasPrice_nonneg {gasPrice maxFee maxPriorityFee : Option Int}
    (price : ∀ price ∈ gasPrice, 0 ≤ price) (fee : ∀ fee ∈ maxFee, 0 ≤ fee)
    (tip : ∀ tip ∈ maxPriorityFee, 0 ≤ tip) (txType : UInt8) :
    0 ≤ effectiveGasPrice txType gasPrice maxFee maxPriorityFee := by
  have base : 0 ≤ baseFeeWei := by decide
  have fallback : 0 ≤ fallbackGasPriceWei := by decide
  unfold effectiveGasPrice
  cases gasPrice <;> cases maxFee <;> cases maxPriorityFee <;> simp at price fee tip <;>
    simp only [Option.getD_none, Option.getD_some] <;> split_ifs <;> omega

theorem splitFee_nil (fee : Int) (coinbase : Address) :
    splitFee fee coinbase [] = (fee / 2, [⟨coinbase, fee - fee / 2⟩]) := by
  simp [splitFee]

end Jmdn.Config
