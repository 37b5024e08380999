import Jmdn.Config.GasFee
import Jmdn.Security.Checks

/-!
# The fee a content hash fixes

The content hash and the signature of a transaction cover the fields of its type
and do not tell an absent number from zero.  The fee rule reads every fee field
and does tell them apart.  For two transactions with one content hash this module
says exactly when they pay the same fee.
-/

namespace Jmdn.Security

open Config

variable {second first : Transaction} {maxPriorityFee : Option Int}

/-- The price of a transaction that is not of type 2 and has no `GasPrice`: it
comes from fields the hash does not cover. -/
def unsignedPrice (tx : Transaction) : Int :=
  (tx.maxFee.or tx.maxPriorityFee).getD fallbackGasPriceWei

/-- The fee fields of two transactions agree where the hash does not make them
agree: on the presence of `MaxFee` for type 2, and for every other type on the
price where `GasPrice` is absent. -/
structure AgreeUnhashed (first second : Transaction) : Prop where
  capped : first.txType = 2 → first.maxFee.isSome = second.maxFee.isSome
  unpriced : first.txType ≠ 2 → first.gasPrice = none → second.gasPrice = none →
    unsignedPrice first = unsignedPrice second
  free : first.txType ≠ 2 → first.gasPrice.isSome → second.gasPrice = none →
    unsignedPrice second = 0
  freed : first.txType ≠ 2 → first.gasPrice = none → second.gasPrice.isSome →
    unsignedPrice first = 0

/-- The fee fields that the content determines. -/
theorem feeFields_of_ethTxFromConfig_eq (same : ethTxFromConfig first = ethTxFromConfig second) :
    (first.txType = 2 ∧ second.txType = 2 ∧
        first.maxPriorityFee.getD 0 = second.maxPriorityFee.getD 0 ∧
        first.maxFee.getD 0 = second.maxFee.getD 0) ∨
      (first.txType ≠ 2 ∧ second.txType ≠ 2 ∧
        first.gasPrice.getD 0 = second.gasPrice.getD 0) := by
  unfold ethTxFromConfig at same
  split_ifs at same with dynamic dynamic' <;> injection same
  · exact .inl ⟨dynamic, dynamic', ‹_›, ‹_›⟩
  all_goals exact .inr ⟨‹_›, ‹_›, ‹_›⟩

/-- Fees over one gas limit are equal when the prices are. -/
theorem gasFee_eq_iff (limit : first.gasLimit = second.gasLimit) :
    first.gasFee = second.gasFee ↔
      effectiveGasPrice first.txType first.gasPrice first.maxFee first.maxPriorityFee =
        effectiveGasPrice second.txType second.gasPrice second.maxFee second.maxPriorityFee := by
  have pos : ((effectiveGasLimit second.gasLimit).toNat : Int) ≠ 0 := by
    unfold effectiveGasLimit
    split
    · decide
    next nonzero =>
    intro zero
    apply nonzero
    rw [← UInt64.toNat_inj]
    simpa using zero
  simp only [Transaction.gasFee, gasFee, limit]
  exact mul_right_inj' pos

/-- Without a cap, type 2 pays the base fee. -/
theorem effectiveGasPrice_uncapped (tip : 0 ≤ maxPriorityFee.getD 0) (gasPrice : Option Int) :
    effectiveGasPrice 2 gasPrice none maxPriorityFee = baseFeeWei := by
  simp only [effectiveGasPrice, if_true, Option.getD_none]
  rw [if_pos (by omega)]

/-- With a cap of zero, type 2 pays nothing. -/
theorem effectiveGasPrice_zeroCap (tip : 0 ≤ maxPriorityFee.getD 0) (gasPrice : Option Int) :
    effectiveGasPrice 2 gasPrice (some 0) maxPriorityFee = 0 := by
  have base : 0 ≤ baseFeeWei := by decide
  simp only [effectiveGasPrice, if_true, Option.getD_some]
  rw [if_pos (by omega)]

/-- The price of type 2 depends on whether `MaxFee` is present. -/
theorem dynamicPrice_eq_iff (dynamic : first.txType = 2) (dynamic' : second.txType = 2)
    (tips : first.maxPriorityFee.getD 0 = second.maxPriorityFee.getD 0)
    (fees : first.maxFee.getD 0 = second.maxFee.getD 0) (tip : 0 ≤ second.maxPriorityFee.getD 0) :
    effectiveGasPrice first.txType first.gasPrice first.maxFee first.maxPriorityFee =
        effectiveGasPrice second.txType second.gasPrice second.maxFee second.maxPriorityFee ↔
      first.maxFee.isSome = second.maxFee.isSome := by
  have charged : baseFeeWei ≠ 0 := by decide
  have tip' : 0 ≤ first.maxPriorityFee.getD 0 := by rw [tips]; exact tip
  rw [dynamic, dynamic']
  cases one : first.maxFee with
  | none =>
    cases two : second.maxFee with
    | none => simp [effectiveGasPrice_uncapped tip, effectiveGasPrice_uncapped tip']
    | some cap =>
      rw [one, two, Option.getD_none, Option.getD_some] at fees
      rw [← fees, effectiveGasPrice_uncapped tip', effectiveGasPrice_zeroCap tip]
      exact iff_of_false charged (by simp)
  | some cap =>
    cases two : second.maxFee with
    | none =>
      rw [one, two, Option.getD_none, Option.getD_some] at fees
      rw [fees, effectiveGasPrice_zeroCap tip', effectiveGasPrice_uncapped tip]
      exact iff_of_false charged.symm (by simp)
    | some other =>
      rw [one, two, Option.getD_some, Option.getD_some] at fees
      simp [effectiveGasPrice, tips, fees]

/-- The price of the other types, by whether `GasPrice` is present. -/
theorem effectiveGasPrice_other {tx : Transaction} (other : tx.txType ≠ 2) :
    effectiveGasPrice tx.txType tx.gasPrice tx.maxFee tx.maxPriorityFee =
      tx.gasPrice.getD (unsignedPrice tx) := by
  simp only [effectiveGasPrice, if_neg other, unsignedPrice]
  cases tx.gasPrice <;> cases tx.maxFee <;> cases tx.maxPriorityFee <;> rfl

/-- Prices that are hashed as equal, with what is paid in place of an absent one. -/
theorem getD_eq_iff {one two : Option Int} {unsigned other : Int}
    (hashed : one.getD 0 = two.getD 0) :
    one.getD unsigned = two.getD other ↔
      (one = none → two = none → unsigned = other) ∧ (one.isSome → two = none → other = 0) ∧
        (one = none → two.isSome → unsigned = 0) := by
  cases one <;> cases two <;> simp at hashed ⊢ <;> omega

/-- Two transactions with one content pay the same fee exactly when their
unhashed fee fields agree. -/
theorem gasFee_eq_iff_agreeUnhashed (same : ethTxFromConfig first = ethTxFromConfig second)
    (tip : ∀ tip ∈ second.maxPriorityFee, 0 ≤ tip) :
    first.gasFee = second.gasFee ↔ AgreeUnhashed first second := by
  rw [gasFee_eq_iff (fields_of_ethTxFromConfig_eq same).2.2.2]
  rcases feeFields_of_ethTxFromConfig_eq same with
    ⟨dynamic, dynamic', tips, fees⟩ | ⟨other, other', prices⟩
  · have nonneg : 0 ≤ second.maxPriorityFee.getD 0 := by
      cases found : second.maxPriorityFee with
      | none => exact le_refl 0
      | some number => exact tip number found
    rw [dynamicPrice_eq_iff dynamic dynamic' tips fees nonneg]
    constructor
    · intro present
      exact ⟨fun _ => present, fun other => absurd dynamic other, fun other => absurd dynamic other,
        fun other => absurd dynamic other⟩
    · intro agree
      exact agree.capped dynamic
  · rw [effectiveGasPrice_other other, effectiveGasPrice_other other']
    rw [getD_eq_iff prices]
    constructor
    · rintro ⟨unpriced, free, freed⟩
      exact ⟨fun dynamic => absurd dynamic other, fun _ => unpriced, fun _ => free, fun _ => freed⟩
    · intro agree
      exact ⟨agree.unpriced other, agree.free other, agree.freed other⟩

/-- Two transactions with one content hash that pass the checks are treated
alike exactly when their unhashed fee fields agree. -/
theorem one_content_hash_alike_iff {crypto : Crypto} {first second : Transaction}
    {chain other : Option Int} (sound : CollisionFree crypto [first, second])
    (signed : checkSignature crypto chain first = true)
    (signed' : checkSignature crypto other second = true)
    (values : checkTransactionValues second = true)
    (hashes : crypto.txHash (ethTxFromConfig first) = crypto.txHash (ethTxFromConfig second)) :
    (first.fromAddr = second.fromAddr ∧ first.toAddr = second.toAddr ∧
        first.nonce = second.nonce ∧ first.value.getD 0 = second.value.getD 0 ∧
        first.gasFee = second.gasFee) ↔ AgreeUnhashed first second := by
  have content := sound.content first (by simp) second (by simp) hashes
  obtain ⟨nonce, recipient, value, -⟩ := fields_of_ethTxFromConfig_eq content
  have sender := fromAddr_eq_of_content sound (by simp) content
    (sender_of_checkSignature signed) (fromAddr_of_checkSignature signed)
    (sender_of_checkSignature signed') (fromAddr_of_checkSignature signed')
  have tip := (checkTransactionValues_iff.mp values).2.2.2.1
  rw [← gasFee_eq_iff_agreeUnhashed content tip]
  constructor
  · rintro ⟨-, -, -, -, fee⟩
    exact fee
  · intro fee
    exact ⟨sender, recipient, nonce, value, fee⟩

/-! ## A changed fee -/

/-- Hash functions for examples: digests that keep the nonce of a transaction. -/
def nonceCrypto : Crypto where
  txHash
    | .legacy nonce .. => BitVec.ofNat 256 (nonce.toNat + 9)
    | _ => 0
  sender _ _ := some 1
  keccak256 _ := 0
  sha256 _ _ := 0

/-- A signed legacy transfer of 10 from 1 to 2. -/
def legacyTransfer (gasPrice maxFee : Option Int) : Transaction :=
  { hash := 9, fromAddr := some 1, toAddr := some 2, value := some 10, gasLimit := 21000
    gasPrice, maxFee, v := some 27, r := some 1, s := some 1 }

/-- A transaction passes the three checks. -/
def passesChecks (crypto : Crypto) (chain : Option Int) (tx : Transaction) : Bool :=
  checkSignature crypto chain tx && checkTransactionHash crypto tx && checkTransactionValues tx

/-- A relay that adds `MaxFee` to a legacy transfer without `GasPrice` multiplies
its fee by 1000; one that adds a `GasPrice` of zero takes the fee away. -/
theorem relayed_transfer_pays_another_fee :
    passesChecks nonceCrypto none (legacyTransfer none none) = true ∧
    passesChecks nonceCrypto none (legacyTransfer none (some 1000000000000)) = true ∧
    passesChecks nonceCrypto none (legacyTransfer (some 0) none) = true ∧
    ethTxFromConfig (legacyTransfer none (some 1000000000000)) =
      ethTxFromConfig (legacyTransfer none none) ∧
    ethTxFromConfig (legacyTransfer (some 0) none) = ethTxFromConfig (legacyTransfer none none) ∧
    (legacyTransfer none none).gasFee = 21000000000000 ∧
    (legacyTransfer none (some 1000000000000)).gasFee = 21000000000000000 ∧
    (legacyTransfer (some 0) none).gasFee = 0 := by
  decide +kernel

theorem priced_transfers_are_alike :
    (legacyTransfer (some 5) none).gasFee = (legacyTransfer (some 5) (some 7)).gasFee := by
  have sound : CollisionFree nonceCrypto
      [legacyTransfer (some 5) none, legacyTransfer (some 5) (some 7)] := by
    constructor
    · simp [ethTxFromConfig, legacyTransfer]
    · intro _ _ _ _ _ _ recovered again
      exact (Option.some.inj recovered).symm.trans (Option.some.inj again)
  have agree : AgreeUnhashed (legacyTransfer (some 5) none) (legacyTransfer (some 5) (some 7)) :=
    ⟨by decide, nofun, nofun, nofun⟩
  have signed : checkSignature nonceCrypto none (legacyTransfer (some 5) none) = true := by decide
  have signed' : checkSignature nonceCrypto none (legacyTransfer (some 5) (some 7)) = true := by
    decide
  have alike := (one_content_hash_alike_iff sound signed signed' (by decide) rfl).mpr agree
  exact alike.2.2.2.2

end Jmdn.Security
