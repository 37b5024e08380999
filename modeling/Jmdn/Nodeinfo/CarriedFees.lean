import Jmdn.DBOPs.ReconEffects
import Jmdn.Messaging.Admission
import Jmdn.Nodeinfo.Transport

/-!
# Fees of transported blocks

The fee rule reads a price of zero as a price and an absent one as a reason to
look further, while the sync wire turns the one into the other.  A transaction
that is free on the node that executed it live has a fee on a node that received
its block through a sync.
-/

namespace Jmdn.Nodeinfo

open Config DBOPs Go List Messaging Security

variable {tx : Transaction} {block : ZKBlock} {sender : Option Address}

/-! ## One transaction -/

theorem carriedNumber_of_nonNegative {number : Option Int} (sign : nonNegative number = true) :
    carriedNumber number = number.filter (· ≠ 0) := by
  cases number with
  | none => rfl
  | some present =>
    have pos : 0 ≤ present := by simpa [nonNegative] using sign
    rw [carriedNumber, Option.map_some, Int.natAbs_of_nonneg pos]

/-- What the transport leaves of the fee fields of a transaction that passed
`CheckTransactionValues`. -/
structure FeeFields (tx : Transaction) : Prop where
  value : carriedNumber tx.value = tx.value.filter (· ≠ 0)
  gasPrice : carriedNumber tx.gasPrice = tx.gasPrice.filter (· ≠ 0)
  maxFee : carriedNumber tx.maxFee = tx.maxFee.filter (· ≠ 0)
  maxPriorityFee : carriedNumber tx.maxPriorityFee = tx.maxPriorityFee.filter (· ≠ 0)
  price : ∀ price ∈ tx.gasPrice, 0 ≤ price
  fee : ∀ fee ∈ tx.maxFee, 0 ≤ fee
  tip : ∀ tip ∈ tx.maxPriorityFee, 0 ≤ tip

theorem feeFields_of_checkTransactionValues (checked : checkTransactionValues tx = true) :
    FeeFields tx := by
  obtain ⟨value, gasPrice, maxFee, maxPriorityFee, -⟩ := checkTransactionValues_iff.mp checked
  exact ⟨carriedNumber_of_nonNegative (nonNegative_iff.mpr value),
    carriedNumber_of_nonNegative (nonNegative_iff.mpr gasPrice),
    carriedNumber_of_nonNegative (nonNegative_iff.mpr maxFee),
    carriedNumber_of_nonNegative (nonNegative_iff.mpr maxPriorityFee),
    gasPrice, maxFee, maxPriorityFee⟩

/-- The price of a transaction. -/
def price (tx : Transaction) : Int :=
  effectiveGasPrice tx.txType tx.gasPrice tx.maxFee tx.maxPriorityFee

theorem gasFee_eq_price (tx : Transaction) :
    tx.gasFee = (effectiveGasLimit tx.gasLimit).toNat * price tx :=
  rfl

theorem effectiveGasLimit_pos (gasLimit : UInt64) : 0 < (effectiveGasLimit gasLimit).toNat := by
  unfold effectiveGasLimit
  split
  · decide
  · next declared => exact Nat.pos_of_ne_zero fun zero => declared (UInt64.toNat_inj.mp zero)

theorem gasFee_eq_zero_iff (tx : Transaction) : tx.gasFee = 0 ↔ price tx = 0 := by
  have limit := effectiveGasLimit_pos tx.gasLimit
  rw [gasFee_eq_price, Int.mul_eq_zero]
  omega

/-- A type 2 transaction whose zero fields are unset. -/
theorem dynamicPrice_unset {maxFee tip : Option Int} (lowFee : ∀ fee ∈ maxFee, 0 ≤ fee)
    (lowTip : ∀ amount ∈ tip, 0 ≤ amount) (gasPrice gasPrice' : Option Int) :
    (effectiveGasPrice 2 gasPrice maxFee tip ≠ 0 →
      effectiveGasPrice 2 gasPrice' (maxFee.filter (· ≠ 0)) (tip.filter (· ≠ 0)) =
        effectiveGasPrice 2 gasPrice maxFee tip) ∧
    (effectiveGasPrice 2 gasPrice maxFee tip = 0 →
      0 < effectiveGasPrice 2 gasPrice' (maxFee.filter (· ≠ 0)) (tip.filter (· ≠ 0))) := by
  have tips : (tip.filter (· ≠ 0)).getD 0 = tip.getD 0 := by
    cases tip with
    | none => rfl
    | some amount => by_cases zero : amount = 0 <;> simp [Option.filter, zero]
  have low : 0 ≤ tip.getD 0 := by
    cases tip with
    | none => exact le_refl 0
    | some amount => exact lowTip amount rfl
  have base : baseFeeWei = 35000000000 := rfl
  simp only [effectiveGasPrice, if_true, tips]
  cases maxFee with
  | none =>
    simp only [Option.filter_none, Option.getD_none]
    refine ⟨fun _ => trivial, fun free => ?_⟩
    split_ifs at free ⊢ <;> omega
  | some fee =>
    have lowest := lowFee fee rfl
    by_cases zero : fee = 0
    · simp only [zero, Option.filter, ne_eq, not_true_eq_false, decide_false,
        Bool.false_eq_true, if_false, Option.getD_none, Option.getD_some]
      split_ifs <;> constructor <;> intros <;> omega
    simp only [Option.filter, ne_eq, zero, not_false_eq_true, decide_true, if_true,
      Option.getD_some]
    refine ⟨fun _ => trivial, fun free => ?_⟩
    split_ifs at free ⊢ <;> omega

/-- A transaction of another type whose zero fields are unset. -/
theorem legacyPrice_unset {txType : UInt8} (legacy : txType ≠ 2) {gasPrice maxFee tip : Option Int}
    (lowPrice : ∀ price ∈ gasPrice, 0 ≤ price) (lowFee : ∀ fee ∈ maxFee, 0 ≤ fee)
    (lowTip : ∀ amount ∈ tip, 0 ≤ amount) :
    (effectiveGasPrice txType gasPrice maxFee tip ≠ 0 →
      effectiveGasPrice txType (gasPrice.filter (· ≠ 0)) (maxFee.filter (· ≠ 0))
        (tip.filter (· ≠ 0)) = effectiveGasPrice txType gasPrice maxFee tip) ∧
    (effectiveGasPrice txType gasPrice maxFee tip = 0 →
      0 < effectiveGasPrice txType (gasPrice.filter (· ≠ 0)) (maxFee.filter (· ≠ 0))
        (tip.filter (· ≠ 0))) := by
  -- the first field that is set and not zero, or the fallback
  have pos : ∀ (first second third : Option Int), (∀ n ∈ first, 0 < n) → (∀ n ∈ second, 0 < n) →
      (∀ n ∈ third, 0 < n) → 0 < effectiveGasPrice txType first second third := by
    intro first second third one two three
    simp only [effectiveGasPrice, if_neg legacy]
    split
    · exact one _ rfl
    · exact two _ rfl
    · exact three _ rfl
    · decide
  have unset : ∀ {number : Option Int}, (∀ n ∈ number, 0 ≤ n) →
      ∀ n ∈ number.filter (· ≠ 0), 0 < n := by
    intro number low n mem
    obtain ⟨found, nonzero⟩ := Option.mem_filter_iff.mp mem
    have := low n found
    simp only [ne_eq, decide_eq_true_eq] at nonzero
    omega
  refine ⟨fun priced => ?_, fun _ => pos _ _ _ (unset lowPrice) (unset lowFee) (unset lowTip)⟩
  simp only [effectiveGasPrice, if_neg legacy] at priced ⊢
  cases gasPrice with
  | some price => simp [Option.filter, show price ≠ 0 from priced]
  | none =>
    cases maxFee with
    | some fee => simp [Option.filter, show fee ≠ 0 from priced]
    | none =>
      cases tip with
      | some amount => simp [Option.filter, show amount ≠ 0 from priced]
      | none => rfl

/-- A price other than zero arrives unchanged; a price of zero arrives as a
fallback. -/
theorem price_carriedTransaction (fields : FeeFields tx) :
    (price tx ≠ 0 → price (carriedTransaction tx) = price tx) ∧
      (price tx = 0 → 0 < price (carriedTransaction tx)) := by
  simp only [price, carriedTransaction, fields.gasPrice, fields.maxFee, fields.maxPriorityFee]
  by_cases dynamic : tx.txType = 2
  · rw [dynamic]
    exact dynamicPrice_unset fields.fee fields.tip _ _
  · exact legacyPrice_unset dynamic fields.price fields.fee fields.tip

/-- The fee a receiving node charges for a transaction that is free. -/
def restoredFee (tx : Transaction) : Int :=
  if tx.gasFee = 0 then (carriedTransaction tx).gasFee else 0

theorem gasFee_carriedTransaction (fields : FeeFields tx) :
    (carriedTransaction tx).gasFee = tx.gasFee + restoredFee tx := by
  unfold restoredFee
  split
  · next free => rw [free, Int.zero_add]
  next charged =>
  rw [gasFee_eq_zero_iff] at charged
  rw [Int.add_zero, gasFee_eq_price, gasFee_eq_price,
    (price_carriedTransaction fields).1 charged]
  rfl

theorem restoredFee_pos (fields : FeeFields tx) (free : tx.gasFee = 0) :
    0 < restoredFee tx := by
  rw [restoredFee, if_pos free, gasFee_eq_price]
  have limit := effectiveGasLimit_pos (carriedTransaction tx).gasLimit
  exact Int.mul_pos (by omega)
    ((price_carriedTransaction fields).2 ((gasFee_eq_zero_iff tx).mp free))

theorem restoredFee_nonneg (fields : FeeFields tx) : 0 ≤ restoredFee tx := by
  by_cases free : tx.gasFee = 0
  · exact Int.le_of_lt (restoredFee_pos fields free)
  · rw [restoredFee, if_neg free]

/-! ## The whole block -/

/-- What a restored fee moves at an address. -/
def restoredEffect (block : ZKBlock) (tx : Transaction) (address : Address) : Int :=
  (if block.coinbaseAddr = some address then restoredFee tx - restoredFee tx / 2 else 0) +
    (if block.zkvmAddr = some address then restoredFee tx / 2 else 0) -
      if tx.fromAddr = some address then restoredFee tx else 0

theorem balanceEffect_carriedTransaction (single : block.feeRecipients = []) (fields : FeeFields tx)
    (addr : Address) :
    balanceEffect (carriedBlock block) (carriedTransaction tx) addr =
      balanceEffect block tx addr + restoredEffect block tx addr := by
  have moved : movedValue (carriedTransaction tx) = movedValue tx := by
    simp only [movedValue, carriedTransaction, fields.value]
    cases tx.value with
    | none => rfl
    | some amount => by_cases zero : amount = 0 <;> simp [Option.filter, zero]
  have fee := gasFee_carriedTransaction fields
  have half : (tx.gasFee + restoredFee tx) / 2 = tx.gasFee / 2 + restoredFee tx / 2 := by
    by_cases free : tx.gasFee = 0
    · rw [free]
      simp
    · rw [restoredFee, if_neg free]
      simp
  simp only [balanceEffect, Pi.add_apply, changeAt_apply, feeEffect_apply single,
    feeEffect_apply (show (carriedBlock block).feeRecipients = [] from rfl), moved, fee, half,
    restoredEffect,
    carriedTransaction_fromAddr, carriedTransaction_toAddr, carriedBlock_coinbaseAddr,
    carriedBlock_zkvmAddr]
  split_ifs <;> ring

/-- The effect of all restored fees at an address. -/
def restoredTotal (block : ZKBlock) (address : Address) : Int :=
  (block.transactions.map fun tx => restoredEffect block tx address).sum

theorem totalEffect_carriedBlock (single : block.feeRecipients = [])
    (fields : ∀ tx ∈ block.transactions, FeeFields tx) (addr : Address) :
    totalEffect (carriedBlock block) (carriedBlock block).transactions addr =
      totalEffect block block.transactions addr + restoredTotal block addr := by
  rw [totalEffect_apply, totalEffect_apply, restoredTotal, ← sum_map_add]
  simp only [carriedBlock, map_map, Function.comp_def]
  exact congrArg List.sum (map_congr_left fun tx mem =>
    balanceEffect_carriedTransaction single (fields tx mem) addr)

/-! ## When the restored fees cancel -/

/-- The fees restored to the transactions of one sender. -/
def restoredBy (block : ZKBlock) (sender : Option Address) : Int :=
  (block.transactions.map fun tx => if tx.fromAddr = sender then restoredFee tx else 0).sum

/-- The shares of the restored fees that go to the coinbase. -/
def restoredToCoinbase (block : ZKBlock) : Int :=
  (block.transactions.map fun tx => restoredFee tx - restoredFee tx / 2).sum

/-- The shares of the restored fees that go to the zkvm. -/
def restoredToZKVM (block : ZKBlock) : Int :=
  (block.transactions.map fun tx => restoredFee tx / 2).sum

/-- Free transactions come only from the coinbase and the zkvm account, and each of
the two, if they are different, would pay as much in restored fees as it would
get. -/
structure FeesCancel (block : ZKBlock) : Prop where
  senders : ∀ tx ∈ block.transactions, tx.gasFee = 0 →
    tx.fromAddr = block.coinbaseAddr ∨ tx.fromAddr = block.zkvmAddr
  shares : block.coinbaseAddr ≠ block.zkvmAddr →
    (block.coinbaseAddr.isSome → restoredBy block block.coinbaseAddr = restoredToCoinbase block) ∧
      (block.zkvmAddr.isSome → restoredBy block block.zkvmAddr = restoredToZKVM block)

theorem sum_map_ite {α : Type} (items : List α) (condition : Prop) [Decidable condition]
    (f : α → Int) :
    (items.map fun item => if condition then f item else 0).sum =
      if condition then (items.map f).sum else 0 := by
  split_ifs <;> simp

theorem restoredTotal_eq (block : ZKBlock) (addr : Address) :
    restoredTotal block addr =
      (if block.coinbaseAddr = some addr then restoredToCoinbase block else 0) +
        (if block.zkvmAddr = some addr then restoredToZKVM block else 0) -
          restoredBy block (some addr) := by
  unfold restoredTotal restoredEffect restoredToCoinbase restoredToZKVM restoredBy
  rw [← sum_map_ite, ← sum_map_ite, ← sum_map_add]
  induction block.transactions with
  | nil => rfl
  | cons tx rest ih =>
    simp only [map_cons, sum_cons, ih]
    ring

theorem restoredFee_of_charged (charged : tx.gasFee ≠ 0) : restoredFee tx = 0 :=
  if_neg charged

section

variable {block : ZKBlock} (fields : ∀ tx ∈ block.transactions, FeeFields tx)

include fields in
/-- A sender of a free transaction would pay something. -/
theorem restoredBy_pos (mem : tx ∈ block.transactions) (free : tx.gasFee = 0) :
    0 < restoredBy block tx.fromAddr := by
  have nonneg : ∀ amount ∈ block.transactions.map
      (fun other => if other.fromAddr = tx.fromAddr then restoredFee other else 0), 0 ≤ amount := by
    intro amount listed
    obtain ⟨other, inBlock, rfl⟩ := mem_map.mp listed
    split_ifs
    · exact restoredFee_nonneg (fields other inBlock)
    · exact le_refl 0
  have own : restoredFee tx ∈ block.transactions.map
      (fun other => if other.fromAddr = tx.fromAddr then restoredFee other else 0) :=
    mem_map.mpr ⟨tx, mem, if_pos rfl⟩
  exact lt_of_lt_of_le (restoredFee_pos (fields tx mem) free)
    (single_le_sum nonneg _ own)

/-- A sender without free transactions pays nothing. -/
theorem restoredBy_eq_zero
    (charged : ∀ tx ∈ block.transactions, tx.fromAddr = sender → tx.gasFee ≠ 0) :
    restoredBy block sender = 0 := by
  refine sum_eq_zero fun amount listed => ?_
  obtain ⟨tx, mem, rfl⟩ := mem_map.mp listed
  split_ifs with same
  · exact restoredFee_of_charged (charged tx mem same)
  · rfl

/-- A sender of all free transactions pays all the restored fees. -/
theorem restoredBy_eq_total (only : ∀ tx ∈ block.transactions, tx.gasFee = 0 → tx.fromAddr = sender) :
    restoredBy block sender = restoredToCoinbase block + restoredToZKVM block := by
  rw [restoredToCoinbase, restoredToZKVM, ← sum_map_add, restoredBy]
  refine congrArg List.sum (map_congr_left fun tx mem => ?_)
  split_ifs with same
  · ring
  · rw [restoredFee_of_charged fun free => same (only tx mem free)]
    rfl

include fields in
/-- The restored fees cancel at every address exactly under the condition. -/
theorem restoredTotal_eq_zero_iff (senders : ∀ tx ∈ block.transactions, tx.fromAddr.isSome) :
    (∀ addr, restoredTotal block addr = 0) ↔ FeesCancel block := by
  constructor
  · intro cancels
    refine ⟨fun tx mem free => ?_, fun different => ⟨fun set => ?_, fun set => ?_⟩⟩
    · by_contra outside
      obtain ⟨notCoinbase, notZKVM⟩ := not_or.mp outside
      obtain ⟨sender, known⟩ := Option.isSome_iff_exists.mp (senders tx mem)
      have paid := restoredBy_pos fields mem free
      have total := cancels sender
      rw [known] at notCoinbase notZKVM paid
      rw [restoredTotal_eq, if_neg (Ne.symm notCoinbase), if_neg (Ne.symm notZKVM)] at total
      omega
    · obtain ⟨coinbase, known⟩ := Option.isSome_iff_exists.mp set
      have total := cancels coinbase
      rw [restoredTotal_eq, if_pos known, if_neg fun same => different (known.trans same.symm)]
        at total
      rw [known]
      omega
    · obtain ⟨zkvm, known⟩ := Option.isSome_iff_exists.mp set
      have total := cancels zkvm
      rw [restoredTotal_eq, if_pos known, if_neg fun same => different (same.trans known.symm)]
        at total
      rw [known]
      omega
  · rintro ⟨only, shares⟩ addr
    rw [restoredTotal_eq]
    by_cases coinbase : block.coinbaseAddr = some addr <;>
      by_cases zkvm : block.zkvmAddr = some addr
    · have total : restoredBy block (some addr) = _ := restoredBy_eq_total
        fun tx mem free => (only tx mem free).elim (·.trans coinbase) (·.trans zkvm)
      rw [if_pos coinbase, if_pos zkvm, total]
      ring
    · have different : block.coinbaseAddr ≠ block.zkvmAddr := fun same => zkvm (same ▸ coinbase)
      have share := (shares different).1 (by rw [coinbase]; rfl)
      rw [if_pos coinbase, if_neg zkvm, ← coinbase, share]
      ring
    · have different : block.coinbaseAddr ≠ block.zkvmAddr := fun same => coinbase (same ▸ zkvm)
      have share := (shares different).2 (by rw [zkvm]; rfl)
      rw [if_neg coinbase, if_pos zkvm, ← zkvm, share]
      ring
    · have idle : restoredBy block (some addr) = 0 := restoredBy_eq_zero
        fun tx mem same free => (only tx mem free).elim
          (fun equal => coinbase (equal.symm.trans same)) fun equal => zkvm (equal.symm.trans same)
      rw [if_neg coinbase, if_neg zkvm, idle]
      rfl

end

/-! ## The deltas of the two blocks -/

/-- The parts of a delta other than the balance. -/
def BookKeeping (delta : BlockAccountDelta) : UInt64 × UInt64 × Bool :=
  (delta.txNonce, delta.txCountSent, delta.isSender)

/-- Two maps of deltas have the same entries up to the balances. -/
def SameShape (first second : Deltas) : Prop :=
  ∀ address, (first.get address).map BookKeeping = (second.get address).map BookKeeping

section

variable {first second : Deltas}

section

variable (same : SameShape first second)
include same

theorem SameShape.entry (addr : Address) :
    BookKeeping (first.entry addr) = BookKeeping (second.entry addr) := by
  have shape := same addr
  unfold Deltas.entry
  cases one : first.get addr <;> cases two : second.get addr <;>
    simp_all

theorem SameShape.touch (addr : Address) {one two : BlockAccountDelta → BlockAccountDelta}
    (alike : ∀ left right, BookKeeping left = BookKeeping right →
      BookKeeping (one left) = BookKeeping (two right)) :
    SameShape (first.touch addr one) (second.touch addr two) := by
  intro other
  by_cases equal : other = addr
  · subst equal
    simp only [Deltas.touch, Function.update_self, Option.map_some]
    rw [alike _ _ (same.entry other)]
  · simp only [Deltas.touch, Function.update_of_ne equal]
    exact same other

theorem SameShape.add (addr : Address) (one two : Int) :
    SameShape (first.add addr one) (second.add addr two) :=
  same.touch addr fun _ _ alike => alike

theorem SameShape.addAt (addr : Option Address)
    (one two : Int) : SameShape (first.addAt addr one) (second.addAt addr two) := by
  cases addr with
  | none => exact same
  | some present => exact same.add present one two

/-- Deltas of one shape are equal where their balances are. -/
theorem SameShape.get_eq_iff (addr : Address) :
    first.get addr = second.get addr ↔ first.change addr = second.change addr := by
  have shape := same addr
  unfold Deltas.change Deltas.entry
  cases one : first.get addr with
  | none =>
    cases two : second.get addr with
    | none => simp
    | some right => simp [one, two] at shape
  | some left =>
    cases two : second.get addr with
    | none => simp [one, two] at shape
    | some right =>
      simp only [one, two, Option.map_some, Option.some.injEq, BookKeeping, Prod.mk.injEq]
        at shape
      obtain ⟨nonce, count, sender⟩ := shape
      obtain ⟨balance, _, _, _⟩ := left
      obtain ⟨balance', _, _, _⟩ := right
      simp_all

end

/-- One transaction and its transported copy touch the same accounts. -/
theorem SameShape.addTxDeltas (single : block.feeRecipients = []) (fields : FeeFields tx)
    (same : SameShape first second) :
    SameShape (DBOPs.addTxDeltas (carriedBlock block) first (carriedTransaction tx))
      (DBOPs.addTxDeltas block second tx) := by
  have pos : positiveValue (carriedTransaction tx) = positiveValue tx := by
    simp only [positiveValue, carriedTransaction, fields.value]
    cases tx.value with
    | none => rfl
    | some amount => by_cases zero : amount = 0 <;> simp [Option.filter, zero]
  unfold DBOPs.addTxDeltas
  simp only [pos, carriedTransaction_fromAddr, carriedTransaction_toAddr,
    carriedBlock_coinbaseAddr, carriedBlock_zkvmAddr, single,
    show (carriedBlock block).feeRecipients = [] from rfl, splitFee_nil, foldl_cons,
    foldl_nil]
  have sent : SameShape
      (tx.fromAddr.elim first fun sender => first.touch sender (senderDelta (carriedTransaction tx)))
      (tx.fromAddr.elim second fun sender => second.touch sender (senderDelta tx)) := by
    cases tx.fromAddr with
    | none => exact same
    | some sender =>
      refine same.touch sender fun left right alike => ?_
      simp only [BookKeeping, Prod.mk.injEq] at alike
      obtain ⟨nonce, count, flag⟩ := alike
      simp [BookKeeping, senderDelta, nonce, count, flag]
  refine SameShape.addAt ?_ _ _ _
  split_ifs
  · refine SameShape.add ?_ _ _ _
    cases positiveValue tx with
    | none => exact sent
    | some value => exact sent.addAt _ _ _
  · cases positiveValue tx with
    | none => exact sent
    | some value => exact sent.addAt _ _ _

theorem SameShape.foldl_addTxDeltas (single : block.feeRecipients = []) (txs : List Transaction)
    (fields : ∀ tx ∈ txs, FeeFields tx) (same : SameShape first second) :
    SameShape ((txs.map carriedTransaction).foldl (DBOPs.addTxDeltas (carriedBlock block)) first)
      (txs.foldl (DBOPs.addTxDeltas block) second) := by
  induction txs generalizing first second with
  | nil => exact same
  | cons tx rest ih =>
    rw [map_cons, foldl_cons, foldl_cons]
    rw [forall_mem_cons] at fields
    exact ih fields.2 (same.addTxDeltas single fields.1)

end

/-- A node that receives an accepted block through a sync stores the same
transactions and computes the same deltas exactly when the fees restored to free
transactions cancel. -/
theorem synced_deltas_agree_iff {node : Messaging.Node} {message : BlockMessage} {block : ZKBlock}
    (accepted : Accepts node message) (carried : message.block = some block)
    (receiver : FastsyncV2.Node) (latestOk : Bool) :
    ∃ stored, (syncBlock latestOk block receiver).db.blocks block.blockNumber = some stored ∧
      ((txHashes stored = txHashes block ∧
        ∀ address, (computeBlockDeltas stored fun _ => false).get address =
          (computeBlockDeltas block fun _ => false).get address) ↔ FeesCancel block) := by
  have admitted := accepted.admitted carried
  have fields : ∀ tx ∈ block.transactions, FeeFields tx := fun tx member =>
    feeFields_of_checkTransactionValues (admitted.checked tx member).values
  refine ⟨carriedBlock block, syncBlock_stored latestOk block receiver, ?_⟩
  rw [and_iff_right (carriedBlock_txHashes block),
    ← restoredTotal_eq_zero_iff fields fun tx member => (admitted.checked tx member).sender]
  refine forall_congr' fun address => ?_
  have shape : SameShape (computeBlockDeltas (carriedBlock block) fun _ => false)
      (computeBlockDeltas block fun _ => false) := by
    rw [computeBlockDeltas_all, computeBlockDeltas_all]
    exact SameShape.foldl_addTxDeltas admitted.feeRecipients block.transactions fields fun _ => rfl
  rw [shape.get_eq_iff, change_computeBlockDeltas_all, change_computeBlockDeltas_all,
    totalEffect_carriedBlock admitted.feeRecipients fields]
  omega

theorem charged_block_agrees :
    Accepts sampleNode (certified (sampleBlock [signedTransfer 0] (some 3))) ∧
      ∃ stored, (syncBlock true (sampleBlock [signedTransfer 0] (some 3)) {}).db.blocks 7 =
          some stored ∧
        ∀ address, (computeBlockDeltas stored fun _ => false).get address =
          (computeBlockDeltas (sampleBlock [signedTransfer 0] (some 3)) fun _ => false).get
            address := by
  have accepted : Accepts sampleNode (certified (sampleBlock [signedTransfer 0] (some 3))) := by
    decide +kernel
  obtain ⟨stored, received, agrees⟩ := synced_deltas_agree_iff accepted rfl {} true
  exact ⟨accepted, stored, received, (agrees.mpr ⟨by decide, by decide⟩).2⟩

/-- A transfer of 10 whose gas price is zero. -/
def freeTransfer : Transaction :=
  { signedTransfer 0 with gasPrice := some 0, gasLimit := 21000 }

/-- The accepted block takes 10 from the sender on the live path; a node that got
it through a sync takes 21000 gwei more. -/
theorem free_transfer_costs_a_fee_after_sync :
    Accepts sampleNode (certified (sampleBlock [freeTransfer] (some 3))) ∧
      ∃ stored, (syncBlock true (sampleBlock [freeTransfer] (some 3)) {}).db.blocks 7 =
          some stored ∧
        ((computeBlockDeltas (sampleBlock [freeTransfer] (some 3)) fun _ => false).get 1).map
          BlockAccountDelta.balanceDelta = some (-10) ∧
        ((computeBlockDeltas stored fun _ => false).get 1).map
          BlockAccountDelta.balanceDelta = some (-21000000000010) := by
  refine ⟨by decide +kernel, carriedBlock (sampleBlock [freeTransfer] (some 3)), ?_, ?_⟩
  · exact syncBlock_stored true (sampleBlock [freeTransfer] (some 3)) {}
  · decide +kernel

end Jmdn.Nodeinfo
