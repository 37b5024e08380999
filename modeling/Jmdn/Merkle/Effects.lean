import Jmdn.Config.FeeShares
import Jmdn.DBOPs.ReconKeys
import Jmdn.Merkle.Leaf

/-!
# Leaves and balance effects

Two stored blocks with one leaf move the same values between the same accounts.
Fees are another matter: a leaf holds no fee recipients, and it does not tell an
absent fee field from a zero one, while `EffectiveGasPrice` does.  Where it reads a
zero the transaction is free, and where it does not the leaf tells the fee; the
deltas of the blocks agree exactly when what the zeros and the recipients change
cancels.
-/

namespace Jmdn.Merkle

open Config DBOPs Go List

/-! ## The moves two agreeing blocks share -/

/-- Two transactions move the same value from and to the same accounts. -/
structure SameMove (first second : Transaction) : Prop where
  fromAddr : first.fromAddr = second.fromAddr
  toAddr : first.toAddr = second.toAddr
  nonce : first.nonce = second.nonce
  moved : positiveValue first = positiveValue second

theorem positiveValue_eq_magnitude {tx : Transaction} (storable : StorableTx tx) :
    positiveValue tx = (magnitude tx.value).map Int.ofNat := by
  have sign := storable.nonneg tx.value (by simp)
  unfold positiveValue magnitude
  cases value : tx.value with
  | none => rfl
  | some amount =>
    have nonneg : 0 ≤ amount := sign amount value
    obtain ⟨natural, rfl⟩ := Int.eq_ofNat_of_zero_le nonneg
    by_cases zero : natural = 0
    · simp [Option.filter, zero]
    · have pos : 0 < natural := Nat.pos_of_ne_zero zero
      simp [Option.filter, zero, pos]

theorem TxAgrees.sameMove {first second : Transaction} (agrees : TxAgrees first second)
    (one : StorableTx first) (two : StorableTx second) : SameMove first second where
  fromAddr := agrees.fromAddr
  toAddr := agrees.toAddr
  nonce := agrees.nonce
  moved := by
    rw [positiveValue_eq_magnitude one, positiveValue_eq_magnitude two, agrees.value]

theorem sameMoves {first second : List Transaction} (agree : List.Forall₂ TxAgrees first second)
    (one : ∀ tx ∈ first, StorableTx tx) (two : ∀ tx ∈ second, StorableTx tx) :
    List.Forall₂ SameMove first second := by
  refine forall₂_iff_zip.mpr ⟨agree.length_eq, fun {tx other} paired => ?_⟩
  have members := of_mem_zip paired
  exact ((forall₂_iff_zip.mp agree).2 paired).sameMove (one tx members.1)
    (two other members.2)

section

variable {first second : Deltas}

theorem sameSenders_sentDeltas {tx other : Transaction} (move : SameMove tx other)
    (same : first.SameSenders second) :
    (sentDeltas first tx).SameSenders (sentDeltas second other) := by
  constructor <;> intro addr <;> by_cases sends : tx.fromAddr = some addr
  all_goals
    have sends' := sends
    rw [move.fromAddr] at sends'
  · rw [entry_sentDeltas_of_eq sends, entry_sentDeltas_of_eq sends']
    simp only [senderDelta, move.nonce, same.isSender, same.txNonce]
  · rw [entry_sentDeltas_of_ne sends, entry_sentDeltas_of_ne sends', same.txNonce]
  · rw [entry_sentDeltas_of_eq sends, entry_sentDeltas_of_eq sends']
    simp only [senderDelta, same.txCountSent]
  · rw [entry_sentDeltas_of_ne sends, entry_sentDeltas_of_ne sends', same.txCountSent]
  · rw [entry_sentDeltas_of_eq sends, entry_sentDeltas_of_eq sends']
    simp only [senderDelta]
  · rw [entry_sentDeltas_of_ne sends, entry_sentDeltas_of_ne sends', same.isSender]

/-- Shared moves give shared nonces and counts, whatever the fees. -/
theorem sameSenders_foldl (block other : ZKBlock) {txs txs' : List Transaction}
    (moves : List.Forall₂ SameMove txs txs') (same : first.SameSenders second) :
    (txs.foldl (addTxDeltas block) first).SameSenders (txs'.foldl (addTxDeltas other) second) := by
  induction moves generalizing first second with
  | nil => exact same
  | cons move _ ih =>
    apply ih
    have sent := sameSenders_sentDeltas move same
    exact ((addTxDeltas_sameSenders block first _).trans sent).trans
      (addTxDeltas_sameSenders other second _).symm

end

/-! ## Fees -/

/-- `EffectiveGasPrice` takes the price from a field that is set to zero. -/
def readsZero (tx : Transaction) : Bool :=
  if tx.txType = 2 then tx.maxFee = some 0
  else tx.gasPrice = some 0 ∨ tx.gasPrice = none ∧
    (tx.maxFee = some 0 ∨ tx.maxFee = none ∧ tx.maxPriorityFee = some 0)

/-- The price that is paid where no zero is read: for type 2 the cap, or the base fee
without one, up to the base fee and the tip; for other types the first fee field that
is not zero, or the fallback. -/
def statedPrice (tx : Transaction) : Int :=
  if tx.txType = 2 then
    min (if tx.maxFee.getD 0 = 0 then baseFeeWei else tx.maxFee.getD 0)
      (baseFeeWei + tx.maxPriorityFee.getD 0)
  else
    ([tx.gasPrice, tx.maxFee, tx.maxPriorityFee].map (Option.getD · 0)).find? (· ≠ 0)
      |>.getD fallbackGasPriceWei

def statedFee (tx : Transaction) : Int :=
  (effectiveGasLimit tx.gasLimit).toNat * statedPrice tx

theorem effectiveGasPrice_eq {tx : Transaction} (storable : StorableTx tx) :
    effectiveGasPrice tx.txType tx.gasPrice tx.maxFee tx.maxPriorityFee =
      if readsZero tx then 0 else statedPrice tx := by
  unfold effectiveGasPrice readsZero statedPrice
  by_cases dynamic : tx.txType = 2
  · have tip : 0 ≤ baseFeeWei + tx.maxPriorityFee.getD 0 := by
      have low := storable.nonneg tx.maxPriorityFee (by simp)
      cases present : tx.maxPriorityFee with
      | none => decide
      | some amount => exact Int.add_nonneg (by decide) (low amount present)
    simp only [if_pos dynamic, ← min_def]
    cases tx.maxFee with
    | none => simp
    | some cap =>
      by_cases zero : cap = 0
      · simp [zero, tip]
      · simp [zero]
  · simp only [if_neg dynamic]
    cases tx.gasPrice with
    | some price => by_cases zero : price = 0 <;> simp [zero]
    | none =>
      cases tx.maxFee with
      | some fee => by_cases zero : fee = 0 <;> simp [zero]
      | none =>
        cases tx.maxPriorityFee with
        | some tip => by_cases zero : tip = 0 <;> simp [zero]
        | none => simp

theorem gasFee_eq_stated {tx : Transaction} (storable : StorableTx tx) :
    tx.gasFee = if readsZero tx then 0 else statedFee tx := by
  rw [Transaction.gasFee, gasFee, effectiveGasPrice_eq storable, statedFee]
  split
  · exact Int.mul_zero _
  · rfl

/-- What is paid where no zero is read is told by the leaf. -/
theorem TxAgrees.statedFee_eq {first second : Transaction} (agrees : TxAgrees first second)
    (one : StorableTx first) (two : StorableTx second) : statedFee first = statedFee second := by
  have field : ∀ {number number' : Option Int}, number ∈ _ → number' ∈ _ → _ :=
    fun mem mem' => getD_eq_of_magnitude (one.nonneg _ mem) (two.nonneg _ mem')
  simp only [statedFee, statedPrice, agrees.gasLimit, agrees.txType, map_cons, map_nil,
    field (by simp) (by simp) agrees.gasPrice, field (by simp) (by simp) agrees.maxFee,
    field (by simp) (by simp) agrees.maxPriorityFee]

/-- The shares of a fee in a block. -/
def feeShares (block : ZKBlock) (fee : Int) : Address → Int :=
  let shares := splitFee fee (block.coinbaseAddr.getD 0) block.feeRecipients
  (if block.coinbaseAddr.isSome then creditEffect shares.2 else 0) +
    changeAt block.zkvmAddr shares.1

theorem feeShares_zero (block : ZKBlock) (address : Address) : feeShares block 0 address = 0 := by
  obtain ⟨low, nonneg⟩ := splitFee_nonneg (Int.le_refl 0) (block.coinbaseAddr.getD 0)
    block.feeRecipients
  have total := splitFee_sum 0 (block.coinbaseAddr.getD 0) block.feeRecipients
  unfold feeShares
  generalize splitFee 0 (block.coinbaseAddr.getD 0) block.feeRecipients = shares at low nonneg total
  have amounts : ∀ amount ∈ shares.2.map FeeCredit.amount, 0 ≤ amount := by
    simpa using nonneg
  have credits : creditEffect shares.2 = 0 := by
    refine sum_eq_zero fun change listed => ?_
    obtain ⟨credit, mem, rfl⟩ := mem_map.mp listed
    have most := single_le_sum amounts _ (mem_map_of_mem mem)
    have none : credit.amount = 0 := by
      have least := nonneg credit mem
      omega
    rw [none, Pi.single_zero]
  have zkvm : shares.1 = 0 := by
    have rest := sum_nonneg amounts
    omega
  have unchanged : changeAt block.zkvmAddr 0 address = 0 := by
    rw [changeAt_apply]
    exact ite_self 0
  simp [credits, zkvm, unchanged]

/-- What the fee of a transaction changes at an address: the shares less the charge. -/
def feeChange (block : ZKBlock) (tx : Transaction) (address : Address) : Int :=
  feeShares block tx.gasFee address - if tx.fromAddr = some address then tx.gasFee else 0

/-- What the fees of a pair of transactions, one in each block, change at an address in
the one block and not in the other: if both pay, the recipients of the shares may
differ; if one of them reads a zero, the fee is moved in the other block only. -/
def feeGap (first second : ZKBlock) (address : Address) (pair : Transaction × Transaction) : Int :=
  let fee := statedFee pair.1
  let charge := if pair.1.fromAddr = some address then fee else 0
  match readsZero pair.1, readsZero pair.2 with
  | false, false => feeShares first fee address - feeShares second fee address
  | false, true => feeShares first fee address - charge
  | true, false => charge - feeShares second fee address
  | true, true => 0

theorem feeGap_eq (first second : ZKBlock) (address : Address) {tx other : Transaction}
    (agrees : TxAgrees tx other) (one : StorableTx tx) (two : StorableTx other) :
    feeGap first second address (tx, other) =
      feeChange first tx address - feeChange second other address := by
  rw [feeGap, feeChange, feeChange, gasFee_eq_stated one, gasFee_eq_stated two,
    ← agrees.statedFee_eq one two, ← agrees.fromAddr]
  cases readsZero tx <;> cases readsZero other <;> simp [feeShares_zero]

/-- The addresses of the coinbase side of `SplitFee`. -/
def feeAddresses (block : ZKBlock) : List Address :=
  match block.coinbaseAddr with
  | none => []
  | some coinbase =>
    if block.feeRecipients = [] ∨ totalWeight block.feeRecipients = 0 then [coinbase]
    else (block.feeRecipients.filter fun recipient => recipient.weight ≠ 0).map FeeRecipient.addr

/-- An address a block has an entry for whoever shares the fees. -/
def Party (block : ZKBlock) (address : Address) : Prop :=
  block.zkvmAddr = some address ∨ ∃ tx ∈ block.transactions,
    tx.fromAddr = some address ∨ ((positiveValue tx).isSome ∧ tx.toAddr = some address)

/-- Two blocks with one leaf book the same fees: what the zeros and the recipients
change cancels at every address, and an address that has an entry for its share only,
which may be zero, has one in both. -/
structure FeesAgree (first second : ZKBlock) : Prop where
  cancels : ∀ address,
    ((first.transactions.zip second.transactions).map (feeGap first second address)).sum = 0
  credited : first.transactions ≠ [] → ∀ address, ¬ Party first address →
    (address ∈ feeAddresses first ↔ address ∈ feeAddresses second)

/-- The addresses of the shares do not depend on the fee. -/
theorem mem_feeAddresses (block : ZKBlock) (fee : Int) (addr : Address) :
    (block.coinbaseAddr.isSome ∧ addr ∈ (splitFee fee (block.coinbaseAddr.getD 0)
      block.feeRecipients).2.map FeeCredit.addr) ↔ addr ∈ feeAddresses block := by
  unfold feeAddresses splitFee
  cases block.coinbaseAddr with
  | none => simp
  | some coinbase =>
    by_cases single : block.feeRecipients = [] ∨ totalWeight block.feeRecipients = 0
    · simp [single]
    · simp only [Option.isSome_some, true_and, if_neg single, assignRemainder_addr,
        weightedCredits, map_map]
      simp [mem_insertionSort]

theorem mem_keys_iff (block : ZKBlock) (addr : Address) :
    addr ∈ (computeBlockDeltas block fun _ => false).keys ↔
      block.transactions ≠ [] ∧ (Party block addr ∨ addr ∈ feeAddresses block) := by
  rw [computeBlockDeltas, mem_keys_foldl_addTxDeltas]
  simp only [DeltaTouched, txDeltaKeys, mem_keys_addTxDeltas, mem_feeAddresses, Set.mem_ofPred_eq,
    Bool.not_false, filter_true]
  constructor
  · rintro ⟨tx, mem, zkvm | credited | receiver | sender | absent⟩
    · exact ⟨ne_nil_of_mem mem, .inl (.inl zkvm)⟩
    · exact ⟨ne_nil_of_mem mem, .inr credited⟩
    · exact ⟨ne_nil_of_mem mem, .inl (.inr ⟨tx, mem, .inr receiver⟩)⟩
    · exact ⟨ne_nil_of_mem mem, .inl (.inr ⟨tx, mem, .inl sender⟩)⟩
    · cases absent
  · rintro ⟨some', (zkvm | ⟨tx, mem, sender | receiver⟩) | credited⟩
    · obtain ⟨tx, mem⟩ := exists_mem_of_ne_nil _ some'
      exact ⟨tx, mem, .inl zkvm⟩
    · exact ⟨tx, mem, .inr (.inr (.inr (.inl sender)))⟩
    · exact ⟨tx, mem, .inr (.inr (.inl receiver))⟩
    · obtain ⟨tx, mem⟩ := exists_mem_of_ne_nil _ some'
      exact ⟨tx, mem, .inr (.inl credited)⟩

/-! ## Comparing the deltas -/

section

variable {first second : ZKBlock}

/-- Two maps agree at an address when they have the same keys and entries there. -/
theorem get_eq_iff (one two : Deltas) (addr : Address) :
    one.get addr = two.get addr ↔
      (addr ∈ one.keys ↔ addr ∈ two.keys) ∧ one.entry addr = two.entry addr := by
  rw [one.listed, two.listed]
  unfold Deltas.entry
  constructor
  · intro same
    rw [same]
    exact ⟨Iff.rfl, rfl⟩
  · rintro ⟨present, same⟩
    cases left : one.get addr with
    | none =>
      cases right : two.get addr with
      | none => rfl
      | some entry => simp [left, right] at present
    | some entry =>
      cases right : two.get addr with
      | none => simp [left, right] at present
      | some other =>
        rw [left, right, Option.getD_some, Option.getD_some] at same
        rw [same]

theorem entry_eq_iff {one two : Deltas} (same : one.SameSenders two) (addr : Address) :
    one.entry addr = two.entry addr ↔ one.change addr = two.change addr := by
  have nonce := same.txNonce addr
  have count := same.txCountSent addr
  have sender := same.isSender addr
  unfold Deltas.change
  generalize one.entry addr = left at *
  generalize two.entry addr = right at *
  cases left
  cases right
  simp_all

/-- The value a transaction moves, read at an address. -/
def valueChange (tx : Transaction) (address : Address) : Int :=
  changeAt tx.fromAddr (-movedValue tx) address + changeAt tx.toAddr (movedValue tx) address

theorem balanceEffect_eq (block : ZKBlock) (tx : Transaction) (addr : Address) :
    balanceEffect block tx addr = valueChange tx addr + feeChange block tx addr := by
  simp only [balanceEffect, feeEffect, valueChange, feeChange, feeShares, Pi.add_apply,
    changeAt_apply]
  split_ifs <;> ring

theorem SameMove.valueChange_eq {tx other : Transaction} (move : SameMove tx other) :
    valueChange tx = valueChange other := by
  funext addr
  rw [valueChange, valueChange, ← positiveValue_getD, ← positiveValue_getD, move.moved,
    move.fromAddr, move.toAddr]

/-- The changes of agreeing transactions differ by the gaps of their fees. -/
theorem totalEffect_sub {txs others : List Transaction} (agree : List.Forall₂ TxAgrees txs others)
    (one : ∀ tx ∈ txs, StorableTx tx) (two : ∀ tx ∈ others, StorableTx tx) (addr : Address) :
    totalEffect first txs addr - totalEffect second others addr =
      ((txs.zip others).map (feeGap first second addr)).sum := by
  rw [totalEffect_apply, totalEffect_apply]
  induction agree with
  | nil => rfl
  | cons same _ ih =>
    rw [forall_mem_cons] at one two
    have values := congrFun (same.sameMove one.1 two.1).valueChange_eq addr
    rw [map_cons, map_cons, zip_cons_cons, map_cons, sum_cons, sum_cons, sum_cons,
      ← ih one.2 two.2, feeGap_eq first second addr same one.1 two.1, balanceEffect_eq,
      balanceEffect_eq, values]
    ring

section

variable (zkvm : first.zkvmAddr = second.zkvmAddr)
  (moves : List.Forall₂ SameMove first.transactions second.transactions) (addr : Address)
include zkvm moves

theorem party_of_sameMoves : Party first addr ↔ Party second addr := by
  unfold Party
  rw [zkvm]
  refine or_congr_right ?_
  generalize first.transactions = txs, second.transactions = txs' at moves
  induction moves with
  | nil => rfl
  | cons move _ ih =>
    rw [exists_mem_cons_iff, exists_mem_cons_iff, ih, move.fromAddr, move.toAddr,
      move.moved]

/-- Agreeing blocks have the same keys exactly when the fee addresses agree outside
the parties. -/
theorem keys_agree_iff :
    (addr ∈ (computeBlockDeltas first fun _ => false).keys ↔
        addr ∈ (computeBlockDeltas second fun _ => false).keys) ↔
      (first.transactions ≠ [] → ¬ Party first addr →
        (addr ∈ feeAddresses first ↔ addr ∈ feeAddresses second)) := by
  have empty : first.transactions = [] ↔ second.transactions = [] := by
    rw [← length_eq_zero_iff, ← length_eq_zero_iff, moves.length_eq]
  rw [mem_keys_iff, mem_keys_iff, ← party_of_sameMoves zkvm moves addr, ne_eq, ne_eq, empty,
    and_congr_right_iff]
  refine forall_congr' fun _ => ⟨fun keys outside => ?_, or_congr_right'⟩
  rwa [or_iff_right outside, or_iff_right outside] at keys

end

/-- Two stored blocks with one leaf have the same deltas exactly when they book the
same fees. -/
theorem equal_leaves_same_deltas_iff {sha256 : List UInt8 → Hash}
    (one : Storable first) (two : Storable second)
    (free : CollisionFree sha256 (hashedTexts sha256 (configToFastsyncBlock first) ++
      hashedTexts sha256 (configToFastsyncBlock second)))
    (same : leaf sha256 first = leaf sha256 second) :
    (∀ address, (computeBlockDeltas first fun _ => false).get address =
      (computeBlockDeltas second fun _ => false).get address) ↔ FeesAgree first second := by
  have agrees := blockAgrees_of_leaf_eq one two free same
  have moves := sameMoves agrees.transactions one.transactions two.transactions
  have senders : (computeBlockDeltas first fun _ => false).SameSenders
      (computeBlockDeltas second fun _ => false) := by
    rw [computeBlockDeltas_all, computeBlockDeltas_all]
    exact sameSenders_foldl first second moves (Deltas.SameSenders.refl _)
  have pointwise : ∀ address, (computeBlockDeltas first fun _ => false).get address =
      (computeBlockDeltas second fun _ => false).get address ↔
        (first.transactions ≠ [] → ¬ Party first address →
          (address ∈ feeAddresses first ↔ address ∈ feeAddresses second)) ∧
        ((first.transactions.zip second.transactions).map (feeGap first second address)).sum =
          0 := by
    intro address
    rw [get_eq_iff, keys_agree_iff agrees.zkvmAddr moves, entry_eq_iff senders,
      change_computeBlockDeltas_all, change_computeBlockDeltas_all, ← Int.sub_eq_zero,
      totalEffect_sub agrees.transactions one.transactions two.transactions]
  simp only [pointwise]
  constructor
  · intro agree
    exact ⟨fun address => (agree address).2, fun sent address => (agree address).1 sent⟩
  · intro fees address
    exact ⟨fun sent => fees.credited sent address, fees.cancels address⟩

/-- Blocks with one list of recipients that read zeros for the same transactions book
the same fees. -/
theorem feesAgree_of_same_zeros (coinbase : first.coinbaseAddr = second.coinbaseAddr)
    (zkvm : first.zkvmAddr = second.zkvmAddr)
    (recipients : first.feeRecipients = second.feeRecipients)
    (zeros : ∀ pair ∈ first.transactions.zip second.transactions,
      readsZero pair.1 = readsZero pair.2) : FeesAgree first second where
  cancels address := by
    refine sum_eq_zero fun gap listed => ?_
    obtain ⟨pair, mem, rfl⟩ := mem_map.mp listed
    rw [feeGap, zeros pair mem, feeShares, feeShares, coinbase, zkvm, recipients]
    cases readsZero pair.2 <;> simp
  credited _ address _ := by rw [feeAddresses, feeAddresses, coinbase, recipients]

end

/-! ## Two runs -/

/-- A block with one legacy transfer of one wei. -/
def transferBlock (blockHash : Hash) (gasPrice maxFee : Option Int)
    (recipients : List FeeRecipient) : ZKBlock where
  transactions := [{ hash := 7, fromAddr := some 1, toAddr := some 2, value := some 1,
                     gasPrice := gasPrice, maxFee := maxFee }]
  coinbaseAddr := some 3
  zkvmAddr := some 4
  feeRecipients := recipients
  blockHash := blockHash
  blockNumber := 1

theorem storable_transferBlock {gasPrice maxFee : Option Int} (blockHash : Hash)
    (recipients : List FeeRecipient)
    (small : ∀ number ∈ [gasPrice, maxFee], number ∈ [none, some 0, some 5]) :
    Storable (transferBlock blockHash gasPrice maxFee recipients) := by
  have empty : (utf8 "").length < 2 ^ 32 := by decide +kernel
  have known : ∀ number : Option Int, number ∈ [none, some 0, some 5, some 1] →
      (∀ value ∈ number, 0 ≤ value) ∧ Fits number := by
    unfold Fits
    decide +kernel
  refine ⟨by simpa [transferBlock] using empty, by simp [transferBlock], by simp [transferBlock],
    fun tx mem => ?_⟩
  obtain rfl := mem_singleton.mp mem
  have fields : ∀ number ∈ [some 1, none, gasPrice, maxFee, none],
      (∀ value ∈ number, 0 ≤ value) ∧ Fits number := by
    intro number listed
    refine known number ?_
    have all := small number
    simp only [mem_cons, not_mem_nil, or_false] at all listed ⊢
    grind
  exact ⟨fun number listed => (fields number listed).1, fun number listed =>
    (fields number listed).2⟩

/-- Another block hash, and a zero cap for an absent one behind a price, leave the leaf
and the effects alone. -/
theorem zero_behind_price_leaves_deltas :
    leaf lengthDigest (transferBlock 8 (some 5) none [⟨6, 1⟩]) =
        leaf lengthDigest (transferBlock 9 (some 5) (some 0) [⟨6, 1⟩]) ∧
    ∀ address,
      (computeBlockDeltas (transferBlock 8 (some 5) none [⟨6, 1⟩]) fun _ => false).get address =
        (computeBlockDeltas (transferBlock 9 (some 5) (some 0) [⟨6, 1⟩]) fun _ => false).get
          address := by
  have free : CollisionFree lengthDigest (hashedTexts lengthDigest
      (configToFastsyncBlock (transferBlock 8 (some 5) none [⟨6, 1⟩])) ++
        hashedTexts lengthDigest
          (configToFastsyncBlock (transferBlock 9 (some 5) (some 0) [⟨6, 1⟩]))) := by
    unfold CollisionFree
    decide +kernel
  exact ⟨rfl, (equal_leaves_same_deltas_iff (storable_transferBlock 8 _ (by decide))
    (storable_transferBlock 9 _ (by decide)) free rfl).mpr
    (feesAgree_of_same_zeros rfl rfl rfl (by decide))⟩

/-- Without a gas price the sender pays the fallback, with a gas price of zero
nothing; a leaf tells neither these two blocks apart nor two lists of recipients. -/
theorem equal_leaves_different_deltas :
    (∀ block ∈ [transferBlock 8 none none [], transferBlock 8 (some 0) none [],
      transferBlock 8 none none [⟨6, 1⟩]], Storable block ∧
      leaf lengthDigest block = leaf lengthDigest (transferBlock 8 none none []) ∧
      CollisionFree lengthDigest (hashedTexts lengthDigest (configToFastsyncBlock block) ++
        hashedTexts lengthDigest (configToFastsyncBlock (transferBlock 8 none none [])))) ∧
    (computeBlockDeltas (transferBlock 8 none none []) fun _ => false).change 1 =
      -21000000000001 ∧
    (computeBlockDeltas (transferBlock 8 (some 0) none []) fun _ => false).change 1 = -1 ∧
    (computeBlockDeltas (transferBlock 8 none none []) fun _ => false).get 6 = none ∧
    (computeBlockDeltas (transferBlock 8 none none [⟨6, 1⟩]) fun _ => false).change 6 =
      10500000000000 := by
  refine ⟨?_, by decide +kernel, by decide +kernel, by decide +kernel, by decide +kernel⟩
  rw [forall_mem_cons, forall_mem_cons, forall_mem_singleton]
  refine ⟨⟨storable_transferBlock 8 [] (by decide), rfl, ?_⟩,
    ⟨storable_transferBlock 8 [] (by decide), rfl, ?_⟩,
    storable_transferBlock 8 _ (by decide), rfl, ?_⟩
  all_goals
    unfold CollisionFree
    decide +kernel

end Jmdn.Merkle
