import Mathlib.Algebra.Order.BigOperators.Group.List
import Jmdn.Config.BalanceEffect

/-!
# Shares of a fee

`SplitFee` hands out a fee exactly: the zkvm share and the credits of the
coinbase side add up to the fee, and none of them is negative.  The weights,
their order and repeated addresses do not matter.
-/

namespace Jmdn.Config

open List

variable {recipients : List FeeRecipient} {fee : Int}

/-- What the unstable sort of `SplitFee` may leave: the recipients by address. -/
structure OrderedByAddr (recipients ordered : List FeeRecipient) : Prop where
  perm : ordered.Perm recipients
  sorted : ordered.Pairwise fun first second => first.addr ≤ second.addr

theorem orderedByAddr_insertionSort (recipients : List FeeRecipient) :
    OrderedByAddr recipients
      (recipients.insertionSort fun first second => first.addr ≤ second.addr) where
  perm := perm_insertionSort _ recipients
  sorted := by
    have total : Std.Total fun first second : FeeRecipient => first.addr ≤ second.addr :=
      ⟨fun first second => BitVec.le_total first.addr second.addr⟩
    have transitive : IsTrans FeeRecipient fun first second => first.addr ≤ second.addr :=
      ⟨fun _ _ _ => BitVec.le_trans⟩
    exact pairwise_insertionSort _ recipients

def sharingRecipients (recipients : List FeeRecipient) : List FeeRecipient :=
  recipients.filter fun recipient => recipient.weight ≠ 0

/-- `SplitFee` when its sort leaves the recipients in the given order. -/
def splitFeeIn (ordered : List FeeRecipient) (gasFee : Int) (coinbase : Address)
    (recipients : List FeeRecipient) : Int × List FeeCredit :=
  let coinbaseShare := gasFee - gasFee / 2
  let total := totalWeight recipients
  if recipients = [] ∨ total = 0 then
    (gasFee / 2, [⟨coinbase, coinbaseShare⟩])
  else
    let credits := (sharingRecipients ordered).map fun recipient =>
      ({ addr := recipient.addr
         amount := coinbaseShare * recipient.weight.toNat / total } : FeeCredit)
    let distributed := (credits.map FeeCredit.amount).sum
    (gasFee / 2, assignRemainder (coinbaseShare - distributed) credits)

theorem totalWeight_nonneg (recipients : List FeeRecipient) : 0 ≤ totalWeight recipients := by
  apply sum_nonneg
  intro weight mem
  obtain ⟨recipient, _, rfl⟩ := mem_map.mp mem
  exact Int.natCast_nonneg _

theorem totalWeight_sharingRecipients (recipients : List FeeRecipient) :
    totalWeight (sharingRecipients recipients) = totalWeight recipients := by
  induction recipients with
  | nil => rfl
  | cons recipient rest ih =>
    rw [sharingRecipients, filter_cons]
    by_cases zero : recipient.weight = 0
    · simpa [totalWeight, sharingRecipients, zero] using ih
    · simpa [totalWeight, sharingRecipients, zero] using ih

section

variable (share total : Int)

/-- The shares rounded down. -/
def roundedShares (recipients : List FeeRecipient) : Int :=
  (recipients.map fun recipient => share * recipient.weight.toNat / total).sum

/-- What rounding leaves over, in units of the total weight. -/
def leftOver (recipients : List FeeRecipient) : Int :=
  (recipients.map fun recipient => share * recipient.weight.toNat % total).sum

theorem roundedShares_add_leftOver (recipients : List FeeRecipient) :
    total * roundedShares share total recipients + leftOver share total recipients =
      share * totalWeight recipients := by
  induction recipients with
  | nil => simp [roundedShares, leftOver, totalWeight]
  | cons recipient rest ih =>
    have exactly := Int.mul_ediv_add_emod (share * recipient.weight.toNat) total
    simp only [roundedShares, leftOver, totalWeight, map_cons, sum_cons, mul_add] at ih ⊢
    omega

variable {share total} in
theorem roundedShares_perm {others : List FeeRecipient} (perm : recipients.Perm others) :
    roundedShares share total recipients = roundedShares share total others :=
  (perm.map _).sum_eq

variable {total}

theorem leftOver_filter_le (pos : 0 < total) (keeps : FeeRecipient → Bool)
    (recipients : List FeeRecipient) :
    0 ≤ leftOver share total (recipients.filter keeps) ∧
      leftOver share total (recipients.filter keeps) ≤ leftOver share total recipients := by
  induction recipients with
  | nil => simp [leftOver]
  | cons recipient rest ih =>
    have rounding := Int.emod_nonneg (share * recipient.weight.toNat) (ne_of_gt pos)
    rw [filter_cons]
    simp only [leftOver, map_cons, sum_cons] at ih ⊢
    split
    · simp only [map_cons, sum_cons]
      omega
    · omega

theorem leftOver_lt (pos : 0 < total) (some : recipients ≠ []) :
    leftOver share total recipients < total * recipients.length := by
  induction recipients with
  | nil => exact absurd rfl some
  | cons recipient rest ih =>
    have rounding := Int.emod_lt_of_pos (share * recipient.weight.toNat) pos
    simp only [leftOver, map_cons, sum_cons, length_cons, Nat.cast_succ, mul_add,
      mul_one] at ih ⊢
    by_cases last : rest = []
    · simpa [last] using rounding
    · have later := ih last
      omega

end

variable {recipients ordered : List FeeRecipient}

section

variable (order : OrderedByAddr recipients ordered)
include order

theorem OrderedByAddr.totalWeight_sharing :
    totalWeight (sharingRecipients ordered) = totalWeight recipients := by
  rw [totalWeight_sharingRecipients]
  exact (order.perm.map _).sum_eq

/-- What `SplitFee` hands to the coinbase side. -/
theorem splitFeeIn_cases (fee : Int) (coinbase : Address) : (totalWeight recipients = 0 ∧
        splitFeeIn ordered fee coinbase recipients = (fee / 2, [⟨coinbase, fee - fee / 2⟩])) ∨
      0 < totalWeight recipients ∧ ∃ first rest, sharingRecipients ordered = first :: rest ∧
        splitFeeIn ordered fee coinbase recipients = (fee / 2, assignRemainder (fee - fee / 2 -
          roundedShares (fee - fee / 2) (totalWeight recipients) (sharingRecipients ordered))
          ((first :: rest).map fun recipient => ⟨recipient.addr,
            (fee - fee / 2) * recipient.weight.toNat / totalWeight recipients⟩)) := by
  by_cases alone : recipients = [] ∨ totalWeight recipients = 0
  · left
    refine ⟨?_, by simp [splitFeeIn, alone]⟩
    rcases alone with rfl | zero
    · rfl
    · exact zero
  right
  have pos : 0 < totalWeight recipients :=
    lt_of_le_of_ne (totalWeight_nonneg recipients) fun zero => alone (.inr zero.symm)
  refine ⟨pos, ?_⟩
  cases sharing : sharingRecipients ordered with
  | nil =>
    have total := order.totalWeight_sharing
    rw [sharing] at total
    exact absurd total (ne_of_lt pos)
  | cons first rest =>
    refine ⟨first, rest, rfl, ?_⟩
    simp only [splitFeeIn, if_neg alone, sharing, map_map, roundedShares]
    rfl

theorem splitFeeIn_sum (fee : Int) (coinbase : Address) :
    (splitFeeIn ordered fee coinbase recipients).1 +
      ((splitFeeIn ordered fee coinbase recipients).2.map FeeCredit.amount).sum = fee := by
  rcases splitFeeIn_cases order fee coinbase with ⟨-, single⟩ | ⟨-, first, rest, sharing, several⟩
  · simp [single]
  · rw [several, sharing]
    simp only [assignRemainder, roundedShares, map_cons, sum_cons, map_map,
      Function.comp_def]
    omega

end

theorem splitFee_sum (fee : Int) (coinbase : Address) (recipients : List FeeRecipient) :
    (splitFee fee coinbase recipients).1 +
      ((splitFee fee coinbase recipients).2.map FeeCredit.amount).sum = fee :=
  splitFeeIn_sum (orderedByAddr_insertionSort recipients) fee coinbase

theorem splitFeeIn_nonneg (order : OrderedByAddr recipients ordered) (nonneg : 0 ≤ fee)
    (coinbase : Address) :
    0 ≤ (splitFeeIn ordered fee coinbase recipients).1 ∧
      ∀ credit ∈ (splitFeeIn ordered fee coinbase recipients).2, 0 ≤ credit.amount := by
  have share : 0 ≤ fee - fee / 2 := by omega
  rcases splitFeeIn_cases order fee coinbase with
    ⟨-, single⟩ | ⟨pos, first, rest, sharing, several⟩
  · rw [single]
    refine ⟨by omega, ?_⟩
    simpa using share
  · -- the rounded shares are not negative, and neither is what rounding leaves over
    have rounded : ∀ recipient : FeeRecipient,
        0 ≤ (fee - fee / 2) * recipient.weight.toNat / totalWeight recipients := fun _ =>
      Int.ediv_nonneg (Int.mul_nonneg share (Int.natCast_nonneg _)) pos.le
    have handed : roundedShares (fee - fee / 2) (totalWeight recipients)
        (sharingRecipients ordered) ≤ fee - fee / 2 := by
      have exactly := roundedShares_add_leftOver (fee - fee / 2) (totalWeight recipients)
        (sharingRecipients ordered)
      have rest := leftOver_filter_le (fee - fee / 2) pos
        (fun recipient => recipient.weight ≠ 0) ordered
      rw [order.totalWeight_sharing, mul_comm (fee - fee / 2)] at exactly
      apply Int.le_of_mul_le_mul_left _ pos
      rw [← exactly]
      exact Int.le_add_of_nonneg_right rest.1
    rw [several]
    refine ⟨by omega, ?_⟩
    intro credit mem
    rcases mem_cons.mp mem with rfl | later
    · exact add_nonneg (rounded first) (by omega)
    · obtain ⟨recipient, -, rfl⟩ := mem_map.mp later
      exact rounded recipient

theorem splitFee_nonneg (nonneg : 0 ≤ fee) (coinbase : Address) (recipients : List FeeRecipient) :
    0 ≤ (splitFee fee coinbase recipients).1 ∧
      ∀ credit ∈ (splitFee fee coinbase recipients).2, 0 ≤ credit.amount :=
  splitFeeIn_nonneg (orderedByAddr_insertionSort recipients) nonneg coinbase

section

variable (share total : Int)

theorem creditEffect_shares (addr : Address) (recipients : List FeeRecipient) :
    creditEffect (recipients.map fun recipient =>
        ⟨recipient.addr, share * recipient.weight.toNat / total⟩) addr =
      roundedShares share total (recipients.filter fun recipient => recipient.addr = addr) := by
  induction recipients with
  | nil => rfl
  | cons recipient rest ih =>
    rw [creditEffect, map_cons, map_cons, sum_cons, Pi.add_apply, ← creditEffect, ih,
      filter_cons, Pi.single_apply]
    by_cases same : recipient.addr = addr
    · simp [roundedShares, same]
    · simp [same, Ne.symm same]

theorem creditEffect_assignRemainder (remainder : Int) (credit : FeeCredit)
    (rest : List FeeCredit) (addr : Address) :
    creditEffect (assignRemainder remainder (credit :: rest)) addr =
      creditEffect (credit :: rest) addr + if credit.addr = addr then remainder else 0 := by
  simp only [assignRemainder, creditEffect, map_cons, sum_cons, Pi.add_apply,
    Pi.single_apply, @eq_comm _ addr]
  split <;> omega

end

section

variable (order : OrderedByAddr recipients ordered)
include order

/-- Every address is credited its rounded shares; the least one also gets what
rounding leaves. -/
theorem creditEffect_splitFeeIn (fee : Int)
    (coinbase : Address) (pos : 0 < totalWeight recipients) :
    ∃ least ∈ sharingRecipients recipients,
      (∀ recipient ∈ sharingRecipients recipients, least.addr ≤ recipient.addr) ∧
      ∀ addr, creditEffect (splitFeeIn ordered fee coinbase recipients).2 addr =
        roundedShares (fee - fee / 2) (totalWeight recipients)
          ((sharingRecipients recipients).filter fun recipient => recipient.addr = addr) +
        if least.addr = addr then fee - fee / 2 - roundedShares (fee - fee / 2)
          (totalWeight recipients) (sharingRecipients recipients) else 0 := by
  have perm : (sharingRecipients ordered).Perm (sharingRecipients recipients) :=
    order.perm.filter _
  rcases splitFeeIn_cases order fee coinbase with ⟨zero, -⟩ | ⟨-, first, rest, sharing, several⟩
  · exact absurd zero.symm (ne_of_lt pos)
  have sorted := order.sorted.filter fun recipient => recipient.weight ≠ 0
  rw [← sharingRecipients, sharing, pairwise_cons] at sorted
  rw [roundedShares_perm perm, ← sharing] at several
  refine ⟨first, perm.mem_iff.mp (by simp [sharing]), ?_, ?_⟩
  · intro recipient mem
    rw [← perm.mem_iff, sharing, mem_cons] at mem
    rcases mem with rfl | later
    · exact BitVec.le_refl _
    · exact sorted.1 recipient later
  · intro addr
    rw [several]
    dsimp only
    rw [← roundedShares_perm (perm.filter _), ← creditEffect_shares, sharing, map_cons,
      creditEffect_assignRemainder]

theorem splitFeeIn_close (fee : Int)
    (coinbase : Address) (pos : 0 < totalWeight recipients) (addr : Address) :
    |totalWeight recipients *
        creditEffect (splitFeeIn ordered fee coinbase recipients).2 addr - (fee - fee / 2) *
          totalWeight (recipients.filter fun recipient => recipient.addr = addr)| <
      totalWeight recipients * recipients.length := by
  obtain ⟨least, shared, -, credited⟩ := creditEffect_splitFeeIn order fee coinbase pos
  have whole := roundedShares_add_leftOver (fee - fee / 2) (totalWeight recipients)
    (sharingRecipients recipients)
  have own := roundedShares_add_leftOver (fee - fee / 2) (totalWeight recipients)
    ((sharingRecipients recipients).filter fun recipient => recipient.addr = addr)
  have part := leftOver_filter_le (fee - fee / 2) pos
    (fun recipient => recipient.addr = addr) (sharingRecipients recipients)
  have bound := leftOver_lt (fee - fee / 2) pos (ne_nil_of_mem shared)
  have fewer : totalWeight recipients * ((sharingRecipients recipients).length : Int) ≤
      totalWeight recipients * recipients.length :=
    Int.mul_le_mul_of_nonneg_left (by exact_mod_cast length_filter_le _ _) pos.le
  rw [totalWeight_sharingRecipients, mul_comm (fee - fee / 2)] at whole
  rw [sharingRecipients, filter_comm, ← sharingRecipients,
    totalWeight_sharingRecipients] at own
  rw [credited, mul_add, mul_ite, mul_sub, mul_zero, sharingRecipients, filter_comm,
    ← sharingRecipients, ← sharingRecipients, abs_lt]
  rw [sharingRecipients, filter_comm, ← sharingRecipients, ← sharingRecipients] at part
  split <;> constructor <;> omega

theorem splitFeeIn_perm {permuted reordered : List FeeRecipient} (perm : permuted.Perm recipients)
    (other : OrderedByAddr permuted reordered) (fee : Int) (coinbase : Address) :
    creditEffect (splitFeeIn reordered fee coinbase permuted).2 =
      creditEffect (splitFeeIn ordered fee coinbase recipients).2 := by
  have total : totalWeight permuted = totalWeight recipients := (perm.map _).sum_eq
  rcases splitFeeIn_cases order fee coinbase with ⟨zero, single⟩ | ⟨pos, -⟩
  · rcases splitFeeIn_cases other fee coinbase with ⟨-, same⟩ | ⟨pos, -⟩
    · rw [single, same]
    · omega
  obtain ⟨least, shared, lower, credited⟩ := creditEffect_splitFeeIn order fee coinbase pos
  obtain ⟨least', shared', lower', credited'⟩ := creditEffect_splitFeeIn other fee coinbase
    (total ▸ pos)
  have sharing : (sharingRecipients permuted).Perm (sharingRecipients recipients) :=
    perm.filter _
  have same : least'.addr = least.addr := BitVec.le_antisymm
    (lower' least (sharing.mem_iff.mpr shared)) (lower least' (sharing.mem_iff.mp shared'))
  funext addr
  rw [credited, credited', total, same, roundedShares_perm sharing,
    roundedShares_perm (sharing.filter _)]

/-- The shares of a fee are not negative and add up to it.  An address gets its
proportional part but for less than one unit per recipient, and the same amount
for every order of the recipients and of those with the same address. -/
theorem splitFeeIn_fair {fee : Int} (nonneg : 0 ≤ fee) (coinbase : Address) :
    let shares := splitFeeIn ordered fee coinbase recipients
    0 ≤ shares.1 ∧ (∀ credit ∈ shares.2, 0 ≤ credit.amount) ∧
      shares.1 + (shares.2.map FeeCredit.amount).sum = fee ∧
      (0 < totalWeight recipients → ∀ address,
        |totalWeight recipients * creditEffect shares.2 address - (fee - fee / 2) *
          totalWeight (recipients.filter fun recipient => recipient.addr = address)| <
            totalWeight recipients * recipients.length) ∧
      ∀ permuted reordered, permuted.Perm recipients → OrderedByAddr permuted reordered →
        creditEffect (splitFeeIn reordered fee coinbase permuted).2 = creditEffect shares.2 := by
  obtain ⟨zkvm, credits⟩ := splitFeeIn_nonneg order nonneg coinbase
  exact ⟨zkvm, credits, splitFeeIn_sum order fee coinbase,
    splitFeeIn_close order fee coinbase,
    fun _ _ perm other => splitFeeIn_perm order perm other fee coinbase⟩

end

theorem repeatedRecipient_fair :
    creditEffect (splitFeeIn [⟨1, 2⟩, ⟨1, 1⟩, ⟨2, 1⟩] 5 9 [⟨2, 1⟩, ⟨1, 1⟩, ⟨1, 2⟩]).2 =
      creditEffect (splitFeeIn [⟨1, 1⟩, ⟨1, 2⟩, ⟨2, 1⟩] 5 9 [⟨1, 2⟩, ⟨1, 1⟩, ⟨2, 1⟩]).2 :=
  (splitFeeIn_fair ⟨by decide, by decide⟩ (by decide) 9).2.2.2.2 _ _ (by decide)
    ⟨by decide, by decide⟩

theorem creditEffect_nonneg {credits : List FeeCredit}
    (nonneg : ∀ credit ∈ credits, 0 ≤ credit.amount) (addr : Address) :
    0 ≤ creditEffect credits addr := by
  induction credits with
  | nil => exact le_refl 0
  | cons credit rest ih =>
    rw [forall_mem_cons] at nonneg
    have later := ih nonneg.2
    rw [creditEffect, map_cons, sum_cons, Pi.add_apply, Pi.single_apply]
    rw [creditEffect] at later
    split
    · exact add_nonneg nonneg.1 later
    · simpa using later

theorem feeEffect_nonneg {block : ZKBlock} {tx : Transaction} (nonneg : 0 ≤ tx.gasFee)
    (addr : Address) : 0 ≤ feeEffect block tx addr := by
  obtain ⟨zkvm, credits⟩ :=
    splitFee_nonneg nonneg (block.coinbaseAddr.getD 0) block.feeRecipients
  rw [feeEffect, Pi.add_apply, changeAt_apply]
  apply add_nonneg
  · split
    · exact creditEffect_nonneg credits addr
    · exact le_refl 0
  · split
    · exact zkvm
    · exact le_refl 0

end Jmdn.Config
