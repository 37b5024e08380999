import Jmdn.DBOPs.ReconEffects

/-!
# The accounts of block deltas

The deltas of a block have an entry for the sender of every transaction, for the
recipient of a positive value, for the fee shares and for the zkvm account.  All
of them are accounts by which the partition counts.
-/

namespace Jmdn.DBOPs

open Config Go List

variable {deltas : Deltas} {addr other : Address} {block : ZKBlock}

theorem assignRemainder_addr (remainder : Int) (credits : List FeeCredit) :
    (assignRemainder remainder credits).map FeeCredit.addr = credits.map FeeCredit.addr := by
  cases credits <;> rfl

theorem splitFee_addr {fee : Int} {coinbase : Address} {recipients : List FeeRecipient}
    {credit : FeeCredit} (mem : credit ∈ (splitFee fee coinbase recipients).2) :
    credit.addr = coinbase ∨ credit.addr ∈ recipients.map FeeRecipient.addr := by
  simp only [splitFee] at mem
  split at mem
  · simp only [mem_singleton] at mem
    exact .inl (by rw [mem])
  have listed := mem_map_of_mem (f := FeeCredit.addr) mem
  rw [assignRemainder_addr] at listed
  simp only [weightedCredits, map_map, mem_map, mem_filter,
    mem_insertionSort] at listed
  obtain ⟨recipient, ⟨found, _⟩, same⟩ := listed
  exact .inr (mem_map.mpr ⟨recipient, found, same⟩)

namespace Deltas

theorem mem_keys_touch {change : BlockAccountDelta → BlockAccountDelta} :
    other ∈ (deltas.touch addr change).keys ↔ other = addr ∨ other ∈ deltas.keys := by
  rw [listed, listed]
  by_cases same : other = addr <;> simp [touch, same]

theorem mem_keys_addAt {addr : Option Address} {amount : Int} :
    other ∈ (deltas.addAt addr amount).keys ↔ addr = some other ∨ other ∈ deltas.keys := by
  cases addr with
  | none => simp [addAt]
  | some present => simp [addAt, add, mem_keys_touch, eq_comm]

theorem mem_keys_addCredits {credits : List FeeCredit} :
    other ∈ (credits.foldl (fun current credit => current.add credit.addr credit.amount)
      deltas).keys ↔ other ∈ credits.map FeeCredit.addr ∨ other ∈ deltas.keys := by
  induction credits generalizing deltas with
  | nil => simp
  | cons credit rest ih =>
    rw [foldl_cons, ih, add, mem_keys_touch, map_cons, mem_cons, or_left_comm,
      or_assoc]

end Deltas

theorem mem_keys_addTxDeltas {tx : Transaction} :
    addr ∈ (addTxDeltas block deltas tx).keys ↔
      block.zkvmAddr = some addr ∨
      (block.coinbaseAddr.isSome ∧ addr ∈ (splitFee tx.gasFee (block.coinbaseAddr.getD 0)
        block.feeRecipients).2.map FeeCredit.addr) ∨
      ((positiveValue tx).isSome ∧ tx.toAddr = some addr) ∨
      tx.fromAddr = some addr ∨ addr ∈ deltas.keys := by
  simp only [addTxDeltas, Deltas.mem_keys_addAt]
  cases tx.fromAddr <;> cases positiveValue tx <;> cases block.coinbaseAddr.isSome <;>
    simp [Deltas.mem_keys_touch, Deltas.mem_keys_addAt, Deltas.mem_keys_addCredits, eq_comm]

/-- The addresses the deltas of one transaction have an entry for. -/
def txDeltaKeys (block : ZKBlock) (tx : Transaction) : List Address :=
  (addTxDeltas block Deltas.empty tx).keys

theorem txDeltaKeys_subset (block : ZKBlock) (tx : Transaction) :
    txDeltaKeys block tx ⊆ txTouchedAccounts block tx := by
  intro addr mem
  rcases mem_keys_addTxDeltas.mp mem with
    zkvm | ⟨coinbaseSet, credited⟩ | ⟨-, recipient⟩ | sender | none
  · simp [txTouchedAccounts, zkvm]
  · obtain ⟨coinbase, present⟩ := Option.isSome_iff_exists.mp coinbaseSet
    obtain ⟨credit, found, rfl⟩ := mem_map.mp credited
    rw [present, Option.getD_some] at found
    rcases splitFee_addr found with isCoinbase | isRecipient
    · simp [txTouchedAccounts, present, isCoinbase]
    · simp [txTouchedAccounts, mem_map.mp isRecipient]
  · simp [txTouchedAccounts, recipient]
  · simp [txTouchedAccounts, sender]
  · cases none

/-- The addresses the deltas of some transactions have an entry for. -/
def DeltaTouched (block : ZKBlock) (txs : List Transaction) : Set Address :=
  {address | ∃ tx ∈ txs, address ∈ txDeltaKeys block tx}

theorem deltaTouched_append (block : ZKBlock) (first second : List Transaction) :
    DeltaTouched block (first ++ second) =
      DeltaTouched block first ∪ DeltaTouched block second := by
  ext addr
  simp [DeltaTouched, or_and_right, exists_or]

theorem mem_keys_foldl_addTxDeltas {txs : List Transaction} :
    addr ∈ (txs.foldl (addTxDeltas block) Deltas.empty).keys ↔
      addr ∈ DeltaTouched block txs := by
  induction txs using List.reverseRecOn with
  | nil => simp [DeltaTouched, Deltas.empty]
  | append_singleton txs tx ih =>
    have one : addr ∈ DeltaTouched block [tx] ↔ addr ∈ txDeltaKeys block tx := by
      simp [DeltaTouched]
    rw [foldl_concat, mem_keys_addTxDeltas, ih, deltaTouched_append, Set.mem_union, one,
      txDeltaKeys, mem_keys_addTxDeltas]
    simp [Deltas.empty, or_assoc, or_comm, or_left_comm]

end Jmdn.DBOPs
