import Jmdn.DBOPs.ReconGroups

/-!
# Retrying the reconciliation of a block

An attempt that fails leaves the groups it committed, and the next attempt
partitions what is left anew.  However often it is interrupted and however the
transactions are grouped, the attempts together write what one uninterrupted
attempt writes.
-/

namespace Jmdn.DBOPs

open Accounts Config Go Ledger List

variable {txs : List Transaction} {block : ZKBlock} {after before : DB}

/-! ## The documents of a call -/

/-- Transactions of a block were reconciled: exactly the documents their deltas
name were written, and each fitted one `ExecAll`. -/
structure Settles (block : ZKBlock) (txs : List Transaction) (before after : DB) : Prop extends
    Reconciles block txs before after where
  written : ∀ address ∈ DeltaTouched block txs, ∃ doc, after.accounts.get address = some doc ∧
    doc.balance = formatInt (value after.accounts.amount address)
  kept : ∀ address ∉ DeltaTouched block txs,
    after.accounts.get address = before.accounts.get address
  light : ∀ tx ∈ txs, (txDeltaKeys block tx).length < maxExecAllEntries

theorem Settles.refl (block : ZKBlock) (db : DB) : Settles block [] db db where
  toReconciles := Reconciles.refl block db
  written := by simp [DeltaTouched]
  kept := fun _ _ => rfl
  light := by simp

theorem Settles.trans {first second : List Transaction} {middle : DB}
    (one : Settles block first before middle) (two : Settles block second middle after) :
    Settles block (first ++ second) before after := by
  constructor
  · exact one.toReconciles.trans two.toReconciles
  · intro addr touched
    rw [deltaTouched_append] at touched
    by_cases again : addr ∈ DeltaTouched block second
    · exact two.written addr again
    obtain ⟨doc, stored, balance⟩ := one.written addr (touched.resolve_right again)
    have same := two.kept addr again
    rw [same, value, amount_congr same]
    exact ⟨doc, stored, balance⟩
  · intro addr untouched
    rw [deltaTouched_append, Set.mem_union, not_or] at untouched
    rw [two.kept addr untouched.2, one.kept addr untouched.1]
  · intro tx mem
    exact (mem_append.mp mem).elim (one.light tx) (two.light tx)

/-- Committing one group settles its transactions. -/
theorem commitReconGroup_settles {env : ReconEnv} {chunk : List Transaction} {db db' : DB}
    (distinct : (txHashes block).Nodup) (inside : chunk.Sublist block.transactions)
    (done : commitChunk env block chunk db = .ok db') :
    Settles block chunk db db' := by
  have keys : ∀ addr, addr ∈ (groupDeltas block (chunk.map Transaction.hash)).keys ↔
      addr ∈ DeltaTouched block chunk := by
    intro addr
    rw [groupDeltas_chunk inside distinct, mem_keys_foldl_addTxDeltas]
  obtain ⟨docs, computed, within, rfl⟩ := commitReconGroup_writes done
  constructor
  · exact commitReconGroup_reconciles inside distinct done
  · intro addr touched
    obtain ⟨doc, stored, balance, -⟩ := written_of_reconDocs computed ((keys addr).mpr touched)
    refine ⟨doc, stored, ?_⟩
    rw [value, amount_of_formatted stored balance, Option.getD_some, balance]
  · intro addr untouched
    exact get_of_reconDocs computed _ fun mem => untouched ((keys addr).mp mem)
  · intro tx mem
    have fewer := (subperm_of_subset (Deltas.nodup _) fun addr listed =>
      (keys addr).mpr ⟨tx, mem, listed⟩).length_le
    have some := length_pos_of_mem mem
    rw [length_of_reconDocs computed, length_insertionSort, length_map] at within
    rw [txDeltaKeys]
    omega

/-- What a store holds for an account: its balance and the two counters of the
transactions it sent. -/
def accountFields (store : Accounts) (address : Address) : Option (String × UInt64 × UInt64) :=
  (store.get address).map fun doc => (doc.balance, doc.txNonce, doc.txCountSent)

/-- What is written for some transactions does not depend on how they were
grouped. -/
theorem Settles.agree {first second : DB} (one : Settles block txs before first)
    (two : Settles block txs before second) (addr : Address) :
    accountFields first.accounts addr = accountFields second.accounts addr := by
  by_cases touched : addr ∈ DeltaTouched block txs
  · obtain ⟨doc, stored, balance⟩ := one.written addr touched
    obtain ⟨doc', stored', balance'⟩ := two.written addr touched
    have balances : doc.balance = doc'.balance := by
      rw [balance, balance', one.adds.value_eq, two.adds.value_eq]
    have txNonces : doc.txNonce = doc'.txNonce := by
      apply UInt64.toNat_inj.mp
      rw [← txNonce_of_stored stored, ← txNonce_of_stored stored',
        one.txNonce, two.txNonce]
    have txCounts : doc.txCountSent = doc'.txCountSent := by
      rw [← txCountSent_of_stored stored, ← txCountSent_of_stored stored',
        one.txCountSent, two.txCountSent]
    simp only [accountFields, stored, stored', Option.map_some, balances, txNonces, txCounts]
  · rw [accountFields, accountFields, one.kept addr touched, two.kept addr touched]

/-! ## Attempts -/

/-- One call of `ApplyBlockRecon`: its group budget, the hash it expects, and
which of its database calls succeed. -/
structure ReconAttempt where
  budget : Nat := reconGroupOpBudget
  env : ReconEnv := {}
  expectHash : Option Hash := none

def ReconAttempt.apply (attempt : ReconAttempt) (number : UInt64) (db : DB) :
    Except ReconError Unit × DB :=
  applyBlockReconWithin attempt.budget attempt.env number attempt.expectHash db

/-- Attempts one after another, whatever they return. -/
def runAttempts (number : UInt64) (attempts : List ReconAttempt) (db : DB) : DB :=
  attempts.foldl (fun current attempt => (attempt.apply number current).2) db

section

variable {number : UInt64} {block : ZKBlock} {db : DB}

theorem ReconAttempt.settles (attempt : ReconAttempt) (stored : db.blocks number = some block)
    (distinct : (txHashes block).Nodup) :
    ∃ txs, txs <+: unappliedTransactions block db ∧
      Settles block txs db (attempt.apply number db).2 ∧
      ((attempt.apply number db).1 = .ok () → txs = unappliedTransactions block db) :=
  applyBlockReconWithin_rule (Settles.refl block) Settles.trans
    (commitReconGroup_settles distinct) attempt.budget attempt.expectHash stored

theorem Settles.blocks (settles : Settles block txs db after) :
    after.blocks number = db.blocks number := by
  rw [settles.others]

/-- Settled transactions are not pending any more. -/
theorem Settles.unapplied {rest : List Transaction} (settles : Settles block txs db after)
    (distinct : (txHashes block).Nodup) (split : txs ++ rest = unappliedTransactions block db) :
    unappliedTransactions block after = rest := by
  have hashes : ((txs ++ rest).map Transaction.hash).Nodup := by
    rw [split]
    exact distinct.sublist (filter_sublist.map _)
  rw [map_append, nodup_append] at hashes
  have remaining : unappliedTransactions block after =
      (txs ++ rest).filter fun tx => !decide (tx.hash ∈ txs.map Transaction.hash) := by
    rw [split, unappliedTransactions, unappliedTransactions, filter_filter]
    apply filter_congr
    intro tx _
    rw [settles.txApplied, Bool.not_or]
  rw [remaining, filter_append, filter_eq_nil_iff.mpr, nil_append,
    filter_eq_self]
  · intro tx mem
    have other : tx.hash ∉ txs.map Transaction.hash := fun found =>
      hashes.2.2 _ found _ (mem_map_of_mem mem) rfl
    simpa using other
  · intro tx mem
    simp [mem_map_of_mem mem]

/-- A run of attempts settles a leading part of the unapplied transactions. -/
theorem runAttempts_settles (stored : db.blocks number = some block)
    (distinct : (txHashes block).Nodup) (attempts : List ReconAttempt) :
    ∃ txs, txs <+: unappliedTransactions block db ∧
      Settles block txs db (runAttempts number attempts db) := by
  induction attempts generalizing db with
  | nil => exact ⟨[], nil_prefix, Settles.refl block db⟩
  | cons attempt rest ih =>
    obtain ⟨first, ⟨left, split⟩, settled, -⟩ := attempt.settles stored distinct
    obtain ⟨second, inside, later⟩ := ih (settled.blocks.trans stored)
    refine ⟨first ++ second, ?_, settled.trans later⟩
    rw [settled.unapplied distinct split] at inside
    rw [← split]
    exact (prefix_append_right_inj first).mpr inside

/-- Attempts of which the last one succeeds settle every unapplied transaction. -/
theorem settles_of_succeeded {attempts : List ReconAttempt} {last : ReconAttempt}
    (stored : db.blocks number = some block) (distinct : (txHashes block).Nodup)
    (succeeded : (last.apply number (runAttempts number attempts db)).1 = .ok ()) :
    Settles block (unappliedTransactions block db) db
      (last.apply number (runAttempts number attempts db)).2 := by
  obtain ⟨earlier, ⟨left, split⟩, settled⟩ := runAttempts_settles stored distinct attempts
  obtain ⟨later, -, finished, all⟩ := last.settles (settled.blocks.trans stored) distinct
  rw [all succeeded, settled.unapplied distinct split] at finished
  rw [← split]
  exact settled.trans finished

/-- Nothing interrupts an attempt: the hash is the stored one and every database
call succeeds. -/
structure ReconAttempt.Uninterrupted (attempt : ReconAttempt) (block : ZKBlock) : Prop where
  expected : ∀ hash, attempt.expectHash = some hash → hash = block.blockHash
  filters : attempt.env.filterOk = true
  commits : ∀ group, attempt.env.commitOk group = true

/-- However often the reconciliation of a block is interrupted, once an attempt
succeeds every account holds what a single successful attempt writes; and a
single attempt does succeed, unless its budget exceeds what one `ExecAll` takes or a
balance does not decode. -/
theorem retried_recon_agrees {attempts : List ReconAttempt} {last : ReconAttempt}
    (stored : db.blocks number = some block) (distinct : (txHashes block).Nodup)
    (succeeded : (last.apply number (runAttempts number attempts db)).1 = .ok ())
    (single : ReconAttempt) :
    ((single.apply number db).1 = .ok () → ∀ address,
      accountFields (last.apply number (runAttempts number attempts db)).2.accounts address =
        accountFields (single.apply number db).2.accounts address) ∧
    (single.Uninterrupted block → single.budget ≤ maxExecAllEntries →
      (∀ address, (db.accounts.amount address).isSome) →
      (single.apply number db).1 = .ok ()) := by
  have settled := settles_of_succeeded stored distinct succeeded
  constructor
  · intro whole
    exact settled.agree (@settles_of_succeeded _ _ _ [] single stored distinct whole)
  · intro uninterrupted small decodable
    exact applyBlockReconWithin_succeeds stored uninterrupted.expected uninterrupted.filters
      uninterrupted.commits distinct small settled.light fun _ _ address _ => decodable address

end

/-! ## An interrupted block -/

/-- Two transfers of 10 from 1 to 2 in block 7. -/
def twoTransfers : ZKBlock :=
  { transactions := [
      { hash := 11, nonce := 0, fromAddr := some 1, toAddr := some 2, value := some 10
        gasLimit := 4, gasPrice := some 1 },
      { hash := 12, nonce := 1, fromAddr := some 1, toAddr := some 2, value := some 10
        gasLimit := 4, gasPrice := some 1 }]
    coinbaseAddr := some 3, zkvmAddr := some 4, blockNumber := 7 }

def twoTransfersStored : DB :=
  { accounts := Accounts.empty.put { address := 1, balance := "100" }
    blocks := fun number => if number = 7 then some twoTransfers else none }

/-- One transaction a group, and the second one fails. -/
def interruptedAttempt : ReconAttempt :=
  { budget := 1, env := { commitOk := fun group => group ≠ [12] } }

theorem twoTransfersStored_decodable (addr : Address) :
    (twoTransfersStored.accounts.amount addr).isSome := by
  have hundred : (setString "100").isSome = true := by decide
  simp only [twoTransfersStored, put_amount]
  split
  · exact hundred
  · rw [amount_of_absent rfl]
    rfl

/-- The retry commits the second transfer only, and the result is that of one
group of two. -/
theorem interrupted_transfers_agree :
    (interruptedAttempt.apply 7 twoTransfersStored).1 = .error .execAll ∧
    (interruptedAttempt.apply 7 twoTransfersStored).2.txApplied 11 = true ∧
    (({} : ReconAttempt).apply 7 twoTransfersStored).1 = .ok () ∧
    ∀ address, accountFields (({} : ReconAttempt).apply 7
        (runAttempts 7 [interruptedAttempt] twoTransfersStored)).2.accounts address =
      accountFields (({} : ReconAttempt).apply 7 twoTransfersStored).2.accounts address := by
  have stored : twoTransfersStored.blocks 7 = some twoTransfers := rfl
  have distinct : (txHashes twoTransfers).Nodup := by decide
  have succeeded : (({} : ReconAttempt).apply 7
      (runAttempts 7 [interruptedAttempt] twoTransfersStored)).1 = .ok () := by
    decide +kernel
  obtain ⟨agree, succeeds⟩ := retried_recon_agrees stored distinct succeeded {}
  have whole := succeeds ⟨nofun, rfl, fun _ => rfl⟩ (by decide) twoTransfersStored_decodable
  exact ⟨by decide +kernel, by decide +kernel, whole, agree whole⟩

end Jmdn.DBOPs
