import Jmdn.BlockProcessing.Block
import Jmdn.BlockProcessing.Effects

/-!
# What the loop over a block's transactions does

The loop executes the pending transactions in block order: those not marked
applied when the call began, each hash once.  It stops at the first that fails,
which leaves the effects of the ones before it.
-/

namespace Jmdn.BlockProcessing

open Config DBOPs Go Ledger List

variable {coinbase zkvm : Address} {block : ZKBlock} {tx : Transaction} {env : Env}
  {db before after : DB} {liveApplied seen : List Hash} {txs : List Transaction}

/-- The transactions the loop does not skip, for a given set of hashes seen and
of hashes applied before the call. -/
def pendingTransactions (liveApplied : List Hash) : List Transaction → List Hash → List Transaction
  | [], _ => []
  | tx :: rest, seen =>
    if tx.hash ∈ seen then pendingTransactions liveApplied rest seen
    else if tx.hash ∈ liveApplied then
      pendingTransactions liveApplied rest (tx.hash :: seen)
    else tx :: pendingTransactions liveApplied rest (tx.hash :: seen)

theorem pendingTransactions_sublist (liveApplied : List Hash) (txs : List Transaction)
    (seen : List Hash) : (pendingTransactions liveApplied txs seen).Sublist txs := by
  induction txs generalizing seen with
  | nil => exact List.Sublist.refl []
  | cons tx rest ih =>
    unfold pendingTransactions
    split
    · exact (ih seen).cons tx
    · split
      · exact (ih _).cons tx
      · exact (ih _).cons_cons tx

/-- Transactions of a block were executed one after another. -/
inductive Executes (env : Env) (block : ZKBlock) : DB → List Transaction → DB → Prop
  | nil (db : DB) : Executes env block db [] db
  | cons {before middle after : DB} {tx : Transaction} {rest : List Transaction} :
      before.txApplied tx.hash = false → Applies env block tx before middle →
      Executes env block middle rest after → Executes env block before (tx :: rest) after

/-- The addresses a list of transactions rewrites. -/
def touchedByAll (block : ZKBlock) (txs : List Transaction) : Set Address :=
  {address | ∃ tx ∈ txs, address ∈ touchedAddresses block tx}

theorem Applies.txApplied (applies : Applies env block tx before after) (hash : Hash) :
    after.txApplied hash = (decide (hash = tx.hash) || before.txApplied hash) := by
  rw [DB.txApplied, applies.marked, Markers.isApplied_write]
  by_cases same : hash = tx.hash <;> simp [same, DB.txApplied]

namespace Executes

variable {env : Env} {block : ZKBlock} {before after : DB} {txs : List Transaction}

section

variable (run : Executes env block before txs after)
include run

theorem adds :
    Adds before.accounts.amount after.accounts.amount (totalEffect block txs)
      (touchedByAll block txs) := by
  induction run with
  | nil db => simpa [totalEffect, touchedByAll] using Adds.refl db.accounts.amount
  | @cons before middle after tx rest _ applies _ ih =>
    apply (applies.adds.trans ih).congr
    · simp [totalEffect]
    · ext addr
      simp [touchedByAll]

theorem readable :
    ∀ addr ∈ touchedByAll block txs, (before.accounts.amount addr).isSome := by
  induction run with
  | nil db => simp [touchedByAll]
  | @cons before middle after tx rest _ applies _ ih =>
    rintro addr ⟨other, mem, touched⟩
    by_cases first : addr ∈ touchedAddresses block tx
    · exact applies.readable addr first
    rcases mem_cons.mp mem with rfl | later
    · exact applies.readable addr touched
    · rw [← applies.adds.kept addr first]
      exact ih addr ⟨other, later, touched⟩

theorem txNonce_of_not_sender {addr : Address} (other : ∀ tx ∈ txs, tx.fromAddr ≠ some addr) :
    after.accounts.txNonce addr = before.accounts.txNonce addr := by
  induction run with
  | nil db => rfl
  | @cons before middle after tx rest _ applies _ ih =>
    rw [ih fun tx mem => other tx (mem_cons_of_mem _ mem), applies.txNonce,
      if_neg (other tx mem_cons_self)]

theorem txCountSent (addr : Address) :
    after.accounts.txCountSent addr = before.accounts.txCountSent addr +
      UInt64.ofNat (txs.countP fun tx => tx.fromAddr = some addr) := by
  induction run with
  | nil db => simp
  | @cons before middle after tx rest _ applies _ ih =>
    rw [ih, applies.txCountSent, countP_cons]
    by_cases sender : tx.fromAddr = some addr
    · simp only [sender, if_true, decide_true, UInt64.ofNat_add]
      rw [UInt64.add_assoc, UInt64.add_comm 1]
      rfl
    · simp [sender]

theorem txApplied (hash : Hash) :
    after.txApplied hash = (decide (hash ∈ txs.map Transaction.hash) || before.txApplied hash) := by
  induction run with
  | nil db => simp
  | @cons before middle after tx rest _ applies _ ih =>
    rw [ih, applies.txApplied]
    by_cases first : hash = tx.hash <;> simp [first]

theorem others :
    after = { before with accounts := after.accounts, txProcessed := after.txProcessed } := by
  induction run with
  | nil db => rfl
  | @cons before middle after tx rest _ applies _ ih =>
    rw [ih, applies.others]

theorem applies_of_mem (mem : tx ∈ txs) : ∃ one two, Applies env block tx one two := by
  induction run with
  | nil db => cases mem
  | cons _ applies _ ih =>
    rcases mem_cons.mp mem with rfl | later
    · exact ⟨_, _, applies⟩
    · exact ih later

end

end Executes

/-- Unmarked transactions of a block were processed one after another. -/
inductive Performs (env : Env) (block : ZKBlock) (coinbase zkvm : Address) :
    DB → List Transaction → DB → Prop
  | nil (db : DB) : Performs env block coinbase zkvm db [] db
  | cons {before middle after : DB} {tx : Transaction} {rest : List Transaction} :
      before.txApplied tx.hash = false →
      processTransaction env tx coinbase zkvm block.feeRecipients block.timestamp
        (accountNonces block) before = .ok middle →
      Performs env block coinbase zkvm middle rest after →
      Performs env block coinbase zkvm before (tx :: rest) after

theorem Performs.executes (pays : PaysTo block coinbase zkvm)
    (run : Performs env block coinbase zkvm before txs after) :
    Executes env block before txs after := by
  induction run with
  | nil db => exact Executes.nil db
  | cons fresh done _ ih =>
    rcases processTransaction_ok pays done with ⟨marked, _⟩ | ⟨_, applies⟩
    · rw [fresh] at marked
      cases marked
    · exact Executes.cons fresh applies ih

/-- The pending transactions that execute before the first one that fails. -/
def executedPrefix (env : Env) (block : ZKBlock) (coinbase zkvm : Address) :
    List Transaction → DB → List Transaction
  | [], _ => []
  | tx :: rest, db =>
    match processTransaction env tx coinbase zkvm block.feeRecipients block.timestamp
        (accountNonces block) db with
    | .ok next => tx :: executedPrefix env block coinbase zkvm rest next
    | .error _ => []

/-- What the loop has done when it ends: it processed all pending transactions, or
those ahead of the one that failed at the position it returns. -/
def LoopResult.Explained (env : Env) (block : ZKBlock) (coinbase zkvm : Address)
    (liveApplied : List Hash) (txs : List Transaction) (index : Nat) (seen processed : List Hash)
    (db : DB) : LoopResult → Prop
  | .done _ final =>
    Performs env block coinbase zkvm db (pendingTransactions liveApplied txs seen) final
  | .failed position _ _ successful reached =>
    let executed := executedPrefix env block coinbase zkvm
      (pendingTransactions liveApplied txs seen) db
    Performs env block coinbase zkvm db executed reached ∧
      successful = processed ++ executed.map Transaction.hash ∧
      ∃ count, position = index + count ∧
        executed = pendingTransactions liveApplied (txs.take count) seen
  | .nilDereference _ => ∃ tx ∈ pendingTransactions liveApplied txs seen,
      tx.fromAddr = none ∨ tx.toAddr = none

/-- The loop goes on after a transaction, having processed it or not. -/
theorem LoopResult.Explained.cons {rest : List Transaction} {index : Nat} {processed : List Hash}
    {result : LoopResult} (seen' : List Hash) (added : List Transaction) (middle : DB)
    (splits : ∀ others, pendingTransactions liveApplied (tx :: others) seen =
      added ++ pendingTransactions liveApplied others seen')
    (extend : ∀ {txs final}, Performs env block coinbase zkvm middle txs final →
      Performs env block coinbase zkvm db (added ++ txs) final)
    (executed : ∀ txs, executedPrefix env block coinbase zkvm (added ++ txs) db =
      added ++ executedPrefix env block coinbase zkvm txs middle)
    (later : result.Explained env block coinbase zkvm liveApplied rest (index + 1) seen'
      (processed ++ added.map Transaction.hash) middle) :
    result.Explained env block coinbase zkvm liveApplied (tx :: rest) index seen processed db := by
  cases result with
  | done successful final =>
    rw [LoopResult.Explained, splits]
    exact extend later
  | failed position hash cause successful reached =>
    obtain ⟨performed, listed, count, reachedAt, cut⟩ := later
    rw [LoopResult.Explained, splits, executed]
    refine ⟨extend performed, by simp [listed], count + 1, by omega, ?_⟩
    rw [take_succ_cons, splits, cut]
  | nilDereference reached =>
    obtain ⟨culprit, mem, missing⟩ := later
    exact ⟨culprit, splits rest ▸ mem_append_right added mem, missing⟩

theorem processTransaction_nilDereference {feeRecipients : List FeeRecipient}
    {blockTimestamp : Int64} {carried : Address → Option UInt64}
    (panicked : processTransaction env tx coinbase zkvm feeRecipients blockTimestamp carried db =
      .error .nilDereference) :
    tx.fromAddr = none ∨ tx.toAddr = none := by
  unfold processTransaction at panicked
  split at panicked
  · split at panicked
    · cases panicked
    · next sender recipient _ _ _ =>
      cases executed : executeTransaction env tx sender recipient coinbase zkvm feeRecipients
          blockTimestamp carried db with
      | error cause =>
        rw [executed] at panicked
        cases panicked
      | ok result =>
        rw [executed] at panicked
        cases panicked
  · next missing =>
    cases sender : tx.fromAddr with
    | none => exact .inl rfl
    | some from_ =>
      cases recipient : tx.toAddr with
      | none => exact .inr rfl
      | some to_ => exact absurd recipient (missing from_ to_ sender)

/-- The loop processes the pending transactions in order.  The invariant is that a
hash neither seen nor applied before the call is not marked. -/
theorem applyTransactions_explained (pays : PaysTo block coinbase zkvm) :
    ∀ (txs : List Transaction) (index : Nat) (seen processed : List Hash) (db : DB),
      (∀ tx ∈ txs, tx.hash ∉ seen → tx.hash ∉ liveApplied → db.txApplied tx.hash = false) →
      (applyTransactions env block coinbase zkvm liveApplied txs index seen processed db).Explained
        env block coinbase zkvm liveApplied txs index seen processed db := by
  intro txs
  induction txs with
  | nil =>
    intro index seen processed db _
    exact Performs.nil db
  | cons tx rest ih =>
    intro index seen processed db unmarked
    rw [forall_mem_cons] at unmarked
    unfold applyTransactions
    split
    · next known =>
      apply LoopResult.Explained.cons seen [] db
      · simp [pendingTransactions, known]
      · exact fun run => run
      · simp
      · rw [map_nil, append_nil]
        exact ih _ _ _ _ unmarked.2
    next unseen =>
    split
    · next live =>
      apply LoopResult.Explained.cons (tx.hash :: seen) [] db
      · simp [pendingTransactions, unseen, live]
      · exact fun run => run
      · simp
      · rw [map_nil, append_nil]
        apply ih
        intro other mem notSeen
        exact unmarked.2 other mem fun found => notSeen (mem_cons_of_mem _ found)
    next notLive =>
    have fresh := unmarked.1 unseen notLive
    cases outcome : processTransaction env tx coinbase zkvm block.feeRecipients
        block.timestamp (accountNonces block) db with
    | ok next =>
      apply LoopResult.Explained.cons (tx.hash :: seen) [tx] next
      · simp [pendingTransactions, unseen, notLive]
      · exact fun run => Performs.cons fresh outcome run
      · simp [executedPrefix, outcome]
      · apply ih
        intro other mem notSeen absent
        rw [mem_cons, not_or] at notSeen
        have applies : Applies env block tx db next :=
          (processTransaction_ok pays outcome).elim
            (fun marked => absurd marked.1 (by simp [fresh])) And.right
        rw [applies.txApplied, unmarked.2 other mem notSeen.2 absent]
        simp [notSeen.1]
    | error fault =>
      cases fault with
      | nilDereference =>
        refine ⟨tx, ?_, processTransaction_nilDereference outcome⟩
        simp [pendingTransactions, unseen, notLive]
      | error cause =>
        have stops : executedPrefix env block coinbase zkvm
            (pendingTransactions liveApplied (tx :: rest) seen) db = [] := by
          simp [pendingTransactions, unseen, notLive, executedPrefix, outcome]
        rw [LoopResult.Explained, stops]
        exact ⟨Performs.nil db, by simp, 0, rfl, rfl⟩

/-- The loop of an undisturbed call, from its prefilter on. -/
theorem blockLoop_explained (env : Env) (pays : PaysTo block coinbase zkvm) (db : DB) :
    (blockLoop env block coinbase zkvm db).Explained env block coinbase zkvm
      (filterProcessedTxMarkers db.txProcessed (txHashes block)) block.transactions 0 [] [] db := by
  apply applyTransactions_explained pays
  intro tx mem _ notLive
  rw [mem_filterProcessedTxMarkers, not_and] at notLive
  simpa [DB.txApplied] using notLive (mem_map_of_mem mem)

/-- The transactions of a block ahead of a position that are not skipped. -/
def pendingBefore (block : ZKBlock) (db : DB) (position : Nat) : List Transaction :=
  pendingTransactions (filterProcessedTxMarkers db.txProcessed (txHashes block))
    (block.transactions.take position) []

theorem pendingBefore_length (block : ZKBlock) (db : DB) :
    pendingBefore block db block.transactions.length =
      pendingTransactions (filterProcessedTxMarkers db.txProcessed (txHashes block))
        block.transactions [] := by
  rw [pendingBefore, take_length]

theorem pendingTransactions_eq_self (distinct : (txs.map Transaction.hash).Nodup)
    (unseen : ∀ tx ∈ txs, tx.hash ∉ seen) : pendingTransactions [] txs seen = txs := by
  induction txs generalizing seen with
  | nil => rfl
  | cons tx rest ih =>
    rw [map_cons, nodup_cons] at distinct
    rw [pendingTransactions, if_neg (unseen tx mem_cons_self), if_neg (by simp)]
    congr 1
    apply ih distinct.2
    intro other mem found
    rcases mem_cons.mp found with same | earlier
    · exact distinct.1 (same ▸ mem_map_of_mem mem)
    · exact unseen other (mem_cons_of_mem _ mem) earlier

theorem pendingBefore_unmarked (distinct : (txHashes block).Nodup)
    (unmarked : ∀ tx ∈ block.transactions, db.txApplied tx.hash = false) :
    pendingBefore block db block.transactions.length = block.transactions := by
  rw [pendingBefore_length, txHashes,
    filterProcessedTxMarkers_eq_nil (forall_mem_map.mpr unmarked)]
  exact pendingTransactions_eq_self distinct (by simp)

theorem mem_of_mem_pendingBefore {position : Nat} (pending : tx ∈ pendingBefore block db position) :
    tx ∈ block.transactions :=
  mem_of_mem_take ((pendingTransactions_sublist _ _ _).subset pending)

theorem processBlockTransactions_fresh (env : Env) (order : MapOrder Address)
    {affected : List Address} (pays : PaysTo block coinbase zkvm)
    (collected : affectedAccounts block = some affected)
    (fresh : db.blockProcessed.isApplied block.blockHash = false) :
    processBlockTransactions env order block db =
      if env.prefilterOk then
        endBlock env block (originalState order affected db.accounts)
          (blockLoop env block coinbase zkvm (bumpCarriedOrdinals env block db))
      else (.error (.prefilterFailed block.blockNumber), bumpCarriedOrdinals env block db) := by
  simp only [processBlockTransactions, fresh, collected, pays.coinbase, pays.zkvm,
    bumped_accounts, Bool.false_eq_true, if_false]

/-- What a call came to: it found the block processed, met a nil pointer while
collecting addresses, could not read the markers, ran its loop to the end, or
failed at a transaction. -/
theorem processBlockTransactions_cases (env : Env) (block : ZKBlock) (db : DB) :
    (db.blockProcessed.isApplied block.blockHash = true ∧ ∀ order,
      processBlockTransactions env order block db =
        (.nil, advanceAppliedAnchor env block.blockNumber db)) ∨
    (db.blockProcessed.isApplied block.blockHash = false ∧ affectedAccounts block = none ∧
      ∀ order, processBlockTransactions env order block db =
        (.nilDereference, bumpCarriedOrdinals env block db)) ∨
    (db.blockProcessed.isApplied block.blockHash = false ∧ (affectedAccounts block).isSome ∧
      ∀ order, processBlockTransactions env order block db =
        (.error (.prefilterFailed block.blockNumber), bumpCarriedOrdinals env block db)) ∨
    db.blockProcessed.isApplied block.blockHash = false ∧ ∃ affected coinbase zkvm,
      affectedAccounts block = some affected ∧ PaysTo block coinbase zkvm ∧
      ((∃ successful final, Performs env block coinbase zkvm (bumpCarriedOrdinals env block db)
          (pendingBefore block db block.transactions.length) final ∧
        ∀ order, processBlockTransactions env order block db =
          (.nil, finishBlock env block successful final)) ∨
      ∃ position hash cause reached,
        Performs env block coinbase zkvm (bumpCarriedOrdinals env block db)
          (pendingBefore block db position) reached ∧
        executedPrefix env block coinbase zkvm (pendingBefore block db block.transactions.length)
          (bumpCarriedOrdinals env block db) = pendingBefore block db position ∧
        ∀ order, processBlockTransactions env order block db =
          endBlock env block (originalState order affected db.accounts)
            (.failed position hash cause ((pendingBefore block db position).map Transaction.hash)
              reached)) := by
  cases done : db.blockProcessed.isApplied block.blockHash with
  | true => exact .inl ⟨rfl, fun order => by simp [processBlockTransactions, done]⟩
  | false =>
    refine .inr ?_
    cases collected : affectedAccounts block with
    | none =>
      exact .inl ⟨rfl, rfl, fun order => by simp [processBlockTransactions, done, collected]⟩
    | some affected =>
      refine .inr ?_
      have pointers := (affectedAccounts_isSome_iff block).mp (by simp [collected])
      obtain ⟨coinbase, coinbaseSet⟩ := Option.isSome_iff_exists.mp pointers.2.1
      obtain ⟨zkvm, zkvmSet⟩ := Option.isSome_iff_exists.mp pointers.2.2
      have pays : PaysTo block coinbase zkvm := ⟨coinbaseSet, zkvmSet⟩
      have called := fun order => processBlockTransactions_fresh env order pays collected done
      cases prefilter : env.prefilterOk with
      | false => exact .inl ⟨rfl, rfl, fun order => by rw [called, prefilter]; rfl⟩
      | true =>
        refine .inr ⟨rfl, affected, coinbase, zkvm, rfl, pays, ?_⟩
        have explained := blockLoop_explained env pays (bumpCarriedOrdinals env block db)
        rw [bumped_txProcessed] at explained
        simp only [prefilter, if_true] at called
        rw [pendingBefore_length]
        cases ended : blockLoop env block coinbase zkvm (bumpCarriedOrdinals env block db) with
        | done successful final =>
          rw [ended] at explained called
          exact .inl ⟨successful, final, explained, called⟩
        | failed position hash cause successful reached =>
          rw [ended] at explained called
          obtain ⟨run, rfl, count, rfl, cut⟩ := explained
          rw [cut, Nat.zero_add] at called
          rw [cut] at run ⊢
          exact .inr ⟨count, hash, cause, reached, run, rfl, called⟩
        | nilDereference reached =>
          rw [ended] at explained
          obtain ⟨tx, pending, missing⟩ := explained
          have parties := pointers.1 tx ((pendingTransactions_sublist _ _ _).subset pending)
          rcases missing with missing | missing <;> simp [missing] at parties

end Jmdn.BlockProcessing
