import Jmdn.BlockProcessing.Run

/-!
# What a call leaves behind

The markers, the stored blocks and the applied anchor after an undisturbed call
of `ProcessBlockTransactions`, however it ends.
-/

namespace Jmdn.BlockProcessing

open Config DBOPs Go List

variable {block : ZKBlock} {db : DB} {env : Env} {hash : Hash} {txs : List Transaction}
  {successful : List Hash} {position : Nat}

theorem mem_pendingTransactions {liveApplied : List Hash} {seen : List Hash} :
    hash ∈ (pendingTransactions liveApplied txs seen).map Transaction.hash ↔
      hash ∈ txs.map Transaction.hash ∧ hash ∉ seen ∧ hash ∉ liveApplied := by
  induction txs generalizing seen with
  | nil => simp [pendingTransactions]
  | cons tx rest ih =>
    unfold pendingTransactions
    split_ifs with known live
    · rw [ih]
      by_cases same : hash = tx.hash <;> simp [same, known]
    · rw [ih]
      by_cases same : hash = tx.hash <;> simp [same, live]
    · rw [map_cons, mem_cons, ih]
      by_cases same : hash = tx.hash <;> simp [same, known, live]

theorem unmarked_of_mem_pendingBefore {tx : Transaction}
    (pending : tx ∈ pendingBefore block db position) : db.txApplied tx.hash = false := by
  obtain ⟨-, -, absent⟩ := mem_pendingTransactions.mp (mem_map_of_mem pending)
  rw [mem_filterProcessedTxMarkers, not_and, Bool.not_eq_true] at absent
  exact absent (mem_map_of_mem (mem_of_mem_pendingBefore pending))

/-- What an undisturbed call does beside the accounts: the markers there are stay,
a call that returns nil leaves its block marked, and only such a call moves the
anchor. -/
structure Processes (env : Env) (block : ZKBlock) (before : DB) (result : BlockResult)
    (after : DB) : Prop where
  blocks : after.blocks = before.blocks
  kept : ∀ hash, before.txApplied hash = true → after.txApplied hash = true
  marked : result = .nil → before.blockProcessed.isApplied block.blockHash = true ∨
    ∀ hash ∈ txHashes block, after.txApplied hash = true
  blockMarked : ∀ hash, after.blockProcessed.isApplied hash = true →
    before.blockProcessed.isApplied hash = true ∨ result = .nil ∧ hash = block.blockHash
  anchor : after.appliedAnchor = before.appliedAnchor ∨ result = .nil ∧ after.appliedAnchor =
    (advanceAppliedAnchorContiguous env.anchorOk before.appliedAnchor block.blockNumber).2

/-- A rollback takes back no marker beyond those of the call. -/
theorem txApplied_failBlock {snapshots : List (Address × AccountSnapshot)}
    (outside : hash ∉ successful) :
    (failBlock env snapshots successful db).2.txApplied hash = db.txApplied hash := by
  have revoked : (revokeTxProcessedMarkers env.revokeFailsAt db.txProcessed successful).1.isApplied
      hash = db.txApplied hash := by
    unfold revokeTxProcessedMarkers
    split
    · simp [Markers.isApplied_revoke, outside, DB.txApplied]
    next chunk _ =>
    have cut : hash ∉ successful.take (500 * chunk) := fun mem =>
      outside (mem_of_mem_take mem)
    simp [Markers.isApplied_revoke, cut, DB.txApplied]
  unfold failBlock
  split <;> next same => rw [same] at revoked; exact revoked

theorem failBlock_others (env : Env) (snapshots : List (Address × AccountSnapshot))
    (successful : List Hash) (db : DB) :
    (failBlock env snapshots successful db).2 = { db with
      accounts := (failBlock env snapshots successful db).2.accounts
      txProcessed := (failBlock env snapshots successful db).2.txProcessed } := by
  unfold failBlock
  split <;> rfl

theorem isApplied_finishBlock
    (applied : (finishBlock env block successful db).blockProcessed.isApplied hash =
      true) : db.blockProcessed.isApplied hash = true ∨ hash = block.blockHash := by
  unfold finishBlock advanceAppliedAnchor at applied
  split at applied
  · by_cases same : hash = block.blockHash
    · exact .inr same
    · rw [Markers.isApplied_write, if_neg same] at applied
      exact .inl applied
  · exact .inl applied

theorem finishBlock_others (env : Env) (block : ZKBlock) (successful : List Hash) (db : DB) :
    finishBlock env block successful db = { db with
      blockProcessed := (finishBlock env block successful db).blockProcessed
      appliedAnchor :=
        (advanceAppliedAnchorContiguous env.anchorOk db.appliedAnchor block.blockNumber).2 } := by
  unfold finishBlock advanceAppliedAnchor
  split <;> rfl

@[simp]
theorem finishBlock_accounts (env : Env) (block : ZKBlock) (successful : List Hash) (db : DB) :
    (finishBlock env block successful db).accounts = db.accounts := by
  rw [finishBlock_others]

/-- The markers after a run of the loop, in terms of the state before the call. -/
theorem Executes.txApplied_bumped {after : DB}
    (executes : Executes env block (bumpCarriedOrdinals env block db) txs after) (hash : Hash) :
    after.txApplied hash = (decide (hash ∈ txs.map Transaction.hash) || db.txApplied hash) := by
  rw [executes.txApplied, DB.txApplied, bumped_txProcessed, ← DB.txApplied]

theorem processes_finishBlock {final : DB}
    (executes : Executes env block (bumpCarriedOrdinals env block db)
      (pendingBefore block db block.transactions.length) final) (successful : List Hash) :
    Processes env block db .nil (finishBlock env block successful final) := by
  have others := executes.others
  have applied : ∀ hash, (finishBlock env block successful final).txApplied hash =
      final.txApplied hash := fun hash => by rw [finishBlock_others, DB.txApplied, DB.txApplied]
  refine ⟨?_, ?_, fun _ => .inr ?_, ?_, .inr ⟨rfl, ?_⟩⟩
  · rw [finishBlock_others, others, bumped_blocks]
  · intro hash before
    rw [applied, executes.txApplied_bumped, before, Bool.or_true]
  · intro hash listed
    rw [applied, executes.txApplied_bumped, Bool.or_eq_true, decide_eq_true_iff,
      pendingBefore_length, mem_pendingTransactions]
    by_cases live : hash ∈ filterProcessedTxMarkers db.txProcessed (txHashes block)
    · exact .inr (mem_filterProcessedTxMarkers.mp live).2
    · exact .inl ⟨listed, not_mem_nil, live⟩
  · intro hash marked
    rcases isApplied_finishBlock marked with before | same
    · rw [others, bumped_blockProcessed] at before
      exact .inl before
    · exact .inr ⟨rfl, same⟩
  · rw [finishBlock_others, others, bumped_appliedAnchor]

/-- A loop that stopped: what it revokes was not applied before the call. -/
theorem processes_failBlock {reached : DB}
    (executes : Executes env block (bumpCarriedOrdinals env block db)
      (pendingBefore block db position) reached) (snapshots : List (Address × AccountSnapshot))
    {result : BlockResult} (failed : result ≠ .nil) :
    Processes env block db result
      (failBlock env snapshots ((pendingBefore block db position).map Transaction.hash) reached).2 := by
  have others := executes.others
  refine ⟨by rw [failBlock_others, others, bumped_blocks], ?_,
    fun done => absurd done failed, fun marked found => .inl ?_,
    .inl (by rw [failBlock_others, others, bumped_appliedAnchor])⟩
  · intro marked before
    have outside : marked ∉ (pendingBefore block db position).map Transaction.hash := by
      intro mem
      obtain ⟨tx, pending, rfl⟩ := mem_map.mp mem
      rw [unmarked_of_mem_pendingBefore pending] at before
      cases before
    rw [txApplied_failBlock outside, executes.txApplied_bumped, before, Bool.or_true]
  · rw [failBlock_others, others, bumped_blockProcessed] at found
    exact found

theorem processes (env : Env) (order : MapOrder Address) (block : ZKBlock) (db : DB) :
    Processes env block db (processBlockTransactions env order block db).1
      (processBlockTransactions env order block db).2 := by
  have bumped : ∀ result : BlockResult, result ≠ .nil →
      Processes env block db result (bumpCarriedOrdinals env block db) := by
    intro result failed
    exact ⟨by simp, by simp [DB.txApplied], fun done => absurd done failed,
      fun hash marked => .inl (by simpa using marked), .inl (by simp)⟩
  rcases processBlockTransactions_cases env block db with ⟨done, same⟩ | ⟨-, -, same⟩ |
    ⟨-, -, same⟩ | ⟨-, affected, coinbase, zkvm, -, pays,
      ⟨successful, final, run, same⟩ | ⟨position, hash, cause, reached, run, -, same⟩⟩
  · rw [same]
    exact ⟨rfl, fun hash before => before, fun _ => .inl done, fun hash marked => .inl marked,
      .inr ⟨rfl, rfl⟩⟩
  · rw [same]
    exact bumped _ (by simp)
  · rw [same]
    exact bumped _ (by simp)
  · rw [same]
    exact processes_finishBlock (run.executes pays) successful
  · rw [same]
    refine processes_failBlock (run.executes pays) _ ?_
    rintro ⟨⟩

end Jmdn.BlockProcessing
