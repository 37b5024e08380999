import Mathlib.Data.String.Basic
import Jmdn.BlockProcessing.Progress
import Jmdn.BlockProcessing.Retry
import Jmdn.DBOPs.ArtOrdinal
import Jmdn.Messaging.Admission
import Jmdn.Security.Validation

/-!
# Approved blocks execute

The voter's cache simulates execution: it ignores fee credits and accounts that
do not exist yet, so it never holds more than the store does, and it holds the
same nonces.  A block that the voter approves and the gate accepts is therefore
executed without an error.
-/

namespace Jmdn.Messaging

open BlockProcessing Config DBOPs Go List Security

variable {cache next : SecurityCache} {tx : Transaction}

/-- A cache that promises no more than the store can keep. -/
structure Simulates (cache : SecurityCache) (store : Accounts) : Prop where
  present : ∀ address, (cache.accounts.get address).isSome → (store.get address).isSome
  balance : ∀ address, (cache.accounts.get address).isSome →
    ∀ held, cache.accounts.amount address = some held →
      ∃ stored, store.amount address = some stored ∧ held ≤ stored
  nonce : ∀ address, (cache.accounts.get address).isSome →
    cache.accounts.txNonce address = store.txNonce address

theorem Simulates.loaded (store : Accounts) (collected : List Address) :
    Simulates (SecurityCache.loadAccounts store collected) store := by
  have copied : ∀ addr,
      ((SecurityCache.loadAccounts store collected).accounts.get addr).isSome →
      (SecurityCache.loadAccounts store collected).accounts.get addr = store.get addr := by
    intro addr cached
    simp only [SecurityCache.loadAccounts] at cached ⊢
    split at cached
    · next mem => rw [if_pos mem]
    · cases cached
  constructor
  · intro addr cached
    rwa [← copied addr cached]
  · intro addr cached held amount
    rw [Accounts.amount_congr (copied addr cached)] at amount
    exact ⟨held, amount, le_refl held⟩
  · intro addr cached
    rw [Accounts.txNonce, copied addr cached]
    rfl

/-- One transaction that was approved and executed. -/
theorem Simulates.step {voter : Voter} {env : Env} {block : ZKBlock} {before after : DB}
    (simulates : Simulates cache before.accounts) (approved : Approved voter tx cache next)
    (applies : Applies env block tx before after)
    (kept : ∀ addr, (before.accounts.get addr).isSome →
      (after.accounts.get addr).isSome) (readable : ∀ addr, (after.accounts.amount addr).isSome) :
    Simulates next after.accounts := by
  constructor
  · intro addr cached
    rw [approved.cached] at cached
    exact kept addr (simulates.present addr cached)
  · intro addr cached held amount
    rw [approved.cached] at cached
    rw [approved.amount addr cached] at amount
    obtain ⟨previous, promised, rfl⟩ := Option.map_eq_some_iff.mp amount
    obtain ⟨stored, found, covers⟩ := simulates.balance addr cached previous promised
    obtain ⟨final, written⟩ := Option.isSome_iff_exists.mp (readable addr)
    refine ⟨final, written, ?_⟩
    -- the store pays and gets the same, and the fee shares on top
    have moved := applies.adds.value_eq addr
    simp only [Ledger.value, written, found, Option.getD_some] at moved
    have shares : 0 ≤ feeEffect block tx addr := feeEffect_nonneg applies.gasFee addr
    have value : movedValue tx = tx.value.getD 0 := max_eq_left applies.value
    simp only [balanceEffect, Pi.add_apply, value] at moved
    omega
  · intro addr cached
    rw [approved.cached] at cached
    rw [approved.txNonce, applies.txNonce, simulates.nonce addr cached]

/-- What holds of each transaction of a block that is to be executed. -/
structure Sound (block : ZKBlock) (tx : Transaction) : Prop where
  recipient : tx.toAddr.isSome
  values : checkTransactionValues tx = true
  carried : ∀ address, tx.toAddr = some address →
    ∃ nonce, accountNonces block address = some nonce ∧ nonce ≠ 0

/-- An environment in which the database answers and accounts are created. -/
structure Answering (env : Env) : Prop where
  creates : env.createMissingAccounts = true
  prefilter : env.prefilterOk = true
  commits : ∀ hash, env.commitOk hash = true

section

variable {voter : Voter} {env : Env} {block : ZKBlock} {coinbase zkvm : Address}

/-- One transaction executes and keeps the simulation. -/
theorem Simulates.execute (answering : Answering env) (single : block.feeRecipients = [])
    (pays : PaysTo block coinbase zkvm) {db : DB} (simulates : Simulates cache db.accounts)
    (approved : Approved voter tx cache next) (ready : Ready db.accounts {coinbase, zkvm})
    (sound : Sound block tx) (fresh : db.txApplied tx.hash = false) :
    ∃ after, processTransaction env tx coinbase zkvm block.feeRecipients block.timestamp
        (accountNonces block) db = .ok after ∧
      Applies env block tx db after ∧ Simulates next after.accounts ∧
      Ready after.accounts {coinbase, zkvm} := by
  obtain ⟨sender, balance, senderSet, cached, held, enough, nonce⟩ := approved.funded
  obtain ⟨recipient, recipientSet⟩ := Option.isSome_iff_exists.mp sound.recipient
  obtain ⟨value, price, fee, tip, -⟩ := checkTransactionValues_iff.mp sound.values
  obtain ⟨stored, found, covers⟩ := simulates.balance sender cached balance held
  have able : Executable env block coinbase zkvm tx sender recipient db := by
    constructor
    case ready =>
      refine ⟨?_, ready.readable⟩
      rw [single, splitFee_nil]
      rintro addr (⟨credit, mem, rfl⟩ | rfl | rfl)
      · rw [mem_singleton.mp mem]
        exact ready.stored coinbase (.inl rfl)
      · exact simulates.present addr cached
      · exact ready.stored addr (.inr rfl)
    case recipient => exact .inr (sound.carried recipient recipientSet)
    case value =>
      obtain ⟨amount, known⟩ := Option.isSome_iff_exists.mp approved.value
      rw [known]
      exact value amount known
    case price => exact effectiveGasPrice_nonneg price fee tip tx.txType
    case funds => exact ⟨stored, found, enough.trans covers⟩
    case nonce =>
      rw [← simulates.nonce sender cached]
      exact nonce
    case creates => exact answering.creates
    case commits => exact answering.commits tx.hash
    case fits =>
      rw [single, splitFee_nil]
      exact (by decide : 1 + 6 ≤ maxExecAllEntries)
  obtain ⟨after, executed⟩ := executeTransaction_succeeds able
  have processed : processTransaction env tx coinbase zkvm block.feeRecipients block.timestamp
      (accountNonces block) db = .ok after := by
    simp only [processTransaction, senderSet, recipientSet, fresh, executed]
    rfl
  have applies := executeTransaction_applies senderSet recipientSet pays executed
  have kept : ∀ addr, (db.accounts.get addr).isSome → (after.accounts.get addr).isSome :=
    fun addr stored => executeTransaction_keeps executed stored
  have readable : ∀ addr, (after.accounts.amount addr).isSome := by
    intro addr
    by_cases touched : addr ∈ touchedAddresses block tx
    · rw [applies.adds.written addr touched]
      rfl
    · rw [applies.adds.kept addr touched]
      exact ready.readable addr
  exact ⟨after, processed, applies, simulates.step approved applies kept readable,
    ⟨fun addr mem => kept addr (ready.stored addr mem), readable⟩⟩

/-- Approved transactions with distinct hashes are performed one after the other. -/
theorem Simulates.performs (answering : Answering env) (single : block.feeRecipients = [])
    (pays : PaysTo block coinbase zkvm)
    {txs : List Transaction} (approved : ApprovedAll voter cache txs) :
    ∀ db : DB, Simulates cache db.accounts → Ready db.accounts {coinbase, zkvm} →
      (∀ tx ∈ txs, Sound block tx) → (txs.map Transaction.hash).Nodup →
      (∀ tx ∈ txs, db.txApplied tx.hash = false) →
      ∃ final, Performs env block coinbase zkvm db txs final := by
  induction approved with
  | nil cache =>
    intro db _ _ _ _ _
    exact ⟨db, .nil db⟩
  | @cons cache next tx rest first _ ih =>
    intro db simulates ready sound distinct unmarked
    rw [forall_mem_cons] at sound unmarked
    rw [map_cons, nodup_cons] at distinct
    obtain ⟨after, processed, applies, simulatesNext, readyNext⟩ :=
      simulates.execute answering single pays first ready sound.1 unmarked.1
    obtain ⟨final, run⟩ := ih after simulatesNext readyNext sound.2 distinct.2 (by
      intro other mem
      have different : other.hash ≠ tx.hash := fun same =>
        distinct.1 (same ▸ mem_map_of_mem mem)
      rw [applies.txApplied, unmarked.2 other mem]
      simp [different])
    exact ⟨final, .cons unmarked.1 processed run⟩

end

/-- A block with carried nonces, approved by a voter on the store and accepted by
the gate, is executed without an error.  The voter may or may not admit new
receivers, and may not be the node that executes. -/
theorem approved_block_executes {enrichEnv : EnrichEnv} {sequencer after : Sequencer}
    {proposed block : ZKBlock}
    (stamped : enrichBlockAccountNonces enrichEnv sequencer proposed = .ok (block, after))
    {voter : Voter} {db : DB} (approved : checkZKBlockValidation voter db.accounts block = .ok ())
    {node : Node} {message : BlockMessage} (accepted : Accepts node message)
    (carried : message.block = some block)
    (collisionFree : CollisionFree node.crypto block.transactions)
    (readable : ∀ address, (db.accounts.amount address).isSome)
    (unmarked : ∀ tx ∈ block.transactions, db.txApplied tx.hash = false)
    (recipients : ∀ tx ∈ block.transactions, tx.toAddr.isSome)
    {coinbase zkvm : Address} (coinbaseSet : block.coinbaseAddr = some coinbase)
    (coinbaseStored : (db.accounts.get coinbase).isSome) (zkvmSet : block.zkvmAddr = some zkvm)
    (zkvmStored : (db.accounts.get zkvm).isSome) {env : Env} (answering : Answering env)
    (order : MapOrder Address) :
    (processBlockTransactions env order block db).1 = .nil := by
  have admitted := accepted.admitted carried
  have enriched := enrichBlockAccountNonces_ok stamped
  obtain ⟨-, -, collected, -, approvedAll⟩ := checkZKBlockValidation_ok approved
  have sameTransactions : block.transactions = proposed.transactions := by
    rw [enriched.others]
  have sound : ∀ tx ∈ block.transactions, Sound block tx := by
    intro tx member
    refine ⟨recipients tx member, (admitted.checked tx member).values, ?_⟩
    intro address party
    obtain ⟨nonce, known, listed⟩ := accountNonces_of_mem
      (enriched.carries tx (sameTransactions ▸ member) address (.inr party))
    exact ⟨nonce, known, enriched.nonzero _ listed⟩
  cases fresh : db.blockProcessed.isApplied block.blockHash with
  | true => simp [processBlockTransactions, fresh]
  | false =>
    have pointers : (affectedAccounts block).isSome := by
      rw [affectedAccounts_isSome_iff, coinbaseSet, zkvmSet]
      exact ⟨fun tx member => ⟨(admitted.checked tx member).sender, recipients tx member⟩,
        rfl, rfl⟩
    obtain ⟨affected, accounted⟩ := Option.isSome_iff_exists.mp pointers
    have stored : ∀ address ∈ ({coinbase, zkvm} : Set Address),
        (db.accounts.get address).isSome := by
      rintro address (rfl | rfl)
      · exact coinbaseStored
      · exact zkvmStored
    have distinct := admitted.distinct collisionFree
    obtain ⟨final, run⟩ := Simulates.performs answering admitted.feeRecipients ⟨coinbaseSet, zkvmSet⟩
      approvedAll (bumpCarriedOrdinals env block db)
      (by simpa using Simulates.loaded db.accounts collected) (by simpa using ⟨stored, readable⟩)
      sound distinct (by simpa [DB.txApplied] using unmarked)
    refine ((processBlockTransactions_nil_iff ⟨coinbaseSet, zkvmSet⟩ accounted fresh).mpr
      ⟨answering.prefilter, final, ?_, rfl⟩).1
    rw [pendingBefore_unmarked distinct unmarked]
    exact run

/-- Two signed transfers of 10 from 1, the first to an account that does not exist. -/
def transfersToNewAccount : List Transaction :=
  [{ signedTransfer 0 with toAddr := some 9, chainID := some 8 },
    { signedTransfer 1 with chainID := some 8 }]

theorem fundedStore_readable (addr : Address) : (fundedStore.amount addr).isSome := by
  rcases fundedStore_amount addr with held | held <;> rw [held] <;> rfl

/-- A sequencer with the funded accounts. -/
def fundedSequencer : Sequencer where
  db := { accounts := fundedStore }
  counted := by decide

theorem transfers_to_new_account_execute :
    ∃ block after,
      enrichBlockAccountNonces { addressHex := fun _ => "", slice := SortSlice.insertion }
        fundedSequencer (sampleBlock transfersToNewAccount (some 3)) = .ok (block, after) ∧
      checkZKBlockValidation { expectedChainID := some 8, crypto := sampleCrypto } fundedStore
        block = .ok () ∧
      Accepts sampleNode (certified block) ∧
      (processBlockTransactions {} MapOrder.listed block { accounts := fundedStore }).1 = .nil := by
  have outcome : (enrichBlockAccountNonces
      { addressHex := fun _ => "", slice := SortSlice.insertion } fundedSequencer
      (sampleBlock transfersToNewAccount (some 3))).toOption.any (fun result =>
        decide (checkZKBlockValidation { expectedChainID := some 8, crypto := sampleCrypto }
          fundedStore result.1 = .ok ()) &&
        decide (Accepts sampleNode (certified result.1)) &&
        decide (result.1.transactions = transfersToNewAccount) &&
        decide (result.1.coinbaseAddr = some 3) && decide (result.1.zkvmAddr = some 4)) = true := by
    decide +kernel
  obtain ⟨⟨block, after⟩, stamped, holds⟩ := (Option.any_eq_true _ _).mp outcome
  simp only [Bool.and_eq_true, decide_eq_true_eq] at holds
  obtain ⟨⟨⟨⟨approved, accepted⟩, only⟩, coinbaseSet⟩, zkvmSet⟩ := holds
  have enriched := eq_ok_of_toOption stamped
  refine ⟨block, after, enriched, approved, accepted, ?_⟩
  apply approved_block_executes enriched approved accepted rfl
  case collisionFree =>
    rw [only]
    exact sampleCrypto_collisionFree (by decide +kernel)
  case readable => exact fundedStore_readable
  case unmarked =>
    intro tx _
    rfl
  case recipients =>
    rw [only]
    decide
  case coinbaseSet => exact coinbaseSet
  case coinbaseStored => decide
  case zkvmSet => exact zkvmSet
  case zkvmStored => decide
  case answering => exact ⟨rfl, rfl, fun _ => rfl⟩

end Jmdn.Messaging
