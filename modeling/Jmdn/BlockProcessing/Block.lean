import Jmdn.BlockProcessing.Execution
import Jmdn.Go.Map

/-!
# Processing a block

`ProcessBlockTransactions` of `messaging/BlockProcessing/Processing.go` as one
undisturbed call: the snapshot, the marker prefilter, the loop over the
transactions, and the two ways it ends.
-/

namespace Jmdn.BlockProcessing

open Config DBOPs Go List

variable {block : ZKBlock}

/-- The account fields a rollback restores. -/
structure AccountSnapshot where
  balance : String
  txNonce : UInt64 := 0
  txCountSent : UInt64 := 0
  updatedAt : Int64 := 0
  deriving DecidableEq, Repr

/-- The snapshot entry of one account; an absent one gets zero values. -/
def snapshotAccount (store : Accounts) (address : Address) : AccountSnapshot :=
  match store.get address with
  | some doc =>
    { balance := doc.balance
      txNonce := doc.txNonce
      txCountSent := doc.txCountSent
      updatedAt := doc.updatedAt }
  | none => { balance := "0" }

/-- The map of carried identity nonces; a later entry replaces an earlier one. -/
def accountNonces (block : ZKBlock) : Address → Option UInt64 :=
  block.accountNonces.foldl
    (fun known entry => Function.update known entry.address (some entry.nonce)) fun _ => none

/-- The greatest carried nonce in the ordinal range. -/
def maxCarriedOrdinal (block : ZKBlock) : UInt64 :=
  block.accountNonces.foldl
    (fun greatest entry =>
      if entry.nonce < artOrdinalMax ∧ entry.nonce > greatest then entry.nonce else greatest) 0

/-- The addresses the first loop dereferences; `none` if a pointer is nil. -/
def txParties : List Transaction → Option (List Address)
  | [] => some []
  | tx :: rest =>
    match tx.fromAddr, tx.toAddr, txParties rest with
    | some sender, some recipient, some parties => some (sender :: recipient :: parties)
    | _, _, _ => none

/-- The keys of `affectedAccounts`; `none` if a nil pointer is dereferenced. -/
def affectedAccounts (block : ZKBlock) : Option (List Address) :=
  match txParties block.transactions, block.coinbaseAddr, block.zkvmAddr with
  | some parties, some coinbase, some zkvm => some (parties ++ [coinbase, zkvm]).dedup
  | _, _, _ => none

/-- Restoring one account from its snapshot. -/
def restoredAccount (store : Accounts) (address : Address) (snap : AccountSnapshot) : Account :=
  { (store.get address).getD { address } with
    balance := snap.balance
    txNonce := snap.txNonce
    txCountSent := snap.txCountSent
    updatedAt := snap.updatedAt }

/-- `rollbackState`: a refused write ends the loop.  The flag says whether every
account was restored. -/
def rollbackState (store : Accounts) : List (Address × AccountSnapshot) → Accounts × Bool
  | [] => (store, true)
  | (address, snap) :: rest =>
    match updateAccount store (restoredAccount store address snap) with
    | none => (store, false)
    | some restored => rollbackState restored rest

/-- `RevokeTxProcessedMarkers` in chunks of 500; a failing chunk ends the call. -/
def revokeTxProcessedMarkers (failsAt : Option Nat) (markers : Markers) (hashes : List Hash) :
    Markers × Bool :=
  match failsAt with
  | none => (markers.revoke hashes, true)
  | some chunk =>
    (markers.revoke (hashes.take (500 * chunk)), decide (hashes.length ≤ 500 * chunk))

inductive BlockError where
  | prefilterFailed (blockNumber : UInt64)
  | transactionFailed (index total : Nat) (hash : Hash) (cause : TxError) (revokeFailed : Bool)
  deriving DecidableEq, Repr

inductive BlockResult where
  | nil
  | error (cause : BlockError)
  | nilDereference
  deriving DecidableEq, Repr

/-- How the loop over the transactions ends, with the hashes processed so far. -/
inductive LoopResult where
  | done (successful : List Hash) (db : DB)
  | failed (index : Nat) (hash : Hash) (cause : TxError) (successful : List Hash) (db : DB)
  | nilDereference (db : DB)

/-- The loop over the transactions, up to the handling of a failure. -/
def applyTransactions (env : Env) (block : ZKBlock) (coinbase zkvm : Address)
    (liveApplied : List Hash) :
    List Transaction → Nat → List Hash → List Hash → DB → LoopResult
  | [], _, _, successful, db => .done successful db
  | tx :: rest, index, processedTxs, successful, db =>
    if tx.hash ∈ processedTxs then
      applyTransactions env block coinbase zkvm liveApplied rest (index + 1) processedTxs
        successful db
    else if tx.hash ∈ liveApplied then
      applyTransactions env block coinbase zkvm liveApplied rest (index + 1)
        (tx.hash :: processedTxs) successful db
    else
      match processTransaction env tx coinbase zkvm block.feeRecipients block.timestamp
          (accountNonces block) db with
      | .ok next =>
        applyTransactions env block coinbase zkvm liveApplied rest (index + 1)
          (tx.hash :: processedTxs) (successful ++ [tx.hash]) next
      | .error (.error cause) => .failed index tx.hash cause successful db
      | .error .nilDereference => .nilDereference db

/-- The failure path: revoke the markers of the processed prefix, then restore
the snapshot.  Without the revocation nothing is restored. -/
def failBlock (env : Env) (snapshots : List (Address × AccountSnapshot)) (successful : List Hash)
    (db : DB) : Bool × DB :=
  match revokeTxProcessedMarkers env.revokeFailsAt db.txProcessed successful with
  | (revoked, false) => (true, { db with txProcessed := revoked })
  | (revoked, true) =>
    (false, { db with
      txProcessed := revoked
      accounts := (rollbackState db.accounts snapshots).1 })

/-- `advanceAppliedAnchor`: a failed write is only logged. -/
def advanceAppliedAnchor (env : Env) (blockNumber : UInt64) (db : DB) : DB :=
  { db with
    appliedAnchor := (advanceAppliedAnchorContiguous env.anchorOk db.appliedAnchor blockNumber).2 }

/-- The success path: the block marker, then the anchor. -/
def finishBlock (env : Env) (block : ZKBlock) (successful : List Hash) (db : DB) : DB :=
  advanceAppliedAnchor env block.blockNumber
    (if successful ≠ [] ∧ env.blockMarkerOk then
      { db with blockProcessed := db.blockProcessed.write block.blockHash env.now }
    else db)

/-- The ordinal floor a block's carried nonces raise. -/
def bumpCarriedOrdinals (env : Env) (block : ZKBlock) (db : DB) : DB :=
  if maxCarriedOrdinal block > 0 then
    bumpARTOrdinalFloor env.ordinalOk db (maxCarriedOrdinal block + 1)
  else db

/-- The whole loop of an undisturbed call, with the prefilter before it. -/
def blockLoop (env : Env) (block : ZKBlock) (coinbase zkvm : Address) (db : DB) : LoopResult :=
  applyTransactions env block coinbase zkvm
    (filterProcessedTxMarkers db.txProcessed (txHashes block)) block.transactions 0 [] [] db

/-- The entries of the snapshot map in the order a rollback visits them. -/
def originalState (order : MapOrder Address) (affected : List Address) (store : Accounts) :
    List (Address × AccountSnapshot) :=
  (order.order affected).map fun address => (address, snapshotAccount store address)

/-- How the call ends after its loop. -/
def endBlock (env : Env) (block : ZKBlock) (snapshots : List (Address × AccountSnapshot)) :
    LoopResult → BlockResult × DB
  | .done successful final => (.nil, finishBlock env block successful final)
  | .failed index hash cause successful reached =>
    let ended := failBlock env snapshots successful reached
    (.error (.transactionFailed index block.transactions.length hash cause ended.1), ended.2)
  | .nilDereference reached => (.nilDereference, reached)

/-- `ProcessBlockTransactions` with no other writer.  `order` is the iteration
order over the snapshot map. -/
def processBlockTransactions (env : Env) (order : MapOrder Address) (block : ZKBlock) (db : DB) :
    BlockResult × DB :=
  if db.blockProcessed.isApplied block.blockHash then
    (.nil, advanceAppliedAnchor env block.blockNumber db)
  else
    let db := bumpCarriedOrdinals env block db
    match affectedAccounts block, block.coinbaseAddr, block.zkvmAddr with
    | some affected, some coinbase, some zkvm =>
      if env.prefilterOk then
        endBlock env block (originalState order affected db.accounts)
          (blockLoop env block coinbase zkvm db)
      else (.error (.prefilterFailed block.blockNumber), db)
    | _, _, _ => (.nilDereference, db)

/-! ## Basic facts -/

section

variable (env : Env) (block : ZKBlock) (db : DB)

@[simp]
theorem bumped_accounts : (bumpCarriedOrdinals env block db).accounts = db.accounts := by
  unfold bumpCarriedOrdinals bumpARTOrdinalFloor
  split_ifs <;> rfl

@[simp]
theorem bumped_txProcessed :
    (bumpCarriedOrdinals env block db).txProcessed = db.txProcessed := by
  unfold bumpCarriedOrdinals bumpARTOrdinalFloor
  split_ifs <;> rfl

@[simp]
theorem bumped_blockProcessed :
    (bumpCarriedOrdinals env block db).blockProcessed = db.blockProcessed := by
  unfold bumpCarriedOrdinals bumpARTOrdinalFloor
  split_ifs <;> rfl

@[simp]
theorem bumped_blocks :
    (bumpCarriedOrdinals env block db).blocks = db.blocks := by
  unfold bumpCarriedOrdinals bumpARTOrdinalFloor
  split_ifs <;> rfl

@[simp]
theorem bumped_appliedAnchor :
    (bumpCarriedOrdinals env block db).appliedAnchor = db.appliedAnchor := by
  unfold bumpCarriedOrdinals bumpARTOrdinalFloor
  split_ifs <;> rfl

end

/-- A listed address has one of its listed nonces. -/
theorem accountNonces_of_mem {address : Address}
    (listed : address ∈ block.accountNonces.map AccountNonce.address) :
    ∃ nonce, accountNonces block address = some nonce ∧
      { address, nonce } ∈ block.accountNonces := by
  unfold accountNonces
  revert listed
  -- the last entry of an address counts
  induction block.accountNonces using List.reverseRecOn with
  | nil => exact nofun
  | append_singleton entries last ih =>
    intro listed
    rw [foldl_append, foldl_cons, foldl_nil]
    by_cases same : address = last.address
    · subst same
      exact ⟨last.nonce, Function.update_self .., by simp⟩
    · obtain ⟨nonce, found, mem⟩ := ih (by simpa [same] using listed)
      exact ⟨nonce, (Function.update_of_ne same ..).trans found, mem_append_left _ mem⟩

theorem txParties_isSome_iff (txs : List Transaction) :
    (txParties txs).isSome ↔ ∀ tx ∈ txs, tx.fromAddr.isSome ∧ tx.toAddr.isSome := by
  induction txs with
  | nil => simp [txParties]
  | cons tx rest ih =>
    rw [forall_mem_cons, ← ih]
    cases sender : tx.fromAddr <;> cases recipient : tx.toAddr <;>
      cases others : txParties rest <;> simp [txParties, sender, recipient, others]

theorem mem_txParties {txs : List Transaction} {parties : List Address}
    (collected : txParties txs = some parties) (addr : Address) :
    addr ∈ parties ↔ ∃ tx ∈ txs, tx.fromAddr = some addr ∨ tx.toAddr = some addr := by
  induction txs generalizing parties with
  | nil =>
    cases collected
    simp
  | cons tx rest ih =>
    unfold txParties at collected
    split at collected
    · next sender recipient others from_ to_ found =>
      cases collected
      simp only [mem_cons, ih found, exists_eq_or_imp, from_, to_, Option.some.injEq,
        eq_comm (a := addr), or_assoc]
    · cases collected

theorem affectedAccounts_isSome_iff (block : ZKBlock) :
    (affectedAccounts block).isSome ↔
      (∀ tx ∈ block.transactions, tx.fromAddr.isSome ∧ tx.toAddr.isSome) ∧
        block.coinbaseAddr.isSome ∧ block.zkvmAddr.isSome := by
  rw [← txParties_isSome_iff]
  cases parties : txParties block.transactions <;> cases coinbase : block.coinbaseAddr <;>
    cases zkvm : block.zkvmAddr <;> simp [affectedAccounts, parties, coinbase, zkvm]

/-- The snapshotted addresses are the parties of the transactions, the coinbase
and the zkvm. -/
theorem mem_affectedAccounts {affected : List Address}
    (collected : affectedAccounts block = some affected) (addr : Address) :
    addr ∈ affected ↔
      (∃ tx ∈ block.transactions, tx.fromAddr = some addr ∨ tx.toAddr = some addr) ∨
        block.coinbaseAddr = some addr ∨ block.zkvmAddr = some addr := by
  unfold affectedAccounts at collected
  split at collected
  · next parties coinbase zkvm found coinbaseSet zkvmSet =>
    cases collected
    simp only [mem_dedup, mem_append, mem_txParties found, mem_cons,
      not_mem_nil, or_false, coinbaseSet, zkvmSet, Option.some.injEq,
      eq_comm (a := addr)]
  · cases collected

end Jmdn.BlockProcessing
