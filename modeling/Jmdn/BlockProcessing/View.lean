import Jmdn.BlockProcessing.Block

/-!
# What execution reads of a block

Block application reads some fields of a block and of its transactions, and of
the fee fields only the effective gas price.  `executed` keeps that view and drops
the rest; processing a block and processing its view are the same call.
-/

namespace Jmdn.BlockProcessing

open Config DBOPs Go

/-- The price block application charges a transaction. -/
def effectivePrice (tx : Transaction) : Int :=
  effectiveGasPrice tx.txType tx.gasPrice tx.maxFee tx.maxPriorityFee

/-- A transaction as block application sees it. -/
def executedTransaction (tx : Transaction) : Transaction :=
  { hash := tx.hash
    fromAddr := tx.fromAddr
    toAddr := tx.toAddr
    value := some (tx.value.getD 0)
    nonce := tx.nonce
    gasLimit := tx.gasLimit
    gasPrice := some (effectivePrice tx) }

/-- A block as block application sees it. -/
def executedBlock (block : ZKBlock) : ZKBlock :=
  { transactions := block.transactions.map executedTransaction
    timestamp := block.timestamp
    coinbaseAddr := block.coinbaseAddr
    zkvmAddr := block.zkvmAddr
    feeRecipients := block.feeRecipients
    blockHash := block.blockHash
    blockNumber := block.blockNumber
    accountNonces := block.accountNonces }

theorem applyTransactions_executed (env : Env) (block : ZKBlock) (coinbase zkvm : Address)
    (liveApplied : List Hash) (txs : List Transaction) (index : Nat)
    (seen successful : List Hash) (db : DB) :
    applyTransactions env (executedBlock block) coinbase zkvm liveApplied
        (txs.map executedTransaction) index seen successful db =
      applyTransactions env block coinbase zkvm liveApplied txs index seen successful db := by
  induction txs generalizing index seen successful db with
  | nil => rfl
  | cons tx rest ih =>
    simp only [List.map_cons, applyTransactions, ih]
    rfl

theorem txHashes_executedBlock (block : ZKBlock) : txHashes (executedBlock block) = txHashes block := by
  simp only [txHashes, executedBlock, List.map_map]
  rfl

theorem txParties_executed (txs : List Transaction) :
    txParties (txs.map executedTransaction) = txParties txs := by
  induction txs with
  | nil => rfl
  | cons tx rest ih =>
    simp only [List.map_cons, txParties, ih]
    rfl

theorem affectedAccounts_executedBlock (block : ZKBlock) :
    affectedAccounts (executedBlock block) = affectedAccounts block := by
  simp only [affectedAccounts, executedBlock, txParties_executed]

theorem blockLoop_executedBlock (env : Env) (block : ZKBlock) (coinbase zkvm : Address) (db : DB) :
    blockLoop env (executedBlock block) coinbase zkvm db = blockLoop env block coinbase zkvm db := by
  rw [blockLoop, txHashes_executedBlock]
  exact applyTransactions_executed ..

theorem endBlock_executedBlock (env : Env) (block : ZKBlock)
    (snapshots : List (Address × AccountSnapshot)) (result : LoopResult) :
    endBlock env (executedBlock block) snapshots result = endBlock env block snapshots result := by
  cases result with
  | failed index hash cause successful reached => simp [endBlock, executedBlock]
  | done successful final => rfl
  | nilDereference reached => rfl

/-- Processing a block and processing its view are the same. -/
theorem processBlockTransactions_executedBlock (env : Env) (order : MapOrder Address)
    (block : ZKBlock) (db : DB) :
    processBlockTransactions env order (executedBlock block) db =
      processBlockTransactions env order block db := by
  simp only [processBlockTransactions, affectedAccounts_executedBlock, blockLoop_executedBlock,
    endBlock_executedBlock]
  rfl

end Jmdn.BlockProcessing
