import Jmdn.BlockProcessing.Stage
import Jmdn.Config.GasFee
import Jmdn.DBOPs.State

/-!
# Executing one transaction

`processTransaction` of `messaging/BlockProcessing/Processing.go`: the marker
check, the staged deduction and credits, and the atomic commit together with the
`tx_processed` marker.  Account reads succeed or answer "not found".  The commit
of each transaction may fail.
-/

namespace Jmdn.BlockProcessing

open Config DBOPs Go

/-- What block application takes from its surroundings: a package switch, the
clock, the checksummed address text and the outcome of each database call that
can fail.  `revokeFailsAt` is the number of the revocation chunk that fails. -/
structure Env where
  createMissingAccounts : Bool := true
  now : Nat := 0
  addressHex : Address → String := fun _ => ""
  prefilterOk : Bool := true
  commitOk : Hash → Bool := fun _ => true
  revokeFailsAt : Option Nat := none
  blockMarkerOk : Bool := true
  anchorOk : Bool := true
  ordinalOk : Bool := true

inductive DeductError where
  | senderMissing (sender : Address)
  | invalidBalance (sender : Address) (balance : String)
  | staleNonce (submitted current : UInt64)
  | invalidAmount (amount : String)
  | negativeAmount (sender : Address) (amount : Int)
  | insufficientBalance (sender : Address) (has needs : Int)
  deriving DecidableEq, Repr

inductive CreditError where
  | recipientMissing (recipient : Address)
  | invalidBalance (recipient : Address) (balance : String)
  | invalidAmount (amount : String)
  | negativeAmount (recipient : Address) (amount : Int)
  deriving DecidableEq, Repr

inductive TxError where
  | negativeValue (value : Int)
  | negativeGasFee (price : Int)
  | senderMissing (sender : Address)
  | recipientMissing (recipient : Address)
  | insufficientFunds (cause : DeductError)
  | accountNotFound (cause : DeductError)
  | accountDataCorrupted (cause : DeductError)
  | transactionFailed (cause : DeductError)
  | addToRecipient (cause : CreditError)
  | addToCoinbase (recipient : Address) (cause : CreditError)
  | addToZKVM (cause : CreditError)
  | noDocsStaged
  | execAllCap (entries : Nat)
  | commitFailed (hash : Hash)
  deriving DecidableEq, Repr

/-- How a call ends without a result: by an error, or by dereferencing a nil
pointer. -/
inductive Fault where
  | nilDereference
  | error (cause : TxError)
  deriving DecidableEq, Repr

/-- `categorizeDeductionError`, which looks at the start of the error text. -/
def categorizeDeductionError : DeductError → TxError
  | .insufficientBalance sender has needs =>
    .insufficientFunds (.insufficientBalance sender has needs)
  | .senderMissing sender => .accountNotFound (.senderMissing sender)
  | .invalidBalance sender balance => .accountDataCorrupted (.invalidBalance sender balance)
  | cause => .transactionFailed cause

/-- `adoptCarriedNonce`: identity only, and never to the sentinel zero. -/
def adoptCarriedNonce (store : Accounts) (stage : TxStage) (address : Address)
    (carried : Address → Option UInt64) : TxStage :=
  match carried address with
  | none => stage
  | some nonce =>
    if nonce = 0 then stage
    else
      match stage.get store address with
      | none => stage
      | some doc => if doc.nonce = nonce then stage else stage.put { doc with nonce }

/-- `deductFromSender`. -/
def deductFromSender (store : Accounts) (stage : TxStage) (tx : Transaction) (sender : Address)
    (amount : String) (blockTimestamp : Int64) : Except DeductError TxStage :=
  match stage.get store sender with
  | none => .error (.senderMissing sender)
  | some doc =>
    match setString doc.balance with
    | none => .error (.invalidBalance sender doc.balance)
    | some current =>
      if tx.nonce < doc.txNonce then .error (.staleNonce tx.nonce doc.txNonce)
      else
        match setString amount with
        | none => .error (.invalidAmount amount)
        | some deduct =>
          if deduct < 0 then .error (.negativeAmount sender deduct)
          else if current < deduct then
            .error (.insufficientBalance sender current deduct)
          else
            .ok (stage.put { doc with
              balance := formatInt (current - deduct)
              txNonce := tx.nonce + 1
              txCountSent := doc.txCountSent + 1
              updatedAt := blockTimestamp * nanosPerSecond })

/-- `addToRecipient`. -/
def addToRecipient (store : Accounts) (recipient : Address) (amount : String) (stage : TxStage)
    (blockTimestamp : Int64) : Except CreditError TxStage :=
  match stage.get store recipient with
  | none => .error (.recipientMissing recipient)
  | some doc =>
    match setString doc.balance with
    | none => .error (.invalidBalance recipient doc.balance)
    | some current =>
      match setString amount with
      | none => .error (.invalidAmount amount)
      | some add =>
        if add < 0 then .error (.negativeAmount recipient add)
        else
          .ok (stage.put { doc with
            balance := formatInt (current + add)
            updatedAt := blockTimestamp * nanosPerSecond })

/-- The loop over the coinbase-side credits. -/
def addCoinbaseCredits (store : Accounts) (blockTimestamp : Int64) :
    List FeeCredit → TxStage → Except TxError TxStage
  | [], stage => .ok stage
  | credit :: rest, stage =>
    match addToRecipient store credit.addr (formatInt credit.amount) stage blockTimestamp with
    | .error cause => .error (.addToCoinbase credit.addr cause)
    | .ok next => addCoinbaseCredits store blockTimestamp rest next

/-- The account document of a recipient the block itself creates: every field
comes from the block or the address. -/
def createdRecipient (env : Env) (recipient : Address) (carriedNonce : UInt64)
    (blockTimestamp : Int64) : Account :=
  { nonce := carriedNonce
    didAddress := "did:jmdt:metamask:" ++ env.addressHex recipient
    address := recipient
    balance := "0"
    txNonce := 0
    txCountSent := 0
    accountType := "user"
    createdAt := blockTimestamp * nanosPerSecond
    updatedAt := blockTimestamp * nanosPerSecond }

/-- `parseTransaction`: the value, with a missing one read as zero. -/
def parseTransaction (tx : Transaction) : Except TxError Int :=
  let value := tx.value.getD 0
  let price := effectiveGasPrice tx.txType tx.gasPrice tx.maxFee tx.maxPriorityFee
  if value < 0 then .error (.negativeValue value)
  else if price < 0 then .error (.negativeGasFee price)
  else .ok value

/-- The existence checks, the in-stage creation of a missing recipient and the
adoption of carried identity nonces. -/
def openStage (env : Env) (store : Accounts) (sender recipient : Address)
    (blockTimestamp : Int64) (carried : Address → Option UInt64) : Except TxError TxStage :=
  if (store.get sender).isNone then .error (.senderMissing sender)
  else if (store.get recipient).isSome then
    .ok (adoptCarriedNonce store (adoptCarriedNonce store TxStage.new sender carried) recipient
      carried)
  else
    match (carried recipient).filter (· ≠ 0) with
    | none => .error (.recipientMissing recipient)
    | some carriedNonce =>
      if env.createMissingAccounts then
        .ok (adoptCarriedNonce store
          (TxStage.new.put (createdRecipient env recipient carriedNonce blockTimestamp))
          sender carried)
      else .error (.recipientMissing recipient)

/-- Deduct from the sender, then credit the recipient, the coinbase side and the
zkvm. -/
def stageTransfers (store : Accounts) (tx : Transaction) (sender recipient coinbase zkvm : Address)
    (feeRecipients : List FeeRecipient) (blockTimestamp : Int64) (value : Int) (stage : TxStage) :
    Except TxError TxStage :=
  let shares := splitFee tx.gasFee coinbase feeRecipients
  match deductFromSender store stage tx sender (formatInt (value + tx.gasFee)) blockTimestamp with
  | .error cause => .error (categorizeDeductionError cause)
  | .ok deducted =>
    match addToRecipient store recipient (formatInt value) deducted blockTimestamp with
    | .error cause => .error (.addToRecipient cause)
    | .ok credited =>
      match addCoinbaseCredits store blockTimestamp shares.2 credited with
      | .error cause => .error cause
      | .ok shared =>
        match addToRecipient store zkvm (formatInt shares.1) shared blockTimestamp with
        | .error cause => .error (.addToZKVM cause)
        | .ok final => .ok final

/-- `ApplyTxAtomic`: all staged documents and the marker in one commit. -/
def applyTxAtomic (env : Env) (db : DB) (docs : List Account) (hash : Hash) : Except TxError DB :=
  if docs = [] then .error .noDocsStaged
  else if docs.length + 1 > maxExecAllEntries then .error (.execAllCap (docs.length + 1))
  else if env.commitOk hash then
    .ok { db with
      accounts := docs.foldl Accounts.put db.accounts
      txProcessed := db.txProcessed.write hash env.now }
  else .error (.commitFailed hash)

/-- The part of `processTransaction` after the marker check, with `From` and
`To` dereferenced. -/
def executeTransaction (env : Env) (tx : Transaction) (sender recipient coinbase zkvm : Address)
    (feeRecipients : List FeeRecipient) (blockTimestamp : Int64)
    (carried : Address → Option UInt64) (db : DB) : Except TxError DB := do
  let value ← parseTransaction tx
  let opened ← openStage env db.accounts sender recipient blockTimestamp carried
  let stage ← stageTransfers db.accounts tx sender recipient coinbase zkvm feeRecipients
    blockTimestamp value opened
  applyTxAtomic env db stage.staged tx.hash

/-- `processTransaction`. -/
def processTransaction (env : Env) (tx : Transaction) (coinbase zkvm : Address)
    (feeRecipients : List FeeRecipient) (blockTimestamp : Int64)
    (carried : Address → Option UInt64) (db : DB) : Except Fault DB :=
  match tx.fromAddr, tx.toAddr with
  | some sender, some recipient =>
    if db.txApplied tx.hash then .ok db
    else
      (executeTransaction env tx sender recipient coinbase zkvm feeRecipients blockTimestamp
        carried db).mapError Fault.error
  | _, _ => .error .nilDereference

end Jmdn.BlockProcessing
