import Jmdn.Config.GasFee
import Jmdn.DBOPs.State

/-!
# Reconciliation of one block

`DB_OPs/account_recon.go`: the deltas of a block, the groups that fit one
`ExecAll`, and `ApplyBlockRecon`, which commits the groups one by one.  The maps
keyed by lower-case hex text are keyed by address here.
-/

namespace Jmdn.DBOPs

open Config Go

/-- One account's aggregate effect within a block. -/
structure BlockAccountDelta where
  balanceDelta : Int := 0
  txNonce : UInt64 := 0
  txCountSent : UInt64 := 0
  isSender : Bool := false
  deriving DecidableEq, Repr

/-- The map of deltas, with its keys in first-touch order. -/
structure Deltas where
  get : Address → Option BlockAccountDelta
  keys : List Address
  listed : ∀ address, address ∈ keys ↔ (get address).isSome
  nodup : keys.Nodup

namespace Deltas

def empty : Deltas where
  get _ := none
  keys := []
  listed := by simp
  nodup := List.nodup_nil

/-- The entry of an address, or the zero entry. -/
def entry (deltas : Deltas) (address : Address) : BlockAccountDelta :=
  (deltas.get address).getD {}

/-- Change the entry of an address, creating it if missing. -/
def touch (deltas : Deltas) (address : Address)
    (change : BlockAccountDelta → BlockAccountDelta) : Deltas where
  get := Function.update deltas.get address (some (change (deltas.entry address)))
  keys := if (deltas.get address).isSome then deltas.keys else deltas.keys ++ [address]
  listed := by
    intro other
    by_cases same : other = address
    · subst same
      by_cases known : (deltas.get other).isSome
      · simp [known, (deltas.listed other).mpr known]
      · simp [known]
    · by_cases known : (deltas.get address).isSome <;> simp [known, same, deltas.listed other]
  nodup := by
    by_cases known : (deltas.get address).isSome
    · simpa [known] using deltas.nodup
    have fresh : address ∉ deltas.keys := fun member => known ((deltas.listed address).mp member)
    simp only [known, Bool.false_eq_true, if_false]
    exact List.Nodup.append deltas.nodup (List.nodup_singleton address)
      (List.disjoint_singleton.mpr fresh)

/-- Add to the balance delta of an address. -/
def add (deltas : Deltas) (address : Address) (change : Int) : Deltas :=
  deltas.touch address fun delta => { delta with balanceDelta := delta.balanceDelta + change }

/-- Add to the balance delta of an address that may be missing. -/
def addAt (deltas : Deltas) (address : Option Address) (change : Int) : Deltas :=
  address.elim deltas fun present => deltas.add present change

end Deltas

/-- The value a transaction moves, if it is set and positive. -/
def positiveValue (tx : Transaction) : Option Int :=
  tx.value.filter (0 < ·)

/-- The sender's part of one transaction. -/
def senderDelta (tx : Transaction) (delta : BlockAccountDelta) : BlockAccountDelta :=
  { balanceDelta := delta.balanceDelta - tx.gasFee - (positiveValue tx).getD 0
    txNonce :=
      if !delta.isSender || tx.nonce + 1 > delta.txNonce then tx.nonce + 1 else delta.txNonce
    txCountSent := delta.txCountSent + 1
    isSender := true }

/-- One round of the loop of `ComputeBlockDeltas`. -/
def addTxDeltas (block : ZKBlock) (deltas : Deltas) (tx : Transaction) : Deltas :=
  let shares := splitFee tx.gasFee (block.coinbaseAddr.getD 0) block.feeRecipients
  let sent := tx.fromAddr.elim deltas fun sender => deltas.touch sender (senderDelta tx)
  let received := (positiveValue tx).elim sent fun value => sent.addAt tx.toAddr value
  let shared :=
    if block.coinbaseAddr.isSome then
      shares.2.foldl (fun current credit => current.add credit.addr credit.amount) received
    else received
  shared.addAt block.zkvmAddr shares.1

/-- `ComputeBlockDeltas` over the transactions that are not skipped. -/
def computeBlockDeltas (block : ZKBlock) (skip : Hash → Bool) : Deltas :=
  (block.transactions.filter fun tx => !skip tx.hash).foldl (addTxDeltas block) Deltas.empty

inductive ReconError where
  | load (number : UInt64)
  | hashMismatch (stored expected : Hash)
  | markerFilter
  | invalidBalance (address : Address) (balance : String)
  | execAllCap (ops : Nat)
  | execAll
  deriving DecidableEq, Repr

/-- `applyDeltaToAccount`. -/
def applyDeltaToAccount (existing : Option Account) (address : Address)
    (delta : BlockAccountDelta) (updatedAtNanos : Int64) : Except ReconError Account :=
  let doc := existing.getD
    { address, balance := "0", accountType := "user", createdAt := updatedAtNanos }
  match if doc.balance = "" then some 0 else setString doc.balance with
  | none => .error (.invalidBalance address doc.balance)
  | some base =>
    .ok { doc with
      balance := formatInt (base + delta.balanceDelta)
      txNonce := if delta.txNonce > doc.txNonce then delta.txNonce else doc.txNonce
      txCountSent := doc.txCountSent + delta.txCountSent
      updatedAt := updatedAtNanos }

/-- `txTouchedAccounts`. -/
def txTouchedAccounts (block : ZKBlock) (tx : Transaction) : List Address :=
  tx.fromAddr.toList ++ tx.toAddr.toList ++ block.coinbaseAddr.toList ++
    block.feeRecipients.map FeeRecipient.addr ++ block.zkvmAddr.toList

/-- Add addresses to a set kept as a list. -/
def insertAccounts (candidates accounts : List Address) : List Address :=
  candidates.foldl (fun current address => current.insert address) accounts

/-- The loops of `partitionReconGroups` with the group being filled.  A full
group is closed and the same transaction opens the next one. -/
def partitionFrom (block : ZKBlock) (pending : Hash → Bool) (budget : Nat) :
    List Transaction → List Address → List Hash → List (List Hash)
  | [], _, group => if group = [] then [] else [group]
  | tx :: rest, accounts, group =>
    if !pending tx.hash then partitionFrom block pending budget rest accounts group
    else
      let candidates := txTouchedAccounts block tx
      let newAccounts := candidates.countP fun address => address ∉ accounts
      if group ≠ [] ∧ accounts.length + newAccounts + group.length + 1 > budget then
        group ::
          partitionFrom block pending budget rest (insertAccounts candidates []) [tx.hash]
      else
        partitionFrom block pending budget rest (insertAccounts candidates accounts)
          (group ++ [tx.hash])

/-- `partitionReconGroups`. -/
def partitionReconGroups (block : ZKBlock) (pending : Hash → Bool) (budget : Nat) :
    List (List Hash) :=
  partitionFrom block pending budget block.transactions [] []

/-- Bound on the entries of one group. -/
def reconGroupOpBudget : Nat := 1000

/-- What reconciliation takes from its surroundings: the clock, and which
database calls succeed. -/
structure ReconEnv where
  now : Nat := 0
  filterOk : Bool := true
  commitOk : List Hash → Bool := fun _ => true

/-- The documents of a group, in sorted address order. -/
def reconDocs (store : Accounts) (deltas : Deltas) (updatedAtNanos : Int64) :
    List Address → Except ReconError (List Account)
  | [] => .ok []
  | address :: rest => do
      let doc ← applyDeltaToAccount (store.get address) address (deltas.entry address)
        updatedAtNanos
      let docs ← reconDocs store deltas updatedAtNanos rest
      return doc :: docs

/-- `commitReconGroup`: documents and markers in one commit. -/
def commitReconGroup (env : ReconEnv) (db : DB) (deltas : Deltas) (groupTxs : List Hash)
    (updatedAtNanos : Int64) : Except ReconError DB :=
  match reconDocs db.accounts deltas updatedAtNanos (deltas.keys.insertionSort (· ≤ ·)) with
  | .error cause => .error cause
  | .ok docs =>
    if docs.length + groupTxs.length = 0 then .ok db
    else if docs.length + groupTxs.length > maxExecAllEntries then
      .error (.execAllCap (docs.length + groupTxs.length))
    else if env.commitOk groupTxs then
      .ok { db with
        accounts := docs.foldl Accounts.put db.accounts
        txProcessed := db.txProcessed.writeAll groupTxs env.now }
    else .error .execAll

/-- The loop over the groups; the groups before a failing one stay committed. -/
def commitReconGroups (env : ReconEnv) (block : ZKBlock) :
    List (List Hash) → DB → Except ReconError Unit × DB
  | [], db => (.ok (), db)
  | group :: rest, db =>
    match commitReconGroup env db (computeBlockDeltas block fun hash => hash ∉ group) group
        (block.timestamp * nanosPerSecond) with
    | .error cause => (.error cause, db)
    | .ok next => commitReconGroups env block rest next

/-- `ApplyBlockRecon` with any group budget.  An empty expected hash, `none` here, is
not compared. -/
def applyBlockReconWithin (budget : Nat) (env : ReconEnv) (blockNumber : UInt64)
    (expectHash : Option Hash) (db : DB) : Except ReconError Unit × DB :=
  match db.blocks blockNumber with
  | none => (.error (.load blockNumber), db)
  | some block =>
    if expectHash.all (· = block.blockHash) then
      if block.transactions = [] then (.ok (), db)
      else if env.filterOk then
        let applied := filterProcessedTxMarkers db.txProcessed (txHashes block)
        let pendingTx := (txHashes block).filter fun hash => hash ∉ applied
        if pendingTx = [] then (.ok (), db)
        else
          commitReconGroups env block
            (partitionReconGroups block (fun hash => hash ∈ pendingTx) budget) db
      else (.error .markerFilter, db)
    else (.error (.hashMismatch block.blockHash (expectHash.getD 0)), db)

/-- `ApplyBlockRecon`. -/
def applyBlockRecon (env : ReconEnv) (blockNumber : UInt64) (expectHash : Option Hash) (db : DB) :
    Except ReconError Unit × DB :=
  applyBlockReconWithin reconGroupOpBudget env blockNumber expectHash db

end Jmdn.DBOPs
