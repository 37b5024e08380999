import Jmdn.DBOPs.State
import Jmdn.Go.Map
import Jmdn.Go.Strings

/-!
# Restoring accounts

`mergeAccountForWrite` and `BatchRestoreAccounts` of
`DB_OPs/account_immuclient.go`, the write path of account sync.  Both callers
build the entries from account documents, an `address:` key from the address and
a `did:` key from the DID, so an entry is the document with its kind of key.
A `did:` reference points at a document and holds no account data of its own; it
only counts as an operation.
-/

namespace Jmdn.DBOPs

open Config Go

/-- `normalizeUpdatedAtNanos`: seconds, milliseconds and microseconds are told
apart by size. -/
def normalizeUpdatedAtNanos (ts : Int64) : Int64 :=
  if ts ≤ 0 then ts
  else if ts < 100000000000 then ts * 1000000000
  else if ts < 100000000000000 then ts * 1000000
  else if ts < 100000000000000000 then ts * 1000
  else ts

/-- `isZeroBalanceString`. -/
def isZeroBalanceString (balance : String) : Bool :=
  balance = "" || balance = "0"

/-- The defaults of an account without a stored document. -/
def newAccountForWrite (incoming : Account) : Account :=
  { incoming with
    accountType := if incoming.accountType = "" then "user" else incoming.accountType
    createdAt :=
      if incoming.createdAt = 0 ∧ incoming.updatedAt ≠ 0 then incoming.updatedAt
      else incoming.createdAt }

/-- The fields a write over a stored document keeps. -/
def mergedAccount (addressHex : Address → String) (existing incoming : Account) : Account :=
  { incoming with
    didAddress :=
      if incoming.didAddress = "" ∨
          equalFoldHex incoming.didAddress (addressHex incoming.address) then
        existing.didAddress
      else incoming.didAddress
    createdAt := if incoming.createdAt = 0 then existing.createdAt else incoming.createdAt
    accountType :=
      if (incoming.accountType = "" ∨ incoming.accountType = "user") ∧
          existing.accountType ≠ "" then
        existing.accountType
      else incoming.accountType
    metadata := incoming.metadata <|> existing.metadata
    nonce := if incoming.nonce = 0 then existing.nonce else incoming.nonce
    txNonce := if incoming.txNonce < existing.txNonce then existing.txNonce else incoming.txNonce
    txCountSent :=
      if incoming.txCountSent < existing.txCountSent then existing.txCountSent
      else incoming.txCountSent
    balance :=
      if isZeroBalanceString incoming.balance ∧ !isZeroBalanceString existing.balance then
        existing.balance
      else incoming.balance }

/-- `mergeAccountForWrite`: the document to write, `none` when the stored one
wins. -/
def mergeAccountForWrite (addressHex : Address → String) (existing : Option Account)
    (incoming : Account) : Option Account :=
  match existing with
  | none => some (newAccountForWrite incoming)
  | some stored =>
    let existingTS := normalizeUpdatedAtNanos stored.updatedAt
    let incomingTS := normalizeUpdatedAtNanos incoming.updatedAt
    if existingTS > incomingTS then none
    else if existingTS = incomingTS ∧ stored.balance = incoming.balance then none
    else some (mergedAccount addressHex stored incoming)

inductive RestoreEntry where
  | address (doc : Account)
  | did (key : String) (doc : Account)
  deriving DecidableEq, Repr

/-- One round of the loop that builds the set of addresses. -/
def rememberNewest (known : Address → Option Account) : RestoreEntry → Address → Option Account
  | .did _ _ => known
  | .address doc =>
    match known doc.address with
    | none => Function.update known doc.address (some doc)
    | some current =>
      if normalizeUpdatedAtNanos doc.updatedAt > normalizeUpdatedAtNanos current.updatedAt
      then Function.update known doc.address (some doc)
      else known

/-- Keep the document with the greatest `UpdatedAt` of each address. -/
def addressSet (entries : List RestoreEntry) : Address → Option Account :=
  entries.foldl rememberNewest fun _ => none

/-- The addresses of the `address:` entries, each once. -/
def addressKeys (entries : List RestoreEntry) : List Address :=
  (entries.filterMap fun
    | .address doc => some doc.address
    | .did _ _ => none).dedup

/-- The last document of each `did:` key. -/
def didSet (entries : List RestoreEntry) : List (String × Account) :=
  entries.foldl
    (fun known entry =>
      match entry with
      | .address _ => known
      | .did key doc => known.filter (·.1 ≠ key) ++ [(key, doc)]) []

inductive RestoreOp where
  | kv (doc : Account)
  | ref (key : String) (address : Address)
  deriving DecidableEq, Repr

/-- What a batch takes from its surroundings: the checksummed address text, the
iteration order over the set of addresses, whether the prefetch and each
`ExecAll` succeed, and which stored documents decode. -/
structure RestoreEnv where
  addressHex : Address → String := fun _ => ""
  order : MapOrder Address := MapOrder.listed
  selectOk : Bool := true
  prefetchOk : Bool := true
  decodes : Address → Bool := fun _ => true
  commitOk : Nat → Bool := fun _ => true

/-- The prefetched documents; one that does not decode is left out. -/
def existingAccounts (env : RestoreEnv) (store : Accounts) (address : Address) : Option Account :=
  if env.decodes address then store.get address else none

/-- The operations of one `address:` entry, with the references bound to it. -/
def addressOps (env : RestoreEnv) (store : Accounts) (entries : List RestoreEntry)
    (incoming : Account) : List RestoreOp :=
  match mergeAccountForWrite env.addressHex (existingAccounts env store incoming.address)
      incoming with
  | none => []
  | some merged =>
    .kv merged ::
      ((didSet entries).filter fun entry => entry.2.address = incoming.address).map fun entry =>
        .ref entry.1 incoming.address

/-- The references whose document the batch does not write. -/
def didOps (env : RestoreEnv) (store : Accounts) (entries : List RestoreEntry) :
    List RestoreOp :=
  ((didSet entries).filter fun entry =>
    let written := (addressSet entries entry.2.address).any fun incoming =>
      (mergeAccountForWrite env.addressHex (existingAccounts env store incoming.address)
        incoming).isSome
    !written && (existingAccounts env store entry.2.address).isSome).map fun entry =>
      .ref entry.1 entry.2.address

def restoreOps (env : RestoreEnv) (store : Accounts) (entries : List RestoreEntry) :
    List RestoreOp :=
  ((env.order.order (addressKeys entries)).filterMap (addressSet entries)).flatMap
      (addressOps env store entries) ++
    didOps env store entries

inductive RestoreError where
  | noEntries
  | selectDatabase
  | prefetch
  | execAll
  deriving DecidableEq, Repr

/-- The account writes of one commit. -/
def execRestoreOps (store : Accounts) (ops : List RestoreOp) : Accounts :=
  ops.foldl
    (fun store op =>
      match op with
      | .kv doc => store.put doc
      | .ref _ _ => store) store

/-- The chunk loop; the chunks before a failing one stay committed. -/
def commitRestoreOps (commitOk : Nat → Bool) :
    Nat → List (List RestoreOp) → Accounts → Except RestoreError Unit × Accounts
  | _, [], store => (.ok (), store)
  | index, chunk :: rest, store =>
    if commitOk index then commitRestoreOps commitOk (index + 1) rest (execRestoreOps store chunk)
    else (.error .execAll, store)

/-- `immudbMaxOpsPerTx`. -/
def immudbMaxOpsPerTx : Nat := 1000

/-- `BatchRestoreAccounts`. -/
def batchRestoreAccounts (env : RestoreEnv) (entries : List RestoreEntry) (store : Accounts) :
    Except RestoreError Unit × Accounts :=
  if entries = [] then (.error .noEntries, store)
  else if !env.selectOk then (.error .selectDatabase, store)
  else if !env.prefetchOk then (.error .prefetch, store)
  else
    commitRestoreOps env.commitOk 0 (chunks immudbMaxOpsPerTx (restoreOps env store entries)) store

/-- The value a map of markers holds for a hash: the last one assigned. -/
def markerFor (assigned : List (Hash × Int)) (hash : Hash) : Int :=
  ((assigned.reverse.find? (·.1 = hash)).map Prod.snd).getD 0

/-- `WriteTxProcessedMarkers` in chunks of 500.  `failsAt` is the number of the
chunk that fails and `order` the iteration order over the map of markers; the
flag says whether every marker was written. -/
def writeTxProcessedMarkers (failsAt : Option Nat) (order : MapOrder Hash) (markers : Markers)
    (assigned : List (Hash × Int)) : Markers × Bool :=
  let keys := order.order (assigned.map Prod.fst).dedup
  let written := failsAt.elim keys fun chunk => keys.take (500 * chunk)
  (written.foldl (fun current hash => current.write hash (markerFor assigned hash)) markers,
    decide (written.length = keys.length))

theorem markerFor_pos {assigned : List (Hash × Int)} {marker : Hash × Int}
    (positive : ∀ marker ∈ assigned, 0 < marker.2) (listed : marker ∈ assigned) :
    0 < markerFor assigned marker.1 := by
  unfold markerFor
  cases found : assigned.reverse.find? (·.1 = marker.1) with
  | none => simpa using List.find?_eq_none.mp found marker (List.mem_reverse.mpr listed)
  | some last => exact positive last (List.mem_reverse.mp (List.mem_of_find?_eq_some found))

/-- A successful call leaves every marker applied. -/
theorem isApplied_writeTxProcessedMarkers {failsAt : Option Nat} {order : MapOrder Hash}
    {markers : Markers} {assigned : List (Hash × Int)}
    (positive : ∀ marker ∈ assigned, 0 < marker.2)
    (done : (writeTxProcessedMarkers failsAt order markers assigned).2 = true) :
    ∀ marker ∈ assigned,
      (writeTxProcessedMarkers failsAt order markers assigned).1.isApplied marker.1 = true := by
  intro marker listed
  simp only [writeTxProcessedMarkers, decide_eq_true_eq] at done ⊢
  generalize keysAre : order.order (assigned.map Prod.fst).dedup = keys at done ⊢
  have all : (failsAt.elim keys fun chunk => keys.take (500 * chunk)) = keys := by
    cases failsAt with
    | none => rfl
    | some chunk => exact (List.take_sublist _ _).eq_of_length done
  have inKeys : marker.1 ∈ keys := by
    rw [← keysAre, MapOrder.mem_order, List.mem_dedup]
    exact List.mem_map_of_mem listed
  obtain ⟨time, same⟩ := Int.eq_ofNat_of_zero_le (markerFor_pos positive listed).le
  rw [all, Markers.isApplied_foldl_write, if_pos inKeys, same, markerValueApplied_time]

end Jmdn.DBOPs
