import Jmdn.Config.Types
import Jmdn.Go.Panic
import Jmdn.Go.Strings

/-!
# Verified writes

`SafeCreate` and the writers that hand it their own client.  `SafeCreate` logs
its errors through the connection it took from the pool; with a client of the
caller's there is no such connection, and the log call reads through nil.
-/

namespace Jmdn.DBOPs.VerifiedWrite

open Config Go

variable {text : String → String} {hashHex context : String} {height value : UInt64}

/-- `config.ImmuClient`; its logger is always set. -/
structure ImmuClient where
  database : String
  deriving DecidableEq, Repr

variable {client : ImmuClient}

/-- `config.PooledConnection`. -/
structure PooledConnection where
  client : Option ImmuClient
  deriving DecidableEq, Repr

abbrev Bytes := List UInt8

/-- A value of type `interface{}`; other types come with the outcome of
`json.Marshal`. -/
inductive StoreValue where
  | nil
  | text (value : String)
  | bytes (value : Bytes)
  | other (json : Except String Bytes)

/-- `value == nil`. -/
def StoreValue.isNil : StoreValue → Bool
  | .nil => true
  | _ => false

/-- The bytes under each key. -/
abbrev Store := String → Option Bytes

/-- The call that a selection of the main database precedes. -/
inductive Access where
  | get (key : String)
  | verifiedSet (key : String)
  | set (key : String)

/-- How the calls of the pool and of the immudb client end; `none` is success. -/
structure Calls where
  accountConnection : Except String PooledConnection
  mainConnection : Except String PooledConnection
  selectAccounts : Option String := none
  selectMain : Access → Option String := fun _ => none
  get : String → Option String := fun _ => none
  verifiedSet : Option String := none
  set : String → Option String := fun _ => none
  marshalBlock : ZKBlock → Except String Bytes

/-- A call that returns nothing but an error. -/
def check : Option String → Except Stop Unit
  | none => .ok ()
  | some cause => .error (.error cause)

/-- A call whose error is returned inside another text. -/
def wrapIn {α : Type} (text : String → String) : Except Stop α → Except Stop α
  | .error (.error cause) => .error (.error (text cause))
  | outcome => outcome

/-- A call whose error is returned with a text in front. -/
def wrap {α : Type} (context : String) (outcome : Except Stop α) : Except Stop α :=
  wrapIn (fun cause => context ++ cause) outcome

/-- `connection.Client.Logger`. -/
def logThrough (connection : Option PooledConnection) : Except Stop Unit := do
  let connection ← dereference connection
  let _ ← dereference connection.client
  return ()

/-- `toBytes`. -/
def toBytes : StoreValue → Except Stop Bytes
  | .text value => .ok value.toUTF8.toList
  | .bytes value => .ok value
  | .nil => .error (.error "value cannot be nil")
  | .other (.ok json) => .ok json
  | .other (.error cause) => .error (.error ("failed to marshal value to JSON: " ++ cause))

variable (calls : Calls)

/-- The client `SafeCreate` writes with, and the connection it took for it. -/
def writeClient : Option ImmuClient → Except Stop (ImmuClient × Option PooledConnection)
  | some client => .ok (client, none)
  | none =>
    match calls.accountConnection with
    | .error cause => .error (.error cause)
    | .ok connection => do
        let client ← dereference connection.client
        return (client, some connection)

/-- `SafeCreate`. -/
def safeCreate (ic : Option ImmuClient) (key : String) (value : StoreValue) (store : Store) :
    Except Stop Store := do
  let (_, pooledConnection) ← writeClient calls ic
  if key = "" then
    logThrough pooledConnection
    .error (.error "key cannot be empty")
  else if value.isNil then
    logThrough pooledConnection
    .error (.error "value cannot be nil")
  else
    let valueBytes ← toBytes value
    match calls.verifiedSet with
    | some cause =>
      logThrough pooledConnection
      .error (.error cause)
    | none => .ok (Function.update store key (some valueBytes))

/-! ## The callers -/

/-- `ensureAccountsDBSelected`. -/
def ensureAccountsDBSelected (connection : PooledConnection) : Except Stop Unit :=
  if connection.client = none then .error (.error "client not connected")
  else check calls.selectAccounts

/-- The caller's connection if it has a client, else one from a pool. -/
def connectionOr (pool : Except String PooledConnection) (context : String) :
    Option PooledConnection → Except Stop PooledConnection
  | none => wrap context (pool.mapError Stop.error)
  | some given =>
    if given.client = none then wrap context (pool.mapError Stop.error) else .ok given

/-- `withAccountsConn`. -/
def withAccountsConn (connection : Option PooledConnection) : Except Stop PooledConnection := do
  let connection ←
    connectionOr calls.accountConnection "get accounts connection: " connection
  wrap "select accountsdb: " (ensureAccountsDBSelected calls connection)
  return connection

/-- `EquivocationHeightKey`. -/
def equivocationHeightKey (height : UInt64) : String :=
  "equivocation_height:" ++ toString height.toNat

/-- `RecordEquivocationHash`. -/
def recordEquivocationHash (connection : Option PooledConnection) (height : UInt64)
    (hashHex : String) (store : Store) : Except Stop Store := do
  let connection ← wrap "equivocation write: " (withAccountsConn calls connection)
  wrap ("equivocation write height " ++ toString height.toNat ++ ": ")
    (safeCreate calls connection.client (equivocationHeightKey height) (.text hashHex) store)

/-- `AppliedAnchorKey`. -/
def appliedAnchorKey : String := "sync:accounts_last_applied_block"

/-- `writeAnchorLocked`; a number is marshalled as its decimal text. -/
def writeAnchorLocked (connection : PooledConnection) (value : UInt64) (store : Store) :
    Except Stop Store :=
  wrap ("applied anchor: write " ++ toString value.toNat ++ ": ")
    (safeCreate calls connection.client appliedAnchorKey
      (.other (.ok (toString value.toNat).toUTF8.toList)) store)

/-- `ensureMainDBSelected`. -/
def ensureMainDBSelected (connection : PooledConnection) (access : Access) : Except Stop Unit :=
  if connection.client = none then .error (.error "invalid connection")
  else
    wrap "failed to re-select database during token refresh: " (check (calls.selectMain access))

/-- `Read`: `none` is `ErrNotFound`. -/
def read (connection : Option PooledConnection) (key : String) (store : Store) :
    Except Stop (Option Bytes) := do
  let connection ←
    connectionOr calls.mainConnection "failed to get database connection: " connection
  wrap "database selection failed: " (ensureMainDBSelected calls connection (.get key))
  wrap "database read failed: " (check (calls.get key))
  return store key

/-- `Exists`: whatever the outcome, it is logged through the caller's connection. -/
def existsKey (connection : Option PooledConnection) (key : String) (store : Store) :
    Except Stop Bool :=
  match read calls connection key store with
  | .error (.panicked fault) => .error (.panicked fault)
  | .error (.error cause) => do
      logThrough connection
      .error (.error cause)
  | .ok found => do
      logThrough connection
      return found.isSome

/-- `Create` for a text that is not empty, on a connection. -/
def create (connection : PooledConnection) (key value : String) (store : Store) :
    Except Stop Store := do
  let _ ← dereference connection.client
  wrap "database selection failed: " (ensureMainDBSelected calls connection (.set key))
  wrap ("failed to set key " ++ key ++ ": ") (check (calls.set key))
  return Function.update store key (some value.toUTF8.toList)

def blockKey (block : ZKBlock) : String :=
  "block:" ++ toString block.blockNumber.toNat

/-- The loop that stores the block of each transaction. -/
def storeTxMappings (connection : PooledConnection) (block : ZKBlock) :
    List Transaction → Store → Except Stop Store
  | [], store => .ok store
  | tx :: rest, store => do
      let hash := "0x" ++ @hexEncode 64 tx.hash
      let store ← wrap ("failed to store tx mapping for " ++ hash ++ ": ")
        (create calls connection ("tx:" ++ hash) (toString block.blockNumber.toNat) store)
      storeTxMappings connection block rest store

/-- The part of `StoreZKBlock` after the check that the block is new. -/
def storeNewBlock (connection : PooledConnection) (block : ZKBlock) (store : Store) :
    Except Stop Store := do
  wrap "failed to ensure main DB is selected: "
    (ensureMainDBSelected calls connection (.verifiedSet (blockKey block)))
  let store ← wrap ("failed to store block " ++ toString block.blockNumber.toNat ++ ": ")
    (safeCreate calls connection.client (blockKey block) (.other (calls.marshalBlock block)) store)
  let store ← wrap "failed to store block hash mapping: "
    (create calls connection ("block:hash:0x" ++ @hexEncode 64 block.blockHash)
      (blockKey block) store)
  storeTxMappings calls connection block block.transactions store

/-- `StoreZKBlock`.  The branch that takes a connection from the pool is not
reached: `Exists` has read through the caller's. -/
def storeZKBlock (mainDBClient : Option PooledConnection) (block : ZKBlock) (store : Store) :
    Except Stop Store := do
  let found ←
    wrapIn (fun cause => "failed to check if block " ++ toString block.blockNumber.toNat ++
        " exists: " ++ cause ++ " - StoreZKBlock")
      (existsKey calls mainDBClient (blockKey block) store)
  if found then
    .error (.error ("block " ++ toString block.blockNumber.toNat ++ " already exists"))
  else
    let connection ← dereference mainDBClient
    storeNewBlock calls connection block store

/-! ## Panics -/

section

variable {calls : Calls} {α : Type}

variable {outcome : Except Stop α}

theorem panics_wrapIn_iff :
    Panics (wrapIn text outcome) ↔ Panics outcome := by
  cases outcome with
  | ok value => rfl
  | error stop =>
    cases stop with
    | error cause => simp [wrapIn]
    | panicked fault => rfl

theorem wrapIn_eq_ok_iff {value : α} :
    wrapIn text outcome = .ok value ↔ outcome = .ok value := by
  cases outcome with
  | ok value => rfl
  | error stop => cases stop <;> simp [wrapIn]

theorem panics_wrap_iff :
    Panics (wrap context outcome) ↔ Panics outcome :=
  panics_wrapIn_iff

theorem wrap_eq_ok_iff {value : α} :
    wrap context outcome = .ok value ↔ outcome = .ok value :=
  wrapIn_eq_ok_iff

theorem not_panics_check (error : Option String) : ¬ Panics (check error) := by
  cases error <;> simp [check]

theorem not_panics_toBytes (value : StoreValue) : ¬ Panics (toBytes value) := by
  unfold toBytes
  split <;> simp

variable {after : Store}

section

variable (client : ImmuClient) (key : String) (value : StoreValue) (store : Store)

/-- `SafeCreate` with a client of the caller's: an error of its own is not
returned, only one of the encoding is. -/
theorem safeCreate_own :
    safeCreate calls (some client) key value store =
      if key = "" ∨ value.isNil then .error (.panicked .nilDereference)
      else toBytes value >>= fun bytes =>
        if calls.verifiedSet.isSome then .error (.panicked .nilDereference)
        else .ok (Function.update store key (some bytes)) := by
  unfold safeCreate
  rw [writeClient, ok_bind]
  by_cases empty : key = ""
  · rw [if_pos (.inl empty)]
    simp only [empty, if_true]
    rfl
  cases isNil : value.isNil with
  | true =>
    simp only [empty, if_false, if_true, or_true]
    rfl
  | false =>
    simp only [empty, if_false, Bool.false_eq_true, or_false]
    cases calls.verifiedSet <;> rfl

theorem panics_safeCreate_own_iff :
    Panics (safeCreate calls (some client) key value store) ↔
      key = "" ∨ value.isNil = true ∨
        ((∃ bytes, toBytes value = .ok bytes) ∧ calls.verifiedSet.isSome = true) := by
  rw [safeCreate_own]
  by_cases refused : key = "" ∨ value.isNil = true
  · simp only [if_pos refused, panics_panicked, true_iff]
    rcases refused with empty | isNil
    · exact .inl empty
    · exact .inr (.inl isNil)
  · rw [if_neg refused, panics_bind_iff, ← or_assoc]
    simp only [refused, false_or, not_panics_toBytes]
    cases calls.verifiedSet <;> simp

theorem written_of_safeCreate_own
    (done : safeCreate calls (some client) key value store = .ok after) :
    key ≠ "" ∧ value.isNil = false ∧ calls.verifiedSet = none := by
  rw [safeCreate_own] at done
  split at done
  · cases done
  next accepted =>
  obtain ⟨bytes, -, done⟩ := bind_eq_ok done
  cases write : calls.verifiedSet with
  | some cause =>
    rw [write] at done
    cases done
  | none =>
    exact ⟨fun empty => accepted (.inl empty),
      Bool.eq_false_iff.mpr fun isNil => accepted (.inr isNil), rfl⟩

end

/-! ## The callers -/

theorem check_eq_ok_iff {error : Option String} {result : Unit} :
    check error = .ok result ↔ error = none := by
  cases error <;> simp [check]

theorem not_panics_connectionOr (pool : Except String PooledConnection) (context : String)
    (given : Option PooledConnection) : ¬ Panics (connectionOr pool context given) := by
  have taken : ¬ Panics (wrap context (pool.mapError Stop.error)) := by
    rw [panics_wrap_iff]
    cases pool <;> simp [Except.mapError]
  unfold connectionOr
  split
  · exact taken
  · split
    · exact taken
    · exact not_panics_ok _

theorem not_panics_withAccountsConn (connection : Option PooledConnection) :
    ¬ Panics (withAccountsConn calls connection) := by
  unfold withAccountsConn
  rw [panics_bind_iff]
  rintro (crashed | ⟨taken, -, crashed⟩)
  · exact not_panics_connectionOr _ _ _ crashed
  · rw [panics_bind_iff, panics_wrap_iff] at crashed
    rcases crashed with crashed | ⟨_, -, crashed⟩
    · unfold ensureAccountsDBSelected at crashed
      split at crashed
      · exact not_panics_error _ crashed
      · exact not_panics_check _ crashed
    · exact not_panics_ok _ crashed

variable {connection : Option PooledConnection}

theorem client_of_withAccountsConn {taken : PooledConnection}
    (done : withAccountsConn calls connection = .ok taken) :
    ∃ client, taken.client = some client := by
  obtain ⟨given, -, done⟩ := bind_eq_ok done
  obtain ⟨_, selected, done⟩ := bind_eq_ok done
  cases done
  rw [wrap_eq_ok_iff, ensureAccountsDBSelected] at selected
  split at selected
  · cases selected
  · next present => exact Option.ne_none_iff_exists'.mp present

theorem append_ne_empty {front : String} (nonempty : front ≠ "") (back : String) :
    front ++ back ≠ "" := by
  intro empty
  have spelled := congrArg String.toList empty
  rw [String.toList_append] at spelled
  have none : front.toList = [] := (List.append_eq_nil_iff.mp spelled).1
  exact nonempty (String.toList_eq_nil_iff.mp none)

variable {store : Store}

/-- `RecordEquivocationHash` panics when the write fails on a connection it got. -/
theorem panics_recordEquivocationHash_iff :
    Panics (recordEquivocationHash calls connection height hashHex store) ↔
      (∃ taken, withAccountsConn calls connection = .ok taken) ∧
        calls.verifiedSet.isSome = true := by
  have key : equivocationHeightKey height ≠ "" := append_ne_empty (by decide) _
  unfold recordEquivocationHash
  rw [panics_bind_iff, panics_wrap_iff]
  simp only [not_panics_withAccountsConn, false_or, wrap_eq_ok_iff, panics_wrap_iff]
  constructor
  · rintro ⟨taken, done, crashed⟩
    obtain ⟨client, own⟩ := client_of_withAccountsConn done
    rw [own, panics_safeCreate_own_iff] at crashed
    rcases crashed with empty | isNil | ⟨-, failed⟩
    · exact absurd empty key
    · cases isNil
    · exact ⟨⟨taken, done⟩, failed⟩
  · rintro ⟨⟨taken, done⟩, failed⟩
    obtain ⟨client, own⟩ := client_of_withAccountsConn done
    refine ⟨taken, done, ?_⟩
    rw [own, panics_safeCreate_own_iff]
    exact .inr (.inr ⟨⟨_, rfl⟩, failed⟩)

/-- The anchor writer panics when the write fails. -/
theorem panics_writeAnchorLocked_iff {connection : PooledConnection}
    (own : connection.client = some client) :
    Panics (writeAnchorLocked calls connection value store) ↔
      calls.verifiedSet.isSome = true := by
  unfold writeAnchorLocked
  rw [panics_wrap_iff, own, panics_safeCreate_own_iff]
  constructor
  · rintro (empty | isNil | ⟨-, failed⟩)
    · exact absurd empty (by decide)
    · cases isNil
    · exact failed
  · intro failed
    exact .inr (.inr ⟨⟨_, rfl⟩, failed⟩)

/-- The calls of `StoreZKBlock` before the verified write succeed, and the block is
new. -/
def ReachesWrite (calls : Calls) (block : ZKBlock) (store : Store) : Prop :=
  calls.selectMain (.get (blockKey block)) = none ∧ calls.get (blockKey block) = none ∧
    store (blockKey block) = none ∧ calls.selectMain (.verifiedSet (blockKey block)) = none ∧
      ∃ json, calls.marshalBlock block = .ok json

section

variable {connection : PooledConnection} {client : ImmuClient}
  (own : connection.client = some client)

include own

theorem ensureMainDBSelected_own (access : Access) :
    ensureMainDBSelected calls connection access =
      wrap "failed to re-select database during token refresh: "
        (check (calls.selectMain access)) := by
  rw [ensureMainDBSelected, if_neg (by simp [own])]

/-- On a connection with a client `Exists` answers unless one of its calls fails. -/
theorem existsKey_own (calls : Calls) (key : String) (store : Store) :
    ((calls.selectMain (.get key) = none ∧ calls.get key = none) ∧
        existsKey calls (some connection) key store = .ok (store key).isSome) ∨
      (¬(calls.selectMain (.get key) = none ∧ calls.get key = none) ∧
        ∃ cause, existsKey calls (some connection) key store = .error (.error cause)) := by
  have logs : logThrough (some connection) = .ok () := by
    rw [logThrough, dereference, ok_bind, own]
    rfl
  have taken : connectionOr calls.mainConnection "failed to get database connection: "
      (some connection) = .ok connection := by
    rw [connectionOr, if_neg (by simp [own])]
  rw [existsKey, read, taken, ok_bind, ensureMainDBSelected_own own, logs]
  cases calls.selectMain (.get key) with
  | some cause => exact .inr ⟨by simp, _, rfl⟩
  | none =>
    cases calls.get key with
    | some cause => exact .inr ⟨by simp, _, rfl⟩
    | none => exact .inl ⟨⟨rfl, rfl⟩, rfl⟩

theorem not_panics_create (key value : String) (store : Store) :
    ¬ Panics (create calls connection key value store) := by
  unfold create
  rw [own, dereference, ok_bind, panics_bind_iff, panics_wrap_iff, ensureMainDBSelected_own own,
    panics_wrap_iff]
  simp [not_panics_check, panics_bind_iff, panics_wrap_iff, pure, Except.pure]

theorem not_panics_storeTxMappings (block : ZKBlock) (txs : List Transaction) (store : Store) :
    ¬ Panics (storeTxMappings calls connection block txs store) := by
  induction txs generalizing store with
  | nil => exact not_panics_ok _
  | cons tx rest ih =>
    unfold storeTxMappings
    rw [panics_bind_iff, panics_wrap_iff]
    rintro (crashed | ⟨stored, -, crashed⟩)
    · exact not_panics_create own _ _ _ crashed
    · exact ih stored crashed

theorem panics_storeNewBlock_iff (block : ZKBlock) (store : Store) :
    Panics (storeNewBlock calls connection block store) ↔
      calls.selectMain (.verifiedSet (blockKey block)) = none ∧
        (∃ json, calls.marshalBlock block = .ok json) ∧ calls.verifiedSet.isSome = true := by
  have key : blockKey block ≠ "" := append_ne_empty (by decide) _
  have later : ∀ stored : Store, ¬ Panics
      (wrap "failed to store block hash mapping: "
          (create calls connection ("block:hash:0x" ++ @hexEncode 64 block.blockHash)
            (blockKey block) stored) >>= fun stored =>
        storeTxMappings calls connection block block.transactions stored) := by
    intro stored
    rw [panics_bind_iff, panics_wrap_iff]
    rintro (crashed | ⟨after, -, crashed⟩)
    · exact not_panics_create own _ _ _ crashed
    · exact not_panics_storeTxMappings own _ _ _ crashed
  unfold storeNewBlock
  rw [panics_bind_iff, panics_wrap_iff, ensureMainDBSelected_own own, panics_wrap_iff, own]
  simp only [not_panics_check, false_or, wrap_eq_ok_iff, check_eq_ok_iff, exists_and_left]
  constructor
  · rintro ⟨selected, -, crashed⟩
    rw [panics_bind_iff, panics_wrap_iff, panics_safeCreate_own_iff] at crashed
    rcases crashed with (empty | isNil | ⟨⟨bytes, encoded⟩, failed⟩) | ⟨stored, -, crashed⟩
    · exact absurd empty key
    · cases isNil
    · cases marshalled : calls.marshalBlock block with
      | error cause =>
        rw [marshalled] at encoded
        cases encoded
      | ok json => exact ⟨selected, ⟨json, rfl⟩, failed⟩
    · exact absurd crashed (later stored)
  · rintro ⟨selected, ⟨json, marshalled⟩, failed⟩
    refine ⟨selected, (), ?_⟩
    rw [panics_bind_iff, panics_wrap_iff, panics_safeCreate_own_iff, marshalled]
    exact .inl (.inr (.inr ⟨⟨json, rfl⟩, failed⟩))

/-- `StoreZKBlock` panics when the verified write of a new block fails. -/
theorem panics_storeZKBlock_iff (block : ZKBlock) (store : Store) :
    Panics (storeZKBlock calls (some connection) block store) ↔
      ReachesWrite calls block store ∧ calls.verifiedSet.isSome = true := by
  unfold storeZKBlock
  rw [panics_bind_iff, panics_wrapIn_iff]
  simp only [wrapIn_eq_ok_iff]
  rcases existsKey_own own calls (blockKey block) store with ⟨answers, done⟩ | ⟨fails, cause, failed⟩
  · simp only [done, not_panics_ok, false_or, Except.ok.injEq, exists_eq_left']
    cases stored : store (blockKey block) with
    | some bytes => simp [ReachesWrite, stored]
    | none =>
      rw [if_neg (by simp), dereference, ok_bind, panics_storeNewBlock_iff own]
      simp [ReachesWrite, stored, answers, and_assoc]
  · simp only [failed, not_panics_error, false_or, reduceCtorEq, false_and, exists_false,
      false_iff]
    exact fun reached => fails ⟨reached.1.1, reached.1.2.1⟩

theorem written_of_storeZKBlock {block : ZKBlock}
    (done : storeZKBlock calls (some connection) block store = .ok after) :
    calls.verifiedSet = none := by
  obtain ⟨found, -, done⟩ := bind_eq_ok done
  split at done
  · cases done
  rw [dereference, ok_bind] at done
  obtain ⟨_, -, done⟩ := bind_eq_ok done
  obtain ⟨stored, written, -⟩ := bind_eq_ok done
  rw [wrap_eq_ok_iff, own] at written
  exact (written_of_safeCreate_own client _ _ _ written).2.2

end

theorem written_of_recordEquivocationHash
    (done : recordEquivocationHash calls connection height hashHex store = .ok after) :
    calls.verifiedSet = none := by
  obtain ⟨taken, acquired, written⟩ := bind_eq_ok done
  rw [wrap_eq_ok_iff] at acquired written
  obtain ⟨client, own⟩ := client_of_withAccountsConn acquired
  rw [own] at written
  exact (written_of_safeCreate_own client _ _ _ written).2.2

theorem written_of_writeAnchorLocked {connection : PooledConnection}
    (own : connection.client = some client)
    (done : writeAnchorLocked calls connection value store = .ok after) :
    calls.verifiedSet = none := by
  rw [writeAnchorLocked, wrap_eq_ok_iff, own] at done
  exact (written_of_safeCreate_own client _ _ _ done).2.2

end

/-- The call does not panic, and a failure comes back as an error. -/
def FailSafe (failed : Prop) (outcome : Except Stop Store) : Prop :=
  ¬ Panics outcome ∧ (failed → Reports outcome)

theorem failSafe_iff {failed : Prop} {outcome : Except Stop Store}
    (honest : ∀ after, outcome = .ok after → ¬ failed) :
    FailSafe failed outcome ↔ ¬ Panics outcome :=
  ⟨And.left, fun calm => ⟨calm, reports_of_not_panics honest calm⟩⟩

/-- When a failed write comes back as an error: from `SafeCreate` with the
caller's client only if the key and the value are there and the value cannot be
encoded or is written; from its callers only if they stop before the write or it
succeeds. -/
theorem failed_write_reported_iff (calls : Calls) (connection : PooledConnection)
    {client : ImmuClient} (own : connection.client = some client) (key : String)
    (value : StoreValue) (given : Option PooledConnection) (height : UInt64) (hashHex : String)
    (anchor : UInt64) (block : ZKBlock) (store : Store) :
    (FailSafe (key = "" ∨ value.isNil = true ∨ calls.verifiedSet.isSome = true)
        (safeCreate calls (some client) key value store) ↔
      key ≠ "" ∧ value.isNil = false ∧
        (calls.verifiedSet.isSome = true → ∀ bytes, toBytes value ≠ .ok bytes)) ∧
    (FailSafe (calls.verifiedSet.isSome = true)
        (recordEquivocationHash calls given height hashHex store) ↔
      (calls.verifiedSet.isSome = true → ∀ taken, withAccountsConn calls given ≠ .ok taken)) ∧
    (FailSafe (calls.verifiedSet.isSome = true)
        (writeAnchorLocked calls connection anchor store) ↔
      calls.verifiedSet = none) ∧
    (FailSafe (calls.verifiedSet.isSome = true)
        (storeZKBlock calls (some connection) block store) ↔
      (calls.verifiedSet.isSome = true → ¬ ReachesWrite calls block store)) := by
  have unwritten : calls.verifiedSet = none → ¬ calls.verifiedSet.isSome = true := by
    intro written
    simp [written]
  refine ⟨?_, ?_, ?_, ?_⟩
  · rw [failSafe_iff, panics_safeCreate_own_iff]
    · simp only [not_or, not_and, ne_eq, Bool.not_eq_true]
      constructor
      · rintro ⟨present, valued, encoded⟩
        exact ⟨present, valued, fun failed bytes done => by
          have failing := encoded ⟨bytes, done⟩
          rw [failed] at failing
          cases failing⟩
      · rintro ⟨present, valued, encoded⟩
        refine ⟨present, valued, ?_⟩
        rintro ⟨bytes, done⟩
        exact Bool.eq_false_iff.mpr fun failed => encoded failed bytes done
    · intro after done
      obtain ⟨present, valued, written⟩ := written_of_safeCreate_own client key value store done
      rintro (empty | isNil | failed)
      · exact present empty
      · rw [valued] at isNil
        cases isNil
      · exact unwritten written failed
  · rw [failSafe_iff fun after done => unwritten (written_of_recordEquivocationHash done),
      panics_recordEquivocationHash_iff]
    simp only [not_and, forall_exists_index, ne_eq]
    exact ⟨fun calm failed taken done => calm taken done failed,
      fun calm taken done failed => calm failed taken done⟩
  · rw [failSafe_iff fun after done => unwritten (written_of_writeAnchorLocked own done),
      panics_writeAnchorLocked_iff own]
    simp
  · rw [failSafe_iff fun after done => unwritten (written_of_storeZKBlock own done),
      panics_storeZKBlock_iff own]
    exact ⟨fun calm failed reached => calm ⟨reached, failed⟩,
      fun calm both => calm both.2 both.1⟩

def accountsConnection : PooledConnection :=
  { client := some { database := "accountsdb" } }

/-- Every call succeeds but the verified write, which ends as given. -/
def callsWith (verifiedSet : Option String) : Calls :=
  { accountConnection := .ok accountsConnection
    mainConnection := .ok accountsConnection
    verifiedSet := verifiedSet
    marshalBlock := fun _ => .ok [] }

/-- The store refuses the write, and the pool has no connection. -/
def refusedCalls : Calls :=
  { callsWith (some "write refused") with accountConnection := .error "no connection" }

/-- A refused write does no harm where the caller stops before it. -/
theorem writes_are_failSafe :
    Reports (safeCreate refusedCalls (some { database := "accountsdb" }) "key"
        (.other (.error "unsupported type")) fun _ => none) ∧
      Reports (recordEquivocationHash refusedCalls none 7 "0xaa" fun _ => none) ∧
      Reports (storeZKBlock refusedCalls (some accountsConnection) {} fun _ => some []) ∧
      ¬ Panics (writeAnchorLocked (callsWith none) accountsConnection 7 fun _ => none) := by
  obtain ⟨create, record, -, stored⟩ := failed_write_reported_iff refusedCalls accountsConnection
    rfl "key" (.other (.error "unsupported type")) none 7 "0xaa" 7 {} fun _ => some []
  have refused : refusedCalls.verifiedSet.isSome = true := rfl
  refine ⟨?_, ?_, ?_, ?_⟩
  · exact (create.mpr ⟨by decide, rfl, fun _ _ => nofun⟩).2 (.inr (.inr refused))
  · exact (record.mpr fun _ _ => nofun).2 refused
  · exact (stored.mpr fun _ reached => nomatch reached.2.2.1).2 refused
  · exact ((failed_write_reported_iff (callsWith none) accountsConnection rfl "key" .nil none 7
      "0xaa" 7 {} fun _ => none).2.2.1.mpr rfl).1

/-- When the store refuses the write, `SafeCreate` and its callers read through a
nil pointer instead of returning the error; with an empty key it does so without a
write. -/
theorem refused_write_panics :
    safeCreate (callsWith (some "write refused")) (some { database := "accountsdb" }) "key"
        (.text "value") (fun _ => none) = .error (.panicked .nilDereference) ∧
      safeCreate (callsWith none) (some { database := "accountsdb" }) "" (.text "value")
        (fun _ => none) = .error (.panicked .nilDereference) ∧
      safeCreate (callsWith none) (some { database := "accountsdb" }) "key" .nil
        (fun _ => none) = .error (.panicked .nilDereference) ∧
      recordEquivocationHash (callsWith (some "write refused")) (some accountsConnection) 7 "0xaa"
        (fun _ => none) = .error (.panicked .nilDereference) ∧
      writeAnchorLocked (callsWith (some "write refused")) accountsConnection 7
        (fun _ => none) = .error (.panicked .nilDereference) ∧
      storeZKBlock (callsWith (some "write refused")) (some accountsConnection) {}
        (fun _ => none) = .error (.panicked .nilDereference) :=
  ⟨rfl, rfl, rfl, rfl, rfl, rfl⟩

end Jmdn.DBOPs.VerifiedWrite
