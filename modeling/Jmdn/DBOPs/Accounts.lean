import Jmdn.Config.Types
import Jmdn.Go.Decimal

/-!
# The accounts store

The `address:` keys of accountsdb.  Every writer derives the key from the
document's own address, so a store is a partial map whose documents carry the
address they are filed under.

The ledger fields of an absent account read as zero.  The balance of a stored
account is its decimal text; `amount` is the number it denotes, if any.
-/

namespace Jmdn.DBOPs

open Config Go List

variable {doc : Account}

/-- The documents under `address:` keys. -/
structure Accounts where
  get : Address → Option Account
  keyed : ∀ address doc, get address = some doc → doc.address = address

variable {store : Accounts}

namespace Accounts

variable {addr : Address}

@[ext]
theorem ext {first second : Accounts}
    (equal : ∀ addr, first.get addr = second.get addr) : first = second := by
  cases first
  cases second
  simp only [mk.injEq]
  exact funext equal

def empty : Accounts where
  get _ := none
  keyed := by simp

/-- Write one document under the key of its address. -/
def put (store : Accounts) (doc : Account) : Accounts where
  get := Function.update store.get doc.address (some doc)
  keyed := by
    intro address found stored
    by_cases same : address = doc.address
    · subst same
      rw [Function.update_self] at stored
      rw [Option.some.inj stored]
    · rw [Function.update_of_ne same] at stored
      exact store.keyed address found stored

theorem put_get (store : Accounts) (doc : Account) (addr : Address) :
    (store.put doc).get addr = if addr = doc.address then some doc else store.get addr := by
  simp only [put, Function.update_apply]

@[simp]
theorem put_get_self (store : Accounts) (doc : Account) :
    (store.put doc).get doc.address = some doc := by
  simp [put_get]

theorem put_get_of_ne (store : Accounts) (different : addr ≠ doc.address) :
    (store.put doc).get addr = store.get addr := by
  simp [put_get, different]

/-- Writing the documents a function gives for the listed addresses: each of
these gets its document, every other keeps what it had. -/
theorem foldl_put_get (docs : Address → Option Account)
    (keyed : ∀ addr doc, docs addr = some doc → doc.address = addr) :
    ∀ (order : List Address) (store : Accounts) (addr : Address),
      ((order.filterMap docs).foldl put store).get addr =
        if addr ∈ order ∧ (docs addr).isSome then docs addr else store.get addr := by
  intro order
  induction order with
  | nil => simp
  | cons first rest ih =>
    intro store addr
    cases staged : docs first with
    | none =>
      rw [filterMap_cons_none staged, ih]
      by_cases same : addr = first
      · subst same
        simp [staged]
      · simp [same]
    | some doc =>
      rw [filterMap_cons_some staged, foldl_cons, ih, put_get,
        keyed first doc staged]
      by_cases same : addr = first
      · subst same
        simp [staged]
      · simp [same]

/-- A document that is found was there or is one of those written. -/
theorem foldl_put_mem (docs : List Account) (store : Accounts) (addr : Address) :
    (docs.foldl put store).get addr = store.get addr ∨
      ∃ doc ∈ docs, doc.address = addr ∧ (docs.foldl put store).get addr = some doc := by
  induction docs generalizing store with
  | nil => exact .inl rfl
  | cons first rest ih =>
    rcases ih (store.put first) with kept | ⟨doc, mem, located, found⟩
    · rw [foldl_cons, kept, put_get]
      split
      · next here => exact .inr ⟨first, mem_cons_self, here.symm, rfl⟩
      · exact .inl rfl
    · exact .inr ⟨doc, mem_cons_of_mem _ mem, located, found⟩

/-- The stored balance text; an absent account reads as `"0"`. -/
def balance (store : Accounts) (address : Address) : String :=
  (store.get address).elim "0" Account.balance

/-- The number a balance denotes. -/
def amount (store : Accounts) (address : Address) : Option Int :=
  setString (store.balance address)

/-- The Ethereum nonce; an absent account reads as zero. -/
def txNonce (store : Accounts) (address : Address) : UInt64 :=
  (store.get address).elim 0 Account.txNonce

/-- The number of sent transactions; an absent account reads as zero. -/
def txCountSent (store : Accounts) (address : Address) : UInt64 :=
  (store.get address).elim 0 Account.txCountSent

theorem setString_zero : setString "0" = some 0 := by decide

theorem amount_of_absent (absent : store.get addr = none) : store.amount addr = some 0 := by
  simp [amount, balance, absent, setString_zero]

section

variable (stored : store.get addr = some doc)
include stored

theorem amount_of_stored :
    store.amount addr = setString doc.balance := by
  simp [amount, balance, stored]

/-- A balance that was written as a number is read back as that number. -/
theorem amount_of_formatted {held : Int} (written : doc.balance = formatInt held) :
    store.amount addr = some held := by
  rw [amount_of_stored stored, written, setString_formatInt]

theorem txNonce_of_stored :
    store.txNonce addr = doc.txNonce := by
  simp [txNonce, stored]

theorem txCountSent_of_stored :
    store.txCountSent addr = doc.txCountSent := by
  simp [txCountSent, stored]

end

theorem amount_congr {first second : Accounts} (equal : first.get addr = second.get addr) :
    first.amount addr = second.amount addr := by
  simp [amount, balance, equal]

theorem put_amount (store : Accounts) (doc : Account) (addr : Address) :
    (store.put doc).amount addr =
      if addr = doc.address then setString doc.balance else store.amount addr := by
  by_cases same : addr = doc.address <;> simp [amount, balance, put_get, same]

theorem put_txNonce (store : Accounts) (doc : Account) (addr : Address) :
    (store.put doc).txNonce addr =
      if addr = doc.address then doc.txNonce else store.txNonce addr := by
  by_cases same : addr = doc.address <;> simp [txNonce, put_get, same]

theorem put_txCountSent (store : Accounts) (doc : Account) (addr : Address) :
    (store.put doc).txCountSent addr =
      if addr = doc.address then doc.txCountSent else store.txCountSent addr := by
  by_cases same : addr = doc.address <;> simp [txCountSent, put_get, same]

end Accounts

/-- Two stores agree on balance, nonce and sent count of every address. -/
structure SameLedger (first second : Accounts) : Prop where
  amount : ∀ address, first.amount address = second.amount address
  txNonce : ∀ address, first.txNonce address = second.txNonce address
  txCountSent : ∀ address, first.txCountSent address = second.txCountSent address

namespace SameLedger

variable {first second third : Accounts}

theorem refl (store : Accounts) : SameLedger store store :=
  ⟨fun _ => rfl, fun _ => rfl, fun _ => rfl⟩

theorem trans (one : SameLedger first second) (two : SameLedger second third) :
    SameLedger first third where
  amount addr := (one.amount addr).trans (two.amount addr)
  txNonce addr := (one.txNonce addr).trans (two.txNonce addr)
  txCountSent addr := (one.txCountSent addr).trans (two.txCountSent addr)

/-- A document that repeats the ledger fields of its address changes nothing. -/
theorem of_put (amount : setString doc.balance = store.amount doc.address)
    (txNonce : doc.txNonce = store.txNonce doc.address)
    (txCountSent : doc.txCountSent = store.txCountSent doc.address) :
    SameLedger (store.put doc) store where
  amount addr := by
    rw [Accounts.put_amount]
    split
    · next same => rw [amount, same]
    · rfl
  txNonce addr := by
    rw [Accounts.put_txNonce]
    split
    · next same => rw [txNonce, same]
    · rfl
  txCountSent addr := by
    rw [Accounts.put_txCountSent]
    split
    · next same => rw [txCountSent, same]
    · rfl

end SameLedger

/-- `UpdateAccount`: the write path refuses the zero address. -/
def updateAccount (store : Accounts) (doc : Account) : Option Accounts :=
  if doc.address = 0 then none else some (store.put doc)

end Jmdn.DBOPs
