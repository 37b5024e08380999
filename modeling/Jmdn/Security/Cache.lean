import Jmdn.Config.BalanceEffect
import Jmdn.DBOPs.Accounts

/-!
# The security cache

`SecurityCache` of `Security/security_cache.go`: the documents of a block's
senders and receivers, changed in memory while the block is checked.  The cache
map is keyed by the text of the document's own address.
-/

namespace Jmdn.Security

open Config DBOPs DBOPs.Accounts Go

variable {other : Address}

/-- The cached documents. -/
structure SecurityCache where
  accounts : Accounts

namespace SecurityCache

/-- `LoadAccounts` into a new cache: the stored documents of the collected
addresses. -/
def loadAccounts (store : Accounts) (collected : List Address) : SecurityCache where
  accounts :=
    { get := fun address => if address ∈ collected then store.get address else none
      keyed := by
        intro address doc found
        split at found
        · exact store.keyed address doc found
        · cases found }

/-- `GetAccount`. -/
def getAccount (cache : SecurityCache) (address : Address) : Option Account :=
  cache.accounts.get address

/-- Replace the balance of a cached account by a function of it.  An account
that is not cached, or whose balance is no number, stays as it is. -/
def changeBalance (cache : SecurityCache) (address : Address) (change : Int → Int) :
    SecurityCache :=
  match cache.getAccount address with
  | none => cache
  | some doc =>
    match setString doc.balance with
    | none => cache
    | some balance => ⟨cache.accounts.put { doc with balance := formatInt (change balance) }⟩

/-- `AddBalance`. -/
def addBalance (cache : SecurityCache) (address : Address) (wei : Int) : SecurityCache :=
  cache.changeBalance address fun balance => balance + wei

/-- `SubBalance`. -/
def subBalance (cache : SecurityCache) (address : Address) (wei : Int) : SecurityCache :=
  cache.changeBalance address fun balance => balance - wei

/-- `UpdateTxNonce`. -/
def updateTxNonce (cache : SecurityCache) (address : Address) (newNonce : UInt64) :
    SecurityCache :=
  match cache.getAccount address with
  | none => cache
  | some doc => ⟨cache.accounts.put { doc with txNonce := newNonce }⟩

/-! ## What the updates change -/

variable (cache : SecurityCache) (addr : Address)

theorem isSome_put {store : Accounts} {doc : Account} (stored : (store.get doc.address).isSome) :
    ((store.put doc).get other).isSome = (store.get other).isSome := by
  rw [put_get]
  split
  · next same => rw [same, stored, Option.isSome_some]
  · rfl

/-- A changed balance leaves the cached addresses and their nonces alone. -/
theorem changeBalance_others (change : Int → Int) (other : Address) :
    ((cache.changeBalance addr change).accounts.get other).isSome =
        (cache.accounts.get other).isSome ∧
      (cache.changeBalance addr change).accounts.txNonce other =
        cache.accounts.txNonce other := by
  unfold changeBalance
  split
  · exact ⟨rfl, rfl⟩
  next doc found =>
  have stored : cache.accounts.get addr = some doc := found
  have keyed := cache.accounts.keyed addr doc stored
  split
  · exact ⟨rfl, rfl⟩
  constructor
  · apply isSome_put
    rw [keyed, stored]
    rfl
  · rw [put_txNonce]
    split
    · next same => rw [same, keyed, txNonce_of_stored stored]
    · rfl

theorem changeBalance_amount (change : Int → Int) (other : Address) :
    (cache.changeBalance addr change).accounts.amount other =
      if other = addr ∧ (cache.accounts.get addr).isSome then
        (cache.accounts.amount addr).map change
      else cache.accounts.amount other := by
  unfold changeBalance
  split
  · next missing =>
    have absent : cache.accounts.get addr = none := missing
    rw [absent, if_neg (by simp)]
  next doc found =>
  have stored : cache.accounts.get addr = some doc := found
  have keyed := cache.accounts.keyed addr doc stored
  split
  · next unreadable =>
    split
    · next same =>
      rw [same.1, amount_of_stored stored, unreadable]
      rfl
    · rfl
  · next balance parsed =>
    simp [put_amount, keyed, stored, amount_of_stored stored, parsed]

theorem addBalance_amount (wei : Int) (cached : (cache.accounts.get other).isSome) :
    (cache.addBalance addr wei).accounts.amount other =
      (cache.accounts.amount other).map fun balance =>
        balance + changeAt (some addr) wei other := by
  rw [addBalance, changeBalance_amount]
  simp only [changeAt_apply, Option.some.injEq]
  by_cases same : other = addr
  · subst same
    simp [cached]
  · simp [same, Ne.symm same]

theorem subBalance_eq_addBalance (wei : Int) :
    cache.subBalance addr wei = cache.addBalance addr (-wei) := by
  simp only [subBalance, addBalance, Int.sub_eq_add_neg]

/-- A changed nonce leaves the cached addresses and their balances alone. -/
theorem updateTxNonce_others (newNonce : UInt64) (other : Address) :
    ((cache.updateTxNonce addr newNonce).accounts.get other).isSome =
        (cache.accounts.get other).isSome ∧
      (cache.updateTxNonce addr newNonce).accounts.amount other =
        cache.accounts.amount other := by
  unfold updateTxNonce
  split
  · exact ⟨rfl, rfl⟩
  next doc found =>
  have stored : cache.accounts.get addr = some doc := found
  have keyed := cache.accounts.keyed addr doc stored
  constructor
  · apply isSome_put
    rw [keyed, stored]
    rfl
  · rw [put_amount]
    split
    · next same => rw [same, keyed, amount_of_stored stored]
    · rfl

theorem updateTxNonce_txNonce (newNonce : UInt64) (other : Address)
    (cached : (cache.accounts.get addr).isSome) :
    (cache.updateTxNonce addr newNonce).accounts.txNonce other =
      if other = addr then newNonce else cache.accounts.txNonce other := by
  obtain ⟨doc, stored⟩ := Option.isSome_iff_exists.mp cached
  have keyed := cache.accounts.keyed addr doc stored
  simp only [updateTxNonce, getAccount, stored, put_txNonce, keyed]

end SecurityCache

end Jmdn.Security
