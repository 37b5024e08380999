import Jmdn.Go.Errors
import Jmdn.Security.Cache
import Jmdn.Security.Checks

/-!
# Block validation before a vote

`CheckZKBlockValidation` of `Security/Security.go`: the transactions of a block
are checked one after another against a cache that simulates their execution.
An honest voter approves a block exactly when the call returns true.
-/

namespace Jmdn.Security

open Config DBOPs Go

variable {before after : SecurityCache} {tx : Transaction} {sender : Address} {result : Unit}

/-- What the voter's checks read besides the block and the accounts: the
configured chain, the package switch, the outside functions, and whether the
database answers. -/
structure Voter where
  expectedChainID : Option Int := none
  allowNewReceiverAccounts : Bool := true
  crypto : Crypto
  connectionsOk : Bool := true
  loadOk : Bool := true

inductive ValidationError where
  | noTransactions
  | connectionFailed
  | loadAccountsFailed
  | chainIDNotConfigured
  | chainIDMissing
  | chainIDMismatch (got expected : Int)
  | hashMismatch
  | invalidSignature
  | senderNotFound (sender : Address)
  | receiverNotFound (receiver : Address)
  | invalidBalance (sender : Address)
  | insufficientFunds
  | nonceTooLow (submitted expected : UInt64)
  | blockHashMismatch
  deriving DecidableEq, Repr

/-- How a check ends without approval: by an error, or by dereferencing a nil
pointer. -/
inductive Refusal where
  | nilDereference
  | rejected (cause : ValidationError)
  deriving DecidableEq, Repr

/-- The chain identifier of a transaction against the configured one. -/
def checkChainID (voter : Voter) (tx : Transaction) : Except Refusal Unit :=
  match voter.expectedChainID, tx.chainID with
  | none, _ => .error (.rejected .chainIDNotConfigured)
  | some _, none => .error (.rejected .chainIDMissing)
  | some expected, some got =>
    if got = expected then .ok () else .error (.rejected (.chainIDMismatch got expected))

/-- `CheckAddressExistWithCache`, with `From` dereferenced. -/
def checkAddressExistWithCache (voter : Voter) (tx : Transaction) (sender : Address)
    (cache : SecurityCache) : Except Refusal Unit :=
  if (cache.getAccount sender).isNone then .error (.rejected (.senderNotFound sender))
  else
    match tx.toAddr with
    | none => .ok ()
    | some receiver =>
      if !voter.allowNewReceiverAccounts ∧ (cache.getAccount receiver).isNone then
        .error (.rejected (.receiverNotFound receiver))
      else .ok ()

/-- `CheckBalanceWithCache`: the sender pays value and fee, the receiver gets the
value, and nobody gets the fee. -/
def checkBalanceWithCache (tx : Transaction) (sender : Address) (cache : SecurityCache) :
    Except Refusal SecurityCache :=
  match cache.getAccount sender with
  | none => .error (.rejected (.senderNotFound sender))
  | some doc =>
    match setString doc.balance with
    | none => .error (.rejected (.invalidBalance sender))
    | some balance =>
      match tx.value with
      -- `new(big.Int).Set(tx.Value)`
      | none => .error .nilDereference
      | some cost =>
        let totalCost := cost + tx.gasFee
        if balance < totalCost then .error (.rejected .insufficientFunds)
        else
          let deducted := cache.subBalance sender totalCost
          match tx.toAddr with
          | none => .ok deducted
          | some receiver => .ok (deducted.addBalance receiver cost)

/-- The nonce check, which also moves the cached nonce past the transaction. -/
def checkNonceWithCache (tx : Transaction) (sender : Address) (cache : SecurityCache) :
    Except Refusal SecurityCache :=
  match cache.getAccount sender with
  | none => .error (.rejected (.senderNotFound sender))
  | some doc =>
    if tx.nonce < doc.txNonce then .error (.rejected (.nonceTooLow tx.nonce doc.txNonce))
    else .ok (cache.updateTxNonce sender (tx.nonce + 1))

/-- A check that rejects with a cause. -/
def require (passed : Bool) (cause : ValidationError) : Except Refusal Unit :=
  if passed then .ok () else .error (.rejected cause)

/-- Reading through a pointer. -/
def dereference {α : Type} : Option α → Except Refusal α
  | none => .error .nilDereference
  | some value => .ok value

/-- `allChecksWithConn`. -/
def allChecksWithConn (voter : Voter) (tx : Transaction) (cache : SecurityCache) :
    Except Refusal SecurityCache := do
  checkChainID voter tx
  require (checkTransactionHash voter.crypto tx) .hashMismatch
  require (checkSignature voter.crypto voter.expectedChainID tx) .invalidSignature
  let sender ← dereference tx.fromAddr
  checkAddressExistWithCache voter tx sender cache
  let deducted ← checkBalanceWithCache tx sender cache
  checkNonceWithCache tx sender deducted

/-- The loop over the transactions. -/
def validateTransactions (voter : Voter) : List Transaction → SecurityCache →
    Except Refusal SecurityCache
  | [], cache => .ok cache
  | tx :: rest, cache => do
      let next ← allChecksWithConn voter tx cache
      validateTransactions voter rest next

/-- The addresses of senders and receivers; `none` if a nil `From` is
dereferenced. -/
def collectAddresses : List Transaction → Option (List Address)
  | [] => some []
  | tx :: rest =>
    match tx.fromAddr, collectAddresses rest with
    | some sender, some others => some (sender :: (tx.toAddr.toList ++ others))
    | _, _ => none

/-- `CheckZKBlockValidation`; `.ok` is the result `true, nil`. -/
def checkZKBlockValidation (voter : Voter) (store : Accounts) (block : ZKBlock) :
    Except Refusal Unit :=
  if block.transactions = [] then .error (.rejected .noTransactions)
  else if !voter.connectionsOk then .error (.rejected .connectionFailed)
  else
    match collectAddresses block.transactions with
    | none => .error .nilDereference
    | some collected =>
      if !voter.loadOk then .error (.rejected .loadAccountsFailed)
      else
        match validateTransactions voter block.transactions
            (SecurityCache.loadAccounts store collected) with
        | .error refusal => .error refusal
        | .ok _ =>
          if voter.crypto.keccak256 (txHashes block) = block.blockHash then .ok ()
          else .error (.rejected .blockHashMismatch)

/-! ## What approval means -/

/-- A transaction passed the checks of a voter, which turned one cache into
another. -/
structure Approved (voter : Voter) (tx : Transaction) (before after : SecurityCache) : Prop where
  chain : voter.expectedChainID = tx.chainID
  hash : checkTransactionHash voter.crypto tx = true
  signed : checkSignature voter.crypto voter.expectedChainID tx = true
  value : tx.value.isSome
  funded : ∃ sender balance, tx.fromAddr = some sender ∧
    (before.accounts.get sender).isSome ∧ before.accounts.amount sender = some balance ∧
    tx.value.getD 0 + tx.gasFee ≤ balance ∧ before.accounts.txNonce sender ≤ tx.nonce
  cached : ∀ address,
    (after.accounts.get address).isSome = (before.accounts.get address).isSome
  amount : ∀ address, (before.accounts.get address).isSome →
    after.accounts.amount address = (before.accounts.amount address).map fun balance =>
      balance + (changeAt tx.fromAddr (-(tx.value.getD 0 + tx.gasFee)) address +
        changeAt tx.toAddr (tx.value.getD 0) address)
  txNonce : ∀ address, after.accounts.txNonce address =
    if tx.fromAddr = some address then tx.nonce + 1 else before.accounts.txNonce address

variable {voter : Voter}

theorem checkChainID_eq_ok_iff :
    checkChainID voter tx = .ok result ↔
      ∃ chain, voter.expectedChainID = some chain ∧ tx.chainID = some chain := by
  unfold checkChainID
  cases voter.expectedChainID with
  | none => simp
  | some expected =>
    cases tx.chainID with
    | none => simp
    | some got => by_cases same : got = expected <;> simp [same, eq_comm]

/-- The balance check moves the value in the cache and burns the fee. -/
theorem checkBalanceWithCache_ok (passed : checkBalanceWithCache tx sender before = .ok after) :
    tx.value.isSome ∧ (before.accounts.get sender).isSome ∧
      (∃ balance, before.accounts.amount sender = some balance ∧
        tx.value.getD 0 + tx.gasFee ≤ balance) ∧
      (∀ addr, (after.accounts.get addr).isSome = (before.accounts.get addr).isSome ∧
        after.accounts.txNonce addr = before.accounts.txNonce addr) ∧
      ∀ addr, (before.accounts.get addr).isSome →
        after.accounts.amount addr = (before.accounts.amount addr).map fun balance =>
          balance + (changeAt (some sender) (-(tx.value.getD 0 + tx.gasFee)) addr +
            changeAt tx.toAddr (tx.value.getD 0) addr) := by
  unfold checkBalanceWithCache at passed
  split at passed
  · cases passed
  next doc found =>
  have stored : before.accounts.get sender = some doc := found
  split at passed
  · cases passed
  next balance parsed =>
  split at passed
  · cases passed
  next cost known =>
  dsimp only at passed
  split at passed
  · cases passed
  next enough =>
  rw [SecurityCache.subBalance_eq_addBalance] at passed
  rw [known, Option.getD_some]
  have deducted := before.changeBalance_others sender
    fun balance => balance + -(cost + tx.gasFee)
  refine ⟨rfl, by rw [stored]; rfl, ⟨balance, ?_, by omega⟩, ?_⟩
  · rw [Accounts.amount_of_stored stored, parsed]
  · cases receiver : tx.toAddr with
    | none =>
      simp only [receiver] at passed
      cases passed
      refine ⟨deducted, fun addr cached => ?_⟩
      rw [before.addBalance_amount sender _ cached]
      simp [changeAt_apply]
    | some to_ =>
      simp only [receiver] at passed
      cases passed
      have credited := (before.addBalance sender
        (-(cost + tx.gasFee))).changeBalance_others to_
          fun balance => balance + cost
      refine ⟨fun addr => ⟨?_, ?_⟩, fun addr cached => ?_⟩
      · exact (credited addr).1.trans (deducted addr).1
      · exact (credited addr).2.trans (deducted addr).2
      · have still : ((before.addBalance sender
            (-(cost + tx.gasFee))).accounts.get addr).isSome := by
          rw [← cached]
          exact (deducted addr).1
        rw [SecurityCache.addBalance_amount _ _ _ still,
          before.addBalance_amount sender _ cached, Option.map_map]
        refine congrArg (Option.map · _) (funext fun held => ?_)
        exact add_assoc _ _ _

theorem checkNonceWithCache_ok (passed : checkNonceWithCache tx sender before = .ok after) :
    before.accounts.txNonce sender ≤ tx.nonce ∧
      (before.accounts.get sender).isSome ∧
      after = before.updateTxNonce sender (tx.nonce + 1) := by
  unfold checkNonceWithCache at passed
  split at passed
  · cases passed
  next doc found =>
  have stored : before.accounts.get sender = some doc := found
  split at passed
  · cases passed
  next fresh =>
  cases passed
  rw [Accounts.txNonce_of_stored stored, stored]
  exact ⟨UInt64.not_lt.mp fresh, rfl, rfl⟩

theorem require_eq_ok_iff {passed : Bool} {cause : ValidationError} :
    require passed cause = .ok result ↔ passed = true := by
  cases passed <;> simp [require]

theorem dereference_ok {α : Type} {pointer : Option α} {value : α}
    (done : dereference pointer = .ok value) : pointer = some value := by
  cases pointer with
  | none => cases done
  | some found =>
    cases done
    rfl

theorem allChecksWithConn_ok (passed : allChecksWithConn voter tx before = .ok after) :
    Approved voter tx before after := by
  obtain ⟨_, chained, passed⟩ := bind_eq_ok passed
  obtain ⟨_, hashed, passed⟩ := bind_eq_ok passed
  obtain ⟨_, signed, passed⟩ := bind_eq_ok passed
  obtain ⟨sender, dereferenced, passed⟩ := bind_eq_ok passed
  obtain ⟨_, _, passed⟩ := bind_eq_ok passed
  obtain ⟨deducted, balanced, passed⟩ := bind_eq_ok passed
  have known := dereference_ok dereferenced
  obtain ⟨value, cached, ⟨balance, held, enough⟩, others, amount⟩ :=
    checkBalanceWithCache_ok balanced
  obtain ⟨fresh, still, rfl⟩ := checkNonceWithCache_ok passed
  rw [(others sender).2] at fresh
  constructor
  case chain =>
    obtain ⟨chain, configured, given⟩ := checkChainID_eq_ok_iff.mp chained
    rw [configured, given]
  case hash => exact require_eq_ok_iff.mp hashed
  case signed => exact require_eq_ok_iff.mp signed
  case value => exact value
  case funded => exact ⟨sender, balance, known, cached, held, enough, fresh⟩
  case cached =>
    intro addr
    rw [(deducted.updateTxNonce_others sender _ addr).1, (others addr).1]
  case amount =>
    intro addr inCache
    rw [(deducted.updateTxNonce_others sender _ addr).2, amount addr inCache, known]
  case txNonce =>
    intro addr
    rw [deducted.updateTxNonce_txNonce sender _ addr still, (others addr).2, known]
    simp only [Option.some.injEq, eq_comm]

/-- The transactions of a block passed one after another. -/
inductive ApprovedAll (voter : Voter) : SecurityCache → List Transaction → Prop
  | nil (cache : SecurityCache) : ApprovedAll voter cache []
  | cons {before after : SecurityCache} {tx : Transaction} {rest : List Transaction} :
      Approved voter tx before after → ApprovedAll voter after rest →
      ApprovedAll voter before (tx :: rest)

theorem validateTransactions_ok {txs : List Transaction}
    (passed : validateTransactions voter txs before = .ok after) :
    ApprovedAll voter before txs := by
  induction txs generalizing before with
  | nil => exact ApprovedAll.nil before
  | cons tx rest ih =>
    obtain ⟨middle, first, later⟩ := bind_eq_ok passed
    exact ApprovedAll.cons (allChecksWithConn_ok first) (ih later)

theorem checkZKBlockValidation_ok {store : Accounts} {block : ZKBlock}
    (approved : checkZKBlockValidation voter store block = .ok ()) :
    block.transactions ≠ [] ∧ voter.crypto.keccak256 (txHashes block) = block.blockHash ∧
      ∃ collected, collectAddresses block.transactions = some collected ∧
        ApprovedAll voter (SecurityCache.loadAccounts store collected) block.transactions := by
  unfold checkZKBlockValidation at approved
  split at approved
  · cases approved
  next nonempty =>
  split at approved
  · cases approved
  split at approved
  · cases approved
  next collected found =>
  split at approved
  · cases approved
  split at approved
  · cases approved
  next passed =>
  split at approved
  · next same =>
    exact ⟨nonempty, same, collected, found, validateTransactions_ok passed⟩
  · cases approved

end Jmdn.Security
