import Jmdn.BlockProcessing.Execution
import Jmdn.Config.BalanceEffect
import Jmdn.Go.Errors
import Jmdn.Ledger.Effect

/-!
# The effect of live execution

A transaction that executes adds exactly its `balanceEffect` to the balances,
sets the sender's nonce past its own, counts one more sent transaction for the
sender, and marks itself applied.
-/

namespace Jmdn.BlockProcessing

open Config DBOPs DBOPs.Accounts Go Ledger

variable {blockTimestamp : Int64} {store : Accounts}
  {recipient sender coinbase zkvm address : Address} {carried : Address → Option UInt64}
  {stage next : TxStage} {tx : Transaction} {env : Env} {block : ZKBlock} {total add : Int}

/-! ## What each staging step does -/

/-- The fields of a document that are not its ledger. -/
structure Identity where
  nonce : UInt64
  didAddress : String
  accountType : String
  createdAt : Int64
  metadata : Option String
  deriving DecidableEq, Repr

/-- The identity of a document. -/
def identityOf (doc : Account) : Identity where
  nonce := doc.nonce
  didAddress := doc.didAddress
  accountType := doc.accountType
  createdAt := doc.createdAt
  metadata := doc.metadata

/-- The identity stored under an address. -/
def identityAt (store : Accounts) (address : Address) : Option Identity :=
  (store.get address).map identityOf

/-- A document whose balance was written at a given time. -/
def Stamped (store : Accounts) (time : Int64) (address : Address) : Prop :=
  ∃ doc amount, store.get address = some doc ∧ doc.balance = formatInt amount ∧
    doc.updatedAt = time

/-- Balances of some addresses were rewritten at a given time; no identity
changed. -/
structure Writes (before after : Accounts) (time : Int64) (touched : Set Address) : Prop where
  kept : ∀ address ∉ touched, after.get address = before.get address
  stamped : ∀ address ∈ touched, Stamped after time address
  identity : ∀ address, identityAt after address = identityAt before address

namespace Writes

variable {before middle after : Accounts} {time : Int64} {touched earlier later : Set Address}

theorem refl (store : Accounts) (time : Int64) : Writes store store time ∅ where
  kept _ _ := rfl
  stamped := by simp
  identity _ := rfl

theorem trans (one : Writes before middle time earlier) (two : Writes middle after time later) :
    Writes before after time (earlier ∪ later) where
  kept addr absent := by
    rw [two.kept addr fun mem => absent (.inr mem),
      one.kept addr fun mem => absent (.inl mem)]
  stamped addr mem := by
    by_cases last : addr ∈ later
    · exact two.stamped addr last
    · have first := one.stamped addr (mem.resolve_right last)
      unfold Stamped at first ⊢
      rwa [two.kept addr last]
  identity addr := (two.identity addr).trans (one.identity addr)

theorem put {store : Accounts} {doc changed : Account} {amount : Int}
    (stored : store.get address = some doc) (sameAddress : changed.address = doc.address)
    (sameIdentity : identityOf changed = identityOf doc)
    (balance : changed.balance = formatInt amount) (updatedAt : changed.updatedAt = time) :
    Writes store (store.put changed) time {address} := by
  have keyed : changed.address = address := sameAddress.trans (store.keyed address doc stored)
  constructor
  · intro other different
    exact store.put_get_of_ne (keyed ▸ different)
  · rintro other rfl
    refine ⟨changed, amount, ?_, balance, updatedAt⟩
    rw [← keyed, put_get_self]
  · intro other
    unfold identityAt
    rw [put_get]
    split
    · next same =>
      rw [same, keyed, stored, Option.map_some, Option.map_some, sameIdentity]
    · rfl

end Writes

/-- What crediting does to a store: balances move, nonces and counts stay. -/
structure Credits (before after : Accounts) (time : Int64) (delta : Address → Int)
    (touched : Set Address) : Prop extends Writes before after time touched where
  adds : Adds before.amount after.amount delta touched
  gains : ∀ address, 0 ≤ delta address
  readable : ∀ address ∈ touched, (before.amount address).isSome
  txNonce : ∀ address, after.txNonce address = before.txNonce address
  txCountSent : ∀ address, after.txCountSent address = before.txCountSent address

namespace Credits

variable {before middle after : Accounts} {time : Int64} {first second : Address → Int}
variable {earlier later : Set Address}

theorem refl (store : Accounts) (time : Int64) : Credits store store time 0 ∅ where
  toWrites := Writes.refl store time
  adds := Adds.refl _
  gains _ := le_refl 0
  readable := by simp
  txNonce _ := rfl
  txCountSent _ := rfl

theorem trans (one : Credits before middle time first earlier)
    (two : Credits middle after time second later) :
    Credits before after time (first + second) (earlier ∪ later) where
  toWrites := one.toWrites.trans two.toWrites
  adds := one.adds.trans two.adds
  gains addr := add_nonneg (one.gains addr) (two.gains addr)
  readable addr mem := by
    by_cases touchedFirst : addr ∈ earlier
    · exact one.readable addr touchedFirst
    · rw [← one.adds.kept addr touchedFirst]
      exact two.readable addr (mem.resolve_left touchedFirst)
  txNonce addr := (two.txNonce addr).trans (one.txNonce addr)
  txCountSent addr := (two.txCountSent addr).trans (one.txCountSent addr)

end Credits

/-- A nonce is adopted where a document holds another one; elsewhere there is
none to adopt. -/
theorem adoptCarriedNonce_cases (store : Accounts) (stage : TxStage) (addr : Address)
    (carried : Address → Option UInt64) :
    (adoptCarriedNonce store stage addr carried = stage ∧
      ∀ doc, (stage.overlay store).get addr = some doc →
        ∀ nonce, carried addr = some nonce → nonce ≠ 0 → doc.nonce = nonce) ∨
      ∃ doc nonce, (stage.overlay store).get addr = some doc ∧ carried addr = some nonce ∧
        nonce ≠ 0 ∧ adoptCarriedNonce store stage addr carried = stage.put { doc with nonce } := by
  rw [TxStage.overlay_get]
  unfold adoptCarriedNonce
  cases known : carried addr with
  | none => exact .inl ⟨rfl, nofun⟩
  | some nonce =>
    cases found : stage.get store addr with
    | none => exact .inl ⟨ite_self stage, nofun⟩
    | some doc =>
      dsimp only
      split_ifs with zero same
      · exact .inl ⟨rfl, fun _ _ _ carries nonzero => absurd (Option.some.inj carries ▸ zero)
          nonzero⟩
      · exact .inl ⟨rfl, by simp [same]⟩
      · exact .inr ⟨doc, nonce, rfl, rfl, zero, rfl⟩

theorem adoptCarriedNonce_sameLedger (store : Accounts) (stage : TxStage) (addr : Address)
    (carried : Address → Option UInt64) :
    SameLedger ((adoptCarriedNonce store stage addr carried).overlay store)
      (stage.overlay store) := by
  rcases adoptCarriedNonce_cases store stage addr carried with
    ⟨same, -⟩ | ⟨doc, nonce, visible, -, -, staged⟩
  · rw [same]
    exact SameLedger.refl _
  · rw [staged, TxStage.overlay_put]
    have keyed := (stage.overlay store).keyed addr doc visible
    apply SameLedger.of_put
    · rw [keyed, amount_of_stored visible]
    · rw [keyed, txNonce_of_stored visible]
    · rw [keyed, txCountSent_of_stored visible]

theorem createdRecipient_sameLedger (env : Env) (absent : store.get recipient = none)
    (carriedNonce : UInt64) (blockTimestamp : Int64) :
    SameLedger (store.put (createdRecipient env recipient carriedNonce blockTimestamp)) store := by
  have created : ∃ doc, createdRecipient env recipient carriedNonce blockTimestamp = doc ∧
      doc.address = recipient ∧ doc.balance = "0" ∧ doc.txNonce = 0 ∧ doc.txCountSent = 0 :=
    ⟨_, rfl, rfl, rfl, rfl, rfl⟩
  obtain ⟨doc, equal, keyed, balance, txNonce, txCountSent⟩ := created
  rw [equal]
  apply SameLedger.of_put
  · rw [keyed, balance, amount_of_absent absent, setString_zero]
  · rw [keyed, txNonce, Accounts.txNonce, absent, Option.elim_none]
  · rw [keyed, txCountSent, Accounts.txCountSent, absent, Option.elim_none]

section

variable (opened : openStage env store sender recipient blockTimestamp carried = .ok stage)
include opened

/-- A stage is opened over two stored accounts, or with the new account of a
recipient for which the block carries a nonce. -/
theorem openStage_cases : (store.get sender).isSome ∧
      ((store.get recipient).isSome ∧
          stage = adoptCarriedNonce store (adoptCarriedNonce store TxStage.new sender carried)
            recipient carried ∨
        store.get recipient = none ∧ ∃ carriedNonce, carried recipient = some carriedNonce ∧
          carriedNonce ≠ 0 ∧ stage = adoptCarriedNonce store
            (TxStage.new.put (createdRecipient env recipient carriedNonce blockTimestamp))
            sender carried) := by
  unfold openStage at opened
  split at opened
  · cases opened
  next present =>
  refine ⟨Option.isSome_iff_ne_none.mpr (by simpa using present), ?_⟩
  split at opened
  · next stored =>
    cases opened
    exact .inl ⟨stored, rfl⟩
  next missing =>
  split at opened
  · cases opened
  next carriedNonce kept =>
  obtain ⟨known, nonzero⟩ := Option.filter_eq_some_iff.mp kept
  split at opened
  · cases opened
    exact .inr ⟨by simpa using missing, carriedNonce, known, by simpa using nonzero,
      rfl⟩
  · cases opened

/-- Opening a stage leaves the ledger as it was. -/
theorem openStage_sameLedger :
    SameLedger (stage.overlay store) store := by
  obtain ⟨-, ⟨-, rfl⟩ | ⟨absent, carriedNonce, -, -, rfl⟩⟩ := openStage_cases opened
  · have adopted := adoptCarriedNonce_sameLedger store TxStage.new sender carried
    rw [TxStage.overlay_new] at adopted
    exact (adoptCarriedNonce_sameLedger store _ recipient carried).trans adopted
  · have created := createdRecipient_sameLedger env absent carriedNonce blockTimestamp
    rw [← TxStage.overlay_new store, ← TxStage.overlay_put] at created
    have adopted := adoptCarriedNonce_sameLedger store
      (TxStage.new.put (createdRecipient env recipient carriedNonce blockTimestamp)) sender carried
    simpa using adopted.trans created

end

theorem deductFromSender_ok
    (done : deductFromSender store stage tx sender (formatInt total) blockTimestamp = .ok next) :
    ∃ doc current, stage.get store sender = some doc ∧ setString doc.balance = some current ∧
      doc.txNonce ≤ tx.nonce ∧ 0 ≤ total ∧ total ≤ current ∧
      next = stage.put { doc with
        balance := formatInt (current - total)
        txNonce := tx.nonce + 1
        txCountSent := doc.txCountSent + 1
        updatedAt := blockTimestamp * nanosPerSecond } := by
  unfold deductFromSender at done
  split at done
  · cases done
  next doc found =>
  split at done
  · cases done
  next current parsed =>
  split at done
  · cases done
  next fresh =>
  rw [setString_formatInt] at done
  dsimp only at done
  split at done
  · cases done
  next nonnegative =>
  split at done
  · cases done
  next enough =>
  cases done
  exact ⟨doc, current, found, parsed, UInt64.not_lt.mp fresh,
    Int.not_lt.mp nonnegative, Int.not_lt.mp enough, rfl⟩

theorem addToRecipient_ok
    (done : addToRecipient store recipient (formatInt add) stage blockTimestamp = .ok next) :
    ∃ doc current, stage.get store recipient = some doc ∧ setString doc.balance = some current ∧
      0 ≤ add ∧
      next = stage.put { doc with
        balance := formatInt (current + add)
        updatedAt := blockTimestamp * nanosPerSecond } := by
  unfold addToRecipient at done
  split at done
  · cases done
  next doc found =>
  split at done
  · cases done
  next current parsed =>
  rw [setString_formatInt] at done
  dsimp only at done
  split at done
  · cases done
  · next nonnegative =>
    cases done
    exact ⟨doc, current, found, parsed, Int.not_lt.mp nonnegative, rfl⟩

/-- Rewriting a stored document with a new balance. -/
theorem adds_put {doc changed : Account} {current change : Int}
    (stored : store.get address = some doc) (parsed : setString doc.balance = some current)
    (sameAddress : changed.address = doc.address)
    (newBalance : changed.balance = formatInt (current + change)) :
    Adds store.amount (store.put changed).amount (Pi.single address change) {address} := by
  have keyed : changed.address = address := sameAddress.trans (store.keyed address doc stored)
  have held : value store.amount address = current := by
    simp [value, amount_of_stored stored, parsed]
  apply Adds.single
  · rw [put_amount, if_pos keyed.symm, newBalance, setString_formatInt, held]
  · intro other different
    rw [put_amount, if_neg (keyed ▸ different)]

theorem addToRecipient_credits
    (done : addToRecipient store recipient (formatInt add) stage blockTimestamp = .ok next) :
    Credits (stage.overlay store) (next.overlay store) (blockTimestamp * nanosPerSecond)
      (Pi.single recipient add) {recipient} := by
  obtain ⟨doc, current, staged, parsed, nonnegative, rfl⟩ := addToRecipient_ok done
  have found : (stage.overlay store).get recipient = some doc := staged
  have keyed : doc.address = recipient := (stage.overlay store).keyed recipient doc found
  rw [TxStage.overlay_put]
  constructor
  · exact Writes.put found rfl rfl rfl rfl
  · exact adds_put found parsed rfl rfl
  · intro addr
    by_cases same : addr = recipient <;> simp [same, nonnegative]
  · rintro addr rfl
    rw [amount_of_stored found, parsed]
    rfl
  · intro addr
    rw [put_txNonce]
    split
    · next same => rw [same, keyed, txNonce_of_stored found]
    · rfl
  · intro addr
    rw [put_txCountSent]
    split
    · next same => rw [same, keyed, txCountSent_of_stored found]
    · rfl

/-- What the deduction does to a store: the balance falls, the nonce and the
count of the sender advance. -/
structure Deducts (before after : Accounts) (time : Int64) (tx : Transaction) (sender : Address)
    (total : Int) : Prop extends Writes before after time {sender} where
  adds : Adds before.amount after.amount (Pi.single sender (-total)) {sender}
  readable : (before.amount sender).isSome
  covered : total ≤ value before.amount sender
  fresh : before.txNonce sender ≤ tx.nonce
  txNonce : ∀ address, after.txNonce address =
    if address = sender then tx.nonce + 1 else before.txNonce address
  txCountSent : ∀ address, after.txCountSent address =
    if address = sender then before.txCountSent address + 1 else before.txCountSent address

theorem deductFromSender_deducts
    (done : deductFromSender store stage tx sender (formatInt total) blockTimestamp = .ok next) :
    Deducts (stage.overlay store) (next.overlay store) (blockTimestamp * nanosPerSecond) tx sender
      total := by
  obtain ⟨doc, current, staged, parsed, fresh, -, enough, rfl⟩ := deductFromSender_ok done
  have found : (stage.overlay store).get sender = some doc := staged
  have keyed : doc.address = sender := (stage.overlay store).keyed sender doc found
  rw [TxStage.overlay_put]
  constructor
  · exact Writes.put found rfl rfl rfl rfl
  · exact adds_put found parsed rfl (by rw [Int.sub_eq_add_neg])
  · rw [amount_of_stored found, parsed]
    rfl
  · rw [value, amount_of_stored found, parsed]
    exact enough
  · rw [txNonce_of_stored found]
    exact fresh
  · intro addr
    rw [put_txNonce, keyed]
  · intro addr
    rw [put_txCountSent, keyed]
    split
    · next same => rw [same, txCountSent_of_stored found]
    · rfl

/-- The addresses a list of credits names. -/
def creditedAddresses (credits : List FeeCredit) : Set Address :=
  {address | ∃ credit ∈ credits, credit.addr = address}

theorem addCoinbaseCredits_credits :
    ∀ {credits : List FeeCredit} {stage next : TxStage},
      addCoinbaseCredits store blockTimestamp credits stage = .ok next →
      Credits (stage.overlay store) (next.overlay store) (blockTimestamp * nanosPerSecond)
        (creditEffect credits) (creditedAddresses credits) := by
  intro credits
  induction credits with
  | nil =>
    intro stage next done
    cases done
    simpa [creditEffect, creditedAddresses] using Credits.refl (stage.overlay store) _
  | cons credit rest ih =>
    intro stage next done
    unfold addCoinbaseCredits at done
    split at done
    · cases done
    next middle added =>
    have credited := (addToRecipient_credits added).trans (ih done)
    have addresses : {credit.addr} ∪ creditedAddresses rest =
        creditedAddresses (credit :: rest) := by
      ext addr
      simp [creditedAddresses, eq_comm]
    rw [← addresses]
    simpa [creditEffect] using credited

/-! ## What a whole transaction does -/

/-- The addresses whose documents a transaction of a block rewrites. -/
def touchedAddresses (block : ZKBlock) (tx : Transaction) : Set Address :=
  {address | tx.fromAddr = some address ∨ tx.toAddr = some address ∨
    address ∈ creditedAddresses
      (splitFee tx.gasFee (block.coinbaseAddr.getD 0) block.feeRecipients).2 ∨
    block.zkvmAddr = some address}

/-- A transaction of a block was executed and committed. -/
structure Applies (env : Env) (block : ZKBlock) (tx : Transaction) (before after : DB) : Prop where
  senderSet : tx.fromAddr.isSome
  recipientSet : tx.toAddr.isSome
  coinbaseSet : block.coinbaseAddr.isSome
  zkvmSet : block.zkvmAddr.isSome
  value : 0 ≤ tx.value.getD 0
  gasFee : 0 ≤ tx.gasFee
  adds : Adds before.accounts.amount after.accounts.amount (balanceEffect block tx)
    (touchedAddresses block tx)
  gains : ∀ address, tx.fromAddr ≠ some address → 0 ≤ balanceEffect block tx address
  readable : ∀ address ∈ touchedAddresses block tx, (before.accounts.amount address).isSome
  covered : ∀ sender, tx.fromAddr = some sender →
    tx.value.getD 0 + tx.gasFee ≤ Ledger.value before.accounts.amount sender
  fresh : ∀ sender, tx.fromAddr = some sender → before.accounts.txNonce sender ≤ tx.nonce
  txNonce : ∀ address, after.accounts.txNonce address =
    if tx.fromAddr = some address then tx.nonce + 1 else before.accounts.txNonce address
  txCountSent : ∀ address, after.accounts.txCountSent address =
    if tx.fromAddr = some address then before.accounts.txCountSent address + 1
    else before.accounts.txCountSent address
  marked : after.txProcessed = before.txProcessed.write tx.hash env.now
  others : after = { before with accounts := after.accounts, txProcessed := after.txProcessed }

theorem parseTransaction_ok {value : Int} (parsed : parseTransaction tx = .ok value) :
    value = tx.value.getD 0 ∧ 0 ≤ value ∧ 0 ≤ tx.gasFee := by
  simp only [parseTransaction] at parsed
  split at parsed
  · cases parsed
  next nonnegative =>
  split at parsed
  · cases parsed
  next price =>
  cases parsed
  exact ⟨rfl, Int.not_lt.mp nonnegative,
    Int.mul_nonneg (Int.natCast_nonneg _) (Int.not_lt.mp price)⟩

/-- The credits of one transaction, from the deducted stage on. -/
theorem stageTransfers_ok {feeRecipients : List FeeRecipient} {value : Int} {final : TxStage}
    (done : stageTransfers store tx sender recipient coinbase zkvm feeRecipients blockTimestamp
      value stage = .ok final) :
    ∃ deducted,
      deductFromSender store stage tx sender (formatInt (value + tx.gasFee)) blockTimestamp =
        .ok deducted ∧
      Credits (deducted.overlay store) (final.overlay store) (blockTimestamp * nanosPerSecond)
        (Pi.single recipient value +
          creditEffect (splitFee tx.gasFee coinbase feeRecipients).2 +
          Pi.single zkvm (splitFee tx.gasFee coinbase feeRecipients).1)
        ({recipient} ∪ creditedAddresses (splitFee tx.gasFee coinbase feeRecipients).2 ∪ {zkvm}) := by
  simp only [stageTransfers] at done
  split at done
  · cases done
  next deducted took =>
  split at done
  · cases done
  next credited paid =>
  split at done
  · cases done
  next shared split =>
  split at done
  · cases done
  next last zkvmPaid =>
  cases done
  exact ⟨deducted, took, ((addToRecipient_credits paid).trans
    (addCoinbaseCredits_credits split)).trans (addToRecipient_credits zkvmPaid)⟩

theorem applyTxAtomic_ok {db db' : DB} {docs : List Account} {hash : Hash}
    (done : applyTxAtomic env db docs hash = .ok db') :
    db' = { db with
      accounts := docs.foldl Accounts.put db.accounts
      txProcessed := db.txProcessed.write hash env.now } := by
  unfold applyTxAtomic at done
  split at done
  · cases done
  split at done
  · cases done
  split at done
  · cases done
    rfl
  · cases done

/-- The accounts a block pays its fees to. -/
structure PaysTo (block : ZKBlock) (coinbase zkvm : Address) : Prop where
  coinbase : block.coinbaseAddr = some coinbase
  zkvm : block.zkvmAddr = some zkvm

section

variable {block : ZKBlock} {tx : Transaction} {sender recipient coinbase zkvm : Address}
  (senderSet : tx.fromAddr = some sender) (recipientSet : tx.toAddr = some recipient)
  (pays : PaysTo block coinbase zkvm)

include senderSet recipientSet pays

/-- The stages of a transaction add up to its effect. -/
theorem stages_balanceEffect (valueNonneg : 0 ≤ tx.value.getD 0) :
    Pi.single sender (-(tx.value.getD 0 + tx.gasFee)) +
      (Pi.single recipient (tx.value.getD 0) +
        creditEffect (splitFee tx.gasFee coinbase block.feeRecipients).2 +
        Pi.single zkvm (splitFee tx.gasFee coinbase block.feeRecipients).1) =
      balanceEffect block tx := by
  have moved : movedValue tx = tx.value.getD 0 := max_eq_left valueNonneg
  simp only [balanceEffect, feeEffect, changeAt, senderSet, recipientSet, pays.coinbase, pays.zkvm,
    moved, Option.getD_some, Option.isSome_some, if_true, add_assoc]

theorem stages_touchedAddresses :
    {sender} ∪ ({recipient} ∪
      creditedAddresses (splitFee tx.gasFee coinbase block.feeRecipients).2 ∪ {zkvm}) =
      touchedAddresses block tx := by
  ext addr
  simp only [touchedAddresses, senderSet, recipientSet, pays.coinbase, pays.zkvm,
    Option.getD_some, Option.some.injEq, Set.mem_union, Set.mem_singleton_iff, Set.mem_ofPred_eq,
    eq_comm (a := addr), or_assoc]

end

theorem executeTransaction_applies {db db' : DB} (senderSet : tx.fromAddr = some sender)
    (recipientSet : tx.toAddr = some recipient) (pays : PaysTo block coinbase zkvm)
    (done : executeTransaction env tx sender recipient coinbase zkvm block.feeRecipients
      blockTimestamp carried db = .ok db') :
    Applies env block tx db db' := by
  obtain ⟨value, parsed, afterParse⟩ := bind_eq_ok done
  obtain ⟨opened, openedOk, afterOpen⟩ := bind_eq_ok afterParse
  obtain ⟨final, transferred, committed⟩ := bind_eq_ok afterOpen
  obtain ⟨rfl, valueNonneg, feeNonneg⟩ := parseTransaction_ok parsed
  obtain ⟨deducted, took, credits⟩ := stageTransfers_ok transferred
  have opening := openStage_sameLedger openedOk
  have deduction := deductFromSender_deducts took
  have effect := stages_balanceEffect senderSet recipientSet pays valueNonneg
  have touched := stages_touchedAddresses senderSet recipientSet pays
  rw [applyTxAtomic_ok committed, TxStage.foldl_put_staged]
  have adds := (deduction.adds.trans credits.adds).congr effect touched
  rw [funext opening.amount] at adds
  constructor
  case senderSet => simp [senderSet]
  case recipientSet => simp [recipientSet]
  case coinbaseSet => simp [pays.coinbase]
  case zkvmSet => simp [pays.zkvm]
  case value => exact valueNonneg
  case gasFee => exact feeNonneg
  case adds => exact adds
  case gains =>
    intro addr other
    have different : addr ≠ sender := by
      rintro rfl
      exact other senderSet
    rw [← effect, Pi.add_apply, Pi.single_eq_of_ne different, zero_add]
    exact credits.gains addr
  case readable =>
    intro addr mem
    rw [← touched] at mem
    rw [← opening.amount]
    by_cases isSender : addr = sender
    · rw [isSender]
      exact deduction.readable
    · rw [← deduction.adds.kept addr isSender]
      exact credits.readable addr (mem.resolve_left (by simp [isSender]))
  case covered =>
    intro present same
    rw [senderSet] at same
    cases same
    have covered := deduction.covered
    rwa [Ledger.value, opening.amount] at covered
  case fresh =>
    intro present same
    rw [senderSet] at same
    cases same
    rw [← opening.txNonce]
    exact deduction.fresh
  case txNonce =>
    intro addr
    rw [credits.txNonce, deduction.txNonce, opening.txNonce, senderSet]
    simp only [Option.some.injEq, eq_comm]
  case txCountSent =>
    intro addr
    rw [credits.txCountSent, deduction.txCountSent, opening.txCountSent, senderSet]
    simp only [Option.some.injEq, eq_comm]
  case marked => rfl
  case others => rfl

/-- A transaction either was applied before, or executes, or leaves nothing
behind. -/
theorem processTransaction_ok {db db' : DB} (pays : PaysTo block coinbase zkvm)
    (done : processTransaction env tx coinbase zkvm block.feeRecipients block.timestamp carried
      db = .ok db') :
    (db.txApplied tx.hash = true ∧ db' = db) ∨
      (db.txApplied tx.hash = false ∧ Applies env block tx db db') := by
  unfold processTransaction at done
  split at done
  · next sender recipient senderSet recipientSet =>
    split at done
    · next applied =>
      cases done
      exact .inl ⟨applied, rfl⟩
    next notApplied =>
    refine .inr ⟨by simpa using notApplied, ?_⟩
    exact executeTransaction_applies senderSet recipientSet pays (mapError_eq_ok done)
  · cases done

end Jmdn.BlockProcessing
