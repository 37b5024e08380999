import Jmdn.BlockProcessing.Block
import Jmdn.BlockProcessing.Effects
import Jmdn.Config.FeeShares

/-!
# When a transaction executes

`executeTransaction` succeeds whenever the accounts it needs are there, every
balance is a number, and the sender has the funds and the nonce.  This is the
converse of the effect of an executed transaction.
-/

namespace Jmdn.BlockProcessing

open Config DBOPs DBOPs.Accounts Go List

variable {recipient sender coinbase zkvm addr : Address} {tx : Transaction}
  {feeRecipients : List FeeRecipient} {carried : Address → Option UInt64} {parties : Set Address}
  {env : Env} {store : Accounts} {doc : Account}

/-- The given accounts are stored, and every stored balance is a number. -/
structure Ready (store : Accounts) (parties : Set Address) : Prop where
  stored : ∀ address ∈ parties, (store.get address).isSome
  readable : ∀ address, (store.amount address).isSome

theorem Ready.put (ready : Ready store parties) (readable : (setString doc.balance).isSome) :
    Ready (store.put doc) parties where
  stored addr mem := by
    rw [put_get]
    split
    · rfl
    · exact ready.stored addr mem
  readable addr := by
    rw [put_amount]
    split
    · exact readable
    · exact ready.readable addr

theorem Ready.balance (ready : Ready store parties) (stored : store.get addr = some doc) :
    ∃ balance, setString doc.balance = some balance := by
  have readable := ready.readable addr
  rw [amount_of_stored stored] at readable
  exact Option.isSome_iff_exists.mp readable

/-- A later stage that a commit can take: it is ready, not empty, and has at most
so many more documents. -/
structure Follows (store : Accounts) (parties : Set Address) (before after : TxStage)
    (more : Nat) : Prop where
  ready : Ready (after.overlay store) parties
  nonempty : after.order ≠ []
  length : after.order.length ≤ before.order.length + more

theorem length_order_put (stage : TxStage) (doc : Account) :
    (stage.put doc).order.length ≤ stage.order.length + 1 := by
  simp only [TxStage.put]
  split
  · exact Nat.le_succ _
  · rw [length_append]
    exact Nat.le_refl _

theorem order_put_ne_nil (stage : TxStage) (doc : Account) : (stage.put doc).order ≠ [] := by
  have mem : doc.address ∈ (stage.put doc).order := by
    rw [(stage.put doc).listed]
    simp [TxStage.put]
  exact ne_nil_of_mem mem

theorem length_staged (stage : TxStage) : stage.staged.length = stage.order.length := by
  have whole : ∀ order : List Address, (∀ addr ∈ order, (stage.docs addr).isSome) →
      (order.filterMap stage.docs).length = order.length := by
    intro order
    induction order with
    | nil => exact fun _ => rfl
    | cons first rest ih =>
      intro staged
      rw [forall_mem_cons] at staged
      obtain ⟨doc, found⟩ := Option.isSome_iff_exists.mp staged.1
      rw [filterMap_cons_some found, length_cons, ih staged.2, length_cons]
  exact whole stage.order fun addr mem => (stage.listed addr).mp mem

section

variable {store : Accounts} {parties : Set Address} {stage : TxStage}

section

variable (ready : Ready (stage.overlay store) parties)
include ready

/-- Staging a document with a readable balance. -/
theorem follows_put (doc : Account) (readable : (setString doc.balance).isSome) :
    Follows store parties stage (stage.put doc) 1 where
  ready := by
    rw [TxStage.overlay_put]
    exact ready.put readable
  nonempty := order_put_ne_nil stage doc
  length := length_order_put stage doc

theorem deductFromSender_succeeds
    (mem : sender ∈ parties) {total balance : Int} (nonneg : 0 ≤ total)
    (held : (stage.overlay store).amount sender = some balance) (enough : total ≤ balance)
    (fresh : (stage.overlay store).txNonce sender ≤ tx.nonce) (blockTimestamp : Int64) :
    ∃ next, deductFromSender store stage tx sender (formatInt total) blockTimestamp = .ok next ∧
      Follows store parties stage next 1 := by
  obtain ⟨doc, found⟩ := Option.isSome_iff_exists.mp (ready.stored sender mem)
  rw [amount_of_stored found] at held
  rw [txNonce_of_stored found] at fresh
  have staged : stage.get store sender = some doc := found
  refine ⟨_, ?_, follows_put ready { doc with
    balance := formatInt (balance - total)
    txNonce := tx.nonce + 1
    txCountSent := doc.txCountSent + 1
    updatedAt := blockTimestamp * nanosPerSecond } (by simp)⟩
  simp only [deductFromSender, staged, held, setString_formatInt]
  rw [if_neg (UInt64.not_lt.mpr fresh), if_neg (not_lt.mpr nonneg), if_neg (not_lt.mpr enough)]

theorem addToRecipient_succeeds
    (mem : recipient ∈ parties) {add : Int} (nonneg : 0 ≤ add) (blockTimestamp : Int64) :
    ∃ next, addToRecipient store recipient (formatInt add) stage blockTimestamp = .ok next ∧
      Follows store parties stage next 1 := by
  obtain ⟨doc, found⟩ := Option.isSome_iff_exists.mp (ready.stored recipient mem)
  obtain ⟨balance, held⟩ := ready.balance found
  have staged : stage.get store recipient = some doc := found
  refine ⟨_, ?_, follows_put ready { doc with
    balance := formatInt (balance + add)
    updatedAt := blockTimestamp * nanosPerSecond } (by simp)⟩
  simp only [addToRecipient, staged, held, setString_formatInt]
  rw [if_neg (not_lt.mpr nonneg)]

end

theorem addCoinbaseCredits_succeeds (blockTimestamp : Int64) {credits : List FeeCredit}
    (known : ∀ credit ∈ credits, credit.addr ∈ parties)
    (nonneg : ∀ credit ∈ credits, 0 ≤ credit.amount)
    (ready : Ready (stage.overlay store) parties) :
    ∃ next, addCoinbaseCredits store blockTimestamp credits stage = .ok next ∧
      Ready (next.overlay store) parties ∧
      next.order.length ≤ stage.order.length + credits.length := by
  induction credits generalizing stage with
  | nil => exact ⟨stage, rfl, ready, Nat.le_refl _⟩
  | cons credit rest ih =>
    rw [forall_mem_cons] at known nonneg
    obtain ⟨middle, added, follows⟩ :=
      addToRecipient_succeeds ready known.1 nonneg.1 blockTimestamp
    obtain ⟨next, shared, final, length⟩ := ih known.2 nonneg.2 follows.ready
    refine ⟨next, ?_, final, ?_⟩
    · rw [addCoinbaseCredits, added]
      exact shared
    · have grown := follows.length
      rw [length_cons]
      omega

theorem adoptCarriedNonce_ready (ready : Ready (stage.overlay store) parties) (addr : Address)
    (carried : Address → Option UInt64) :
    Ready ((adoptCarriedNonce store stage addr carried).overlay store) parties ∧
      (adoptCarriedNonce store stage addr carried).order.length ≤ stage.order.length + 1 := by
  rcases adoptCarriedNonce_cases store stage addr carried with
    ⟨same, -⟩ | ⟨doc, nonce, visible, -, -, staged⟩
  · rw [same]
    exact ⟨ready, Nat.le_succ _⟩
  · obtain ⟨balance, held⟩ := ready.balance visible
    have follows := follows_put ready { doc with nonce } (by rw [held]; rfl)
    rw [staged]
    exact ⟨follows.ready, follows.length⟩

theorem openStage_succeeds (create : env.createMissingAccounts = true) (ready : Ready store parties)
    (mem : sender ∈ parties)
    (known : (store.get recipient).isSome ∨ ∃ nonce, carried recipient = some nonce ∧ nonce ≠ 0)
    (blockTimestamp : Int64) :
    ∃ opened, openStage env store sender recipient blockTimestamp carried = .ok opened ∧
      Ready (opened.overlay store) (insert recipient parties) ∧ opened.order.length ≤ 2 := by
  have stored := ready.stored sender mem
  have present : ¬ (store.get sender).isNone = true := by
    rw [Option.isNone_eq_false_iff.mpr stored]
    exact Bool.false_ne_true
  have empty : Ready (TxStage.new.overlay store) parties := by
    rw [TxStage.overlay_new]
    exact ready
  rw [openStage, if_neg present]
  split_ifs with exists_
  · have both : Ready (TxStage.new.overlay store) (insert recipient parties) := by
      refine ⟨?_, empty.readable⟩
      rintro addr (rfl | other)
      · rwa [TxStage.overlay_new]
      · exact empty.stored addr other
    obtain ⟨one, oneLength⟩ := adoptCarriedNonce_ready both sender carried
    obtain ⟨two, twoLength⟩ := adoptCarriedNonce_ready one recipient carried
    refine ⟨_, rfl, two, twoLength.trans ?_⟩
    exact Nat.add_le_add_right oneLength 1
  · obtain ⟨nonce, carries, nonzero⟩ := known.resolve_left exists_
    have kept : (carried recipient).filter (· ≠ 0) = some nonce := by
      rw [carries]
      simp [nonzero]
    obtain ⟨doc, equal, keyed, balance⟩ :
        ∃ doc, createdRecipient env recipient nonce blockTimestamp = doc ∧
          doc.address = recipient ∧ doc.balance = "0" := ⟨_, rfl, rfl, rfl⟩
    simp only [kept, equal]
    have created := follows_put empty doc (by rw [balance, setString_zero]; rfl)
    have both : Ready ((TxStage.new.put doc).overlay store) (insert recipient parties) := by
      refine ⟨?_, created.ready.readable⟩
      rintro addr (rfl | other)
      · rw [TxStage.overlay_put, ← keyed, put_get_self]
        rfl
      · exact created.ready.stored addr other
    obtain ⟨adopted, length⟩ := adoptCarriedNonce_ready both sender carried
    refine ⟨_, rfl, adopted, length.trans ?_⟩
    exact Nat.add_le_add_right created.length 1

theorem stageTransfers_succeeds (blockTimestamp : Int64) {value balance : Int}
    (ready : Ready (stage.overlay store) parties) (senderKnown : sender ∈ parties)
    (recipientKnown : recipient ∈ parties) (zkvmKnown : zkvm ∈ parties)
    (creditsKnown : ∀ credit ∈ (splitFee tx.gasFee coinbase feeRecipients).2,
      credit.addr ∈ parties) (nonneg : 0 ≤ value) (fee : 0 ≤ tx.gasFee)
    (held : (stage.overlay store).amount sender = some balance)
    (enough : value + tx.gasFee ≤ balance) (fresh : (stage.overlay store).txNonce sender ≤ tx.nonce) :
    ∃ final, stageTransfers store tx sender recipient coinbase zkvm feeRecipients blockTimestamp
        value stage = .ok final ∧
      final.order ≠ [] ∧ final.order.length ≤
        stage.order.length + (splitFee tx.gasFee coinbase feeRecipients).2.length + 3 := by
  obtain ⟨zkvmShare, creditShares⟩ := splitFee_nonneg fee coinbase feeRecipients
  obtain ⟨deducted, took, afterDeduct⟩ := deductFromSender_succeeds ready senderKnown
    (add_nonneg nonneg fee) held enough fresh blockTimestamp
  obtain ⟨credited, paid, afterCredit⟩ :=
    addToRecipient_succeeds afterDeduct.ready recipientKnown nonneg blockTimestamp
  obtain ⟨shared, split, afterShares, sharesLength⟩ := addCoinbaseCredits_succeeds blockTimestamp
    creditsKnown creditShares afterCredit.ready
  obtain ⟨final, last, afterLast⟩ :=
    addToRecipient_succeeds afterShares zkvmKnown zkvmShare blockTimestamp
  refine ⟨final, ?_, afterLast.nonempty, ?_⟩
  · simp only [stageTransfers, took, paid, split, last]
  · have one := afterDeduct.length
    have two := afterCredit.length
    have three := afterLast.length
    omega

end

/-- What a transaction of a block needs in order to execute. -/
structure Executable (env : Env) (block : ZKBlock) (coinbase zkvm : Address) (tx : Transaction)
    (sender recipient : Address) (db : DB) : Prop where
  ready : Ready db.accounts
    ({address | ∃ credit ∈ (splitFee tx.gasFee coinbase block.feeRecipients).2,
      credit.addr = address} ∪ {sender, zkvm})
  recipient : (db.accounts.get recipient).isSome ∨
    ∃ nonce, accountNonces block recipient = some nonce ∧ nonce ≠ 0
  value : 0 ≤ tx.value.getD 0
  price : 0 ≤ effectiveGasPrice tx.txType tx.gasPrice tx.maxFee tx.maxPriorityFee
  funds : ∃ balance, db.accounts.amount sender = some balance ∧
    tx.value.getD 0 + tx.gasFee ≤ balance
  nonce : db.accounts.txNonce sender ≤ tx.nonce
  creates : env.createMissingAccounts = true
  commits : env.commitOk tx.hash = true
  fits : (splitFee tx.gasFee coinbase block.feeRecipients).2.length + 6 ≤ maxExecAllEntries

theorem executeTransaction_succeeds {block : ZKBlock} {db : DB}
    (able : Executable env block coinbase zkvm tx sender recipient db) :
    ∃ after, executeTransaction env tx sender recipient coinbase zkvm block.feeRecipients
      block.timestamp (accountNonces block) db = .ok after := by
  obtain ⟨balance, held, enough⟩ := able.funds
  have fee : 0 ≤ tx.gasFee := Int.mul_nonneg (Int.natCast_nonneg _) able.price
  have parsed : parseTransaction tx = .ok (tx.value.getD 0) := by
    simp only [parseTransaction]
    rw [if_neg (not_lt.mpr able.value), if_neg (not_lt.mpr able.price)]
  obtain ⟨opened, opens, ready, openedLength⟩ := openStage_succeeds able.creates able.ready
    (.inr (.inl rfl)) able.recipient block.timestamp
  -- opening the stage leaves the ledger alone, so the sender can still pay
  have ledger := openStage_sameLedger opens
  rw [← ledger.amount] at held
  have fresh := able.nonce
  rw [← ledger.txNonce] at fresh
  obtain ⟨final, transfers, nonempty, length⟩ := stageTransfers_succeeds block.timestamp ready
    (.inr (.inr (.inl rfl))) (.inl rfl) (.inr (.inr (.inr rfl)))
    (fun credit mem => Or.inr (.inl ⟨credit, mem, rfl⟩)) able.value fee held enough fresh
  have some_ : final.staged ≠ [] := by
    intro empty
    apply nonempty
    rw [← length_eq_zero_iff, ← length_staged, empty]
    rfl
  have few : ¬ final.staged.length + 1 > maxExecAllEntries := by
    have fits := able.fits
    rw [length_staged]
    omega
  refine ⟨{ db with
    accounts := final.staged.foldl Accounts.put db.accounts
    txProcessed := db.txProcessed.write tx.hash env.now }, ?_⟩
  simp only [executeTransaction, parsed, opens, transfers, bind, Except.bind]
  rw [applyTxAtomic, if_neg some_, if_neg few, if_pos able.commits]

/-- Executing a transaction removes no account. -/
theorem executeTransaction_keeps {blockTimestamp : Int64} {db after : DB}
    (done : executeTransaction env tx sender recipient coinbase zkvm feeRecipients blockTimestamp
      carried db = .ok after) (stored : (db.accounts.get addr).isSome) :
    (after.accounts.get addr).isSome := by
  obtain ⟨_, _, afterParse⟩ := bind_eq_ok done
  obtain ⟨_, _, afterOpen⟩ := bind_eq_ok afterParse
  obtain ⟨final, _, committed⟩ := bind_eq_ok afterOpen
  rw [applyTxAtomic_ok committed, TxStage.foldl_put_staged, TxStage.overlay_get, TxStage.get]
  split
  · rfl
  · exact stored

end Jmdn.BlockProcessing
