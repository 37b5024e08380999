import Jmdn.BlockProcessing.Documents
import Jmdn.BlockProcessing.Outcome

/-!
# Runs of transactions

The loop of a block processes its pending transactions one after another.
`Performs` is that run by itself: what it writes, that it depends only on the
documents and the markers it starts from, and how it is put together from parts.
-/

namespace Jmdn.BlockProcessing

open Config DBOPs Go Ledger List

variable {txs rest later : List Transaction} {tx : Transaction} {after db before : DB} {env : Env}
  {block : ZKBlock} {coinbase zkvm addr : Address} {feeRecipients : List FeeRecipient}
  {carried : Address → Option UInt64} {blockTimestamp : Int64}

/-- A transaction that is not marked is executed. -/
theorem executed_of_processed (fresh : before.txApplied tx.hash = false)
    (done : processTransaction env tx coinbase zkvm feeRecipients blockTimestamp carried before =
      .ok after) :
    ∃ sender recipient, tx.fromAddr = some sender ∧ tx.toAddr = some recipient ∧
      executeTransaction env tx sender recipient coinbase zkvm feeRecipients blockTimestamp
        carried before = .ok after := by
  unfold processTransaction at done
  split at done
  · next sender recipient senderSet recipientSet =>
    rw [fresh] at done
    exact ⟨sender, recipient, senderSet, recipientSet, mapError_eq_ok done⟩
  · cases done

/-- An address that sends or receives in a list of transactions. -/
def IsParty (txs : List Transaction) (address : Address) : Prop :=
  ∃ tx ∈ txs, tx.fromAddr = some address ∨ tx.toAddr = some address

theorem isParty_cons :
    IsParty (tx :: rest) addr ↔
      (tx.fromAddr = some addr ∨ tx.toAddr = some addr) ∨ IsParty rest addr := by
  simp only [IsParty, mem_cons, exists_eq_or_imp]

theorem partyIdentity_idem (env : Env) (block : ZKBlock) (addr : Address)
    (before : Option Identity) :
    partyIdentity env block addr (some (partyIdentity env block addr before)) =
      partyIdentity env block addr before := by
  simp only [partyIdentity, Option.getD_some, adopted_adopted]

/-- What a run of transactions does to the documents. -/
structure RewritesAll (env : Env) (block : ZKBlock) (txs : List Transaction)
    (before after : Accounts) : Prop where
  kept : ∀ address ∉ touchedByAll block txs, after.get address = before.get address
  stamped : ∀ address ∈ touchedByAll block txs,
    Stamped after (block.timestamp * nanosPerSecond) address
  party : ∀ address, IsParty txs address →
    identityAt after address = some (partyIdentity env block address (identityAt before address))
  others : ∀ address, ¬ IsParty txs address → identityAt after address = identityAt before address
  created : ∀ address ∈ touchedByAll block txs, before.get address = none →
    ∃ tx ∈ txs, tx.toAddr = some address

theorem mem_touchedByAll_cons :
    addr ∈ touchedByAll block (tx :: rest) ↔
      addr ∈ touchedAddresses block tx ∨ addr ∈ touchedByAll block rest := by
  simp [touchedByAll]

theorem Rewrites.cons {before middle after : Accounts} (one : Rewrites env block tx before middle)
    (later : RewritesAll env block rest middle after) :
    RewritesAll env block (tx :: rest) before after := by
  constructor
  case kept =>
    intro addr absent
    rw [mem_touchedByAll_cons, not_or] at absent
    rw [later.kept addr absent.2, one.kept addr absent.1]
  case stamped =>
    intro addr mem
    by_cases again : addr ∈ touchedByAll block rest
    · exact later.stamped addr again
    · have first := one.stamped addr ((mem_touchedByAll_cons.mp mem).resolve_right again)
      unfold Stamped at first ⊢
      rwa [later.kept addr again]
  case party =>
    intro addr mem
    by_cases now : tx.fromAddr = some addr ∨ tx.toAddr = some addr
    · by_cases again : IsParty rest addr
      · rw [later.party addr again, one.party addr now, partyIdentity_idem]
      · rw [later.others addr again, one.party addr now]
    · rw [later.party addr ((isParty_cons.mp mem).resolve_left now),
        one.others addr (not_or.mp now).1 (not_or.mp now).2]
  case others =>
    intro addr outside
    rw [isParty_cons, not_or] at outside
    rw [later.others addr outside.2,
      one.others addr (not_or.mp outside.1).1 (not_or.mp outside.1).2]
  case created =>
    intro addr mem absent
    by_cases now : addr ∈ touchedAddresses block tx
    · exact ⟨tx, mem_cons_self, one.created addr now absent⟩
    rw [← one.kept addr now] at absent
    obtain ⟨creator, found, receives⟩ :=
      later.created addr ((mem_touchedByAll_cons.mp mem).resolve_left now) absent
    exact ⟨creator, mem_cons_of_mem _ found, receives⟩

section

variable {env : Env} {block : ZKBlock} {coinbase zkvm : Address} {before after : DB}
  {txs : List Transaction} (pays : PaysTo block coinbase zkvm)

include pays

theorem Performs.rewrites (run : Performs env block coinbase zkvm before txs after) :
    RewritesAll env block txs before.accounts after.accounts := by
  induction run with
  | nil db =>
    constructor
    case kept => exact fun _ _ => rfl
    case stamped => rintro addr ⟨tx, mem, _⟩; cases mem
    case party => rintro addr ⟨tx, mem, _⟩; cases mem
    case others => exact fun _ _ => rfl
    case created => rintro addr ⟨tx, mem, _⟩; cases mem
  | cons fresh done _ ih =>
    obtain ⟨sender, recipient, senderSet, recipientSet, executed⟩ :=
      executed_of_processed fresh done
    exact (executeTransaction_rewrites senderSet recipientSet pays executed).cons ih

end

theorem Executes.txNonce_eq (run : Executes env block before txs after) (addr : Address) :
    after.accounts.txNonce addr = txs.foldl (fun nonce tx =>
      if tx.fromAddr = some addr then tx.nonce + 1 else nonce)
        (before.accounts.txNonce addr) := by
  induction run with
  | nil db => rfl
  | cons _ applies _ ih => rw [ih, applies.txNonce, foldl_cons]

/-! ## The loop over a block -/

/-- The pending transactions of a longer list start with those of the shorter
one. -/
theorem pendingTransactions_append (liveApplied : List Hash) (first second : List Transaction)
    (seen : List Hash) :
    ∃ rest, pendingTransactions liveApplied (first ++ second) seen =
      pendingTransactions liveApplied first seen ++ rest := by
  induction first generalizing seen with
  | nil => exact ⟨_, rfl⟩
  | cons tx others ih =>
    simp only [cons_append, pendingTransactions]
    split
    · exact ih seen
    split
    · exact ih _
    · obtain ⟨rest, split⟩ := ih (tx.hash :: seen)
      exact ⟨rest, by rw [split, cons_append]⟩

theorem pendingTransactions_congr {first second : List Hash}
    (same : ∀ hash, hash ∈ first ↔ hash ∈ second) (txs : List Transaction) (seen : List Hash) :
    pendingTransactions first txs seen = pendingTransactions second txs seen := by
  induction txs generalizing seen with
  | nil => rfl
  | cons tx rest ih => simp only [pendingTransactions, same, ih]

section

variable {env : Env} {block : ZKBlock} {coinbase zkvm : Address} {liveApplied : List Hash}

/-- A run of the pending transactions is a run of the loop to its end. -/
theorem applyTransactions_of_performs :
    ∀ {index : Nat} {seen processed : List Hash} {db final : DB},
      Performs env block coinbase zkvm db (pendingTransactions liveApplied txs seen) final →
      ∃ successful, applyTransactions env block coinbase zkvm liveApplied txs index seen processed
        db = .done successful final := by
  induction txs with
  | nil =>
    intro index seen processed db final run
    cases run
    exact ⟨processed, rfl⟩
  | cons tx rest ih =>
    intro index seen processed db final run
    unfold pendingTransactions at run
    unfold applyTransactions
    split at run
    · next known =>
      rw [if_pos known]
      exact ih run
    next unseen =>
    rw [if_neg unseen]
    split at run
    · next live =>
      rw [if_pos live]
      exact ih run
    next notLive =>
    rw [if_neg notLive]
    cases run with
    | cons fresh done later =>
      rw [done]
      exact ih later

end

/-! ## The same run from the same documents -/

theorem applyTxAtomic_eq_ok_iff {docs : List Account} {hash : Hash} :
    applyTxAtomic env db docs hash = .ok after ↔
      (docs ≠ [] ∧ docs.length + 1 ≤ maxExecAllEntries ∧ env.commitOk hash = true) ∧
        after = { db with
          accounts := docs.foldl Accounts.put db.accounts
          txProcessed := db.txProcessed.write hash env.now } := by
  constructor
  · intro done
    refine ⟨?_, applyTxAtomic_ok done⟩
    unfold applyTxAtomic at done
    split_ifs at done with empty tooMany commits
    exact ⟨empty, Nat.not_lt.mp tooMany, commits⟩
  · rintro ⟨⟨some_, few, commits⟩, rfl⟩
    rw [applyTxAtomic, if_neg some_, if_neg (Nat.not_lt.mpr few), if_pos commits]

section

variable {first second : Env} (sameText : second.addressHex = first.addressHex)
  (sameSwitch : second.createMissingAccounts = first.createMissingAccounts)

include sameText in
theorem createdRecipient_congr (recipient : Address) (carriedNonce : UInt64)
    (blockTimestamp : Int64) :
    createdRecipient second recipient carriedNonce blockTimestamp =
      createdRecipient first recipient carriedNonce blockTimestamp := by
  unfold createdRecipient
  rw [sameText]

include sameText sameSwitch in
theorem executeTransaction_congr {sender recipient : Address} {db' : DB}
    (accounts : db'.accounts = db.accounts) (commits : second.commitOk tx.hash = true)
    (done : executeTransaction first tx sender recipient coinbase zkvm feeRecipients
      blockTimestamp carried db = .ok after) :
    executeTransaction second tx sender recipient coinbase zkvm feeRecipients blockTimestamp
      carried db' = .ok { db' with
        accounts := after.accounts
        txProcessed := db'.txProcessed.write tx.hash second.now } := by
  obtain ⟨value, parsed, afterParse⟩ := bind_eq_ok done
  obtain ⟨opened, opens, afterOpen⟩ := bind_eq_ok afterParse
  obtain ⟨final, transfers, committed⟩ := bind_eq_ok afterOpen
  obtain ⟨⟨some_, few, _⟩, rfl⟩ := applyTxAtomic_eq_ok_iff.mp committed
  have opensAgain : openStage second db'.accounts sender recipient blockTimestamp carried =
      .ok opened := by
    rw [← opens, accounts]
    simp only [openStage, createdRecipient_congr sameText, sameSwitch]
  have commitsAgain : applyTxAtomic second db' final.staged tx.hash = .ok _ :=
    applyTxAtomic_eq_ok_iff.mpr ⟨⟨some_, few, commits⟩, rfl⟩
  simp only [executeTransaction, parsed, opensAgain, bind, Except.bind]
  rw [accounts, transfers]
  dsimp only
  rw [commitsAgain, accounts]

variable {block : ZKBlock} {coinbase zkvm : Address} (pays : PaysTo block coinbase zkvm)

theorem Performs.commits (run : Performs env block coinbase zkvm db txs after) :
    ∀ tx ∈ txs, env.commitOk tx.hash = true := by
  induction run with
  | nil db => simp
  | cons fresh done _ ih =>
    rw [forall_mem_cons]
    refine ⟨?_, ih⟩
    obtain ⟨_, _, _, _, executed⟩ := executed_of_processed fresh done
    obtain ⟨_, _, afterParse⟩ := bind_eq_ok executed
    obtain ⟨_, _, afterOpen⟩ := bind_eq_ok afterParse
    obtain ⟨_, _, committed⟩ := bind_eq_ok afterOpen
    exact (applyTxAtomic_eq_ok_iff.mp committed).1.2.2

include sameText sameSwitch pays in
/-- A run depends on the documents and on which transactions are marked. -/
theorem Performs.congr {db' : DB} (run : Performs first block coinbase zkvm db txs after)
    (commits : ∀ tx ∈ txs, second.commitOk tx.hash = true) (accounts : db'.accounts = db.accounts)
    (marks : ∀ hash, db'.txApplied hash = db.txApplied hash) :
    ∃ after', Performs second block coinbase zkvm db' txs after' ∧
      after'.accounts = after.accounts ∧ ∀ hash, after'.txApplied hash = after.txApplied hash := by
  induction run generalizing db' with
  | nil db => exact ⟨db', Performs.nil db', accounts, marks⟩
  | @cons before middle after tx rest fresh done _ ih =>
    rw [forall_mem_cons] at commits
    obtain ⟨sender, recipient, senderSet, recipientSet, executed⟩ :=
      executed_of_processed fresh done
    have freshAgain : db'.txApplied tx.hash = false := by rw [marks, fresh]
    have again := executeTransaction_congr sameText sameSwitch accounts commits.1 executed
    have applies := executeTransaction_applies senderSet recipientSet pays executed
    obtain ⟨middle', processed, sameAccounts, sameMarks⟩ : ∃ middle',
        processTransaction second tx coinbase zkvm block.feeRecipients block.timestamp
          (accountNonces block) db' = .ok middle' ∧
        middle'.accounts = middle.accounts ∧
        ∀ hash, middle'.txApplied hash = middle.txApplied hash := by
      refine ⟨{ db' with
        accounts := middle.accounts
        txProcessed := db'.txProcessed.write tx.hash second.now }, ?_, rfl, ?_⟩
      · simp only [processTransaction, senderSet, recipientSet, freshAgain, again]
        rfl
      · intro hash
        rw [applies.txApplied, ← marks, DB.txApplied, Markers.isApplied_write]
        by_cases same : hash = tx.hash <;> simp [same, DB.txApplied]
    obtain ⟨after', later, finalAccounts, finalMarks⟩ := ih commits.2 sameAccounts sameMarks
    exact ⟨after', Performs.cons freshAgain processed later, finalAccounts, finalMarks⟩

end

theorem Performs.append {middle : DB} (one : Performs env block coinbase zkvm db txs middle)
    (two : Performs env block coinbase zkvm middle later after) :
    Performs env block coinbase zkvm db (txs ++ later) after := by
  induction one with
  | nil db => exact two
  | cons fresh done _ ih => exact Performs.cons fresh done (ih two)

theorem Performs.split (run : Performs env block coinbase zkvm db (txs ++ later) after) :
    ∃ middle, Performs env block coinbase zkvm db txs middle ∧
      Performs env block coinbase zkvm middle later after := by
  induction txs generalizing db with
  | nil => exact ⟨db, Performs.nil db, run⟩
  | cons tx rest ih =>
    cases run with
    | cons fresh done others =>
      obtain ⟨middle, one, two⟩ := ih others
      exact ⟨middle, Performs.cons fresh done one, two⟩

end Jmdn.BlockProcessing
