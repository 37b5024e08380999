import Jmdn.BlockProcessing.Performs
import Jmdn.BlockProcessing.Rollback

/-!
# Retrying a failed block

A first call fails at a transaction and is rolled back; a second call succeeds.
The documents it leaves are compared with those of one successful call.  The
rollback keeps the identities that the first call wrote, and writes placeholder
documents for addresses that had none.
-/

namespace Jmdn.BlockProcessing

open Config DBOPs DBOPs.Accounts Go Ledger List

variable {block : ZKBlock} {affected : List Address} {coinbase zkvm addr : Address}
  {executed : List Transaction} {position : Nat} {db reached : DB}

/-! ## One run and a retried run -/

theorem account_ext {one two : Account} (addr : one.address = two.address)
    (identity : identityOf one = identityOf two) (balance : one.balance = two.balance)
    (txNonce : one.txNonce = two.txNonce) (txCountSent : one.txCountSent = two.txCountSent)
    (updatedAt : one.updatedAt = two.updatedAt) : one = two := by
  simp only [identityOf, Identity.mk.injEq] at identity
  exact Account.ext identity.2.1 identity.1 addr balance txNonce txCountSent identity.2.2.1
    identity.2.2.2.1 updatedAt identity.2.2.2.2

theorem partyIdentity_congr {first second : Env} (sameText : second.addressHex = first.addressHex)
    (block : ZKBlock) (addr : Address) (before : Option Identity) :
    partyIdentity second block addr before = partyIdentity first block addr before := by
  rw [partyIdentity, partyIdentity, createdIdentity, createdIdentity,
    createdRecipient_congr sameText]

theorem partyIdentity_didAddress (env : Env) (block : ZKBlock) (addr : Address)
    (before : Option Identity) :
    (partyIdentity env block addr before).didAddress =
      (before.getD (createdIdentity env block addr)).didAddress := by
  unfold partyIdentity adopted
  split
  · rfl
  · split <;> rfl

theorem createdIdentity_didAddress_ne (env : Env) (block : ZKBlock) (addr : Address) :
    (createdIdentity env block addr).didAddress ≠ "" := by
  change "did:jmdt:metamask:" ++ env.addressHex addr ≠ ""
  intro empty
  have characters := congrArg String.toList empty
  rw [String.toList_append] at characters
  exact absurd (append_eq_nil_iff.mp characters).1 (by decide)

theorem touched_of_isParty {txs : List Transaction} (party : IsParty txs addr) :
    addr ∈ touchedByAll block txs := by
  obtain ⟨tx, mem, sends | receives⟩ := party
  · exact ⟨tx, mem, Or.inl sends⟩
  · exact ⟨tx, mem, Or.inr (.inl receives)⟩

theorem identityAt_rolledBack {order : MapOrder Address} {original reached : Accounts}
    {identity : Identity} (found : identityAt reached addr = some identity) :
    identityAt (rolledBack order affected original reached) addr = some identity := by
  rw [identityAt, Option.map_eq_some_iff] at found
  obtain ⟨doc, stored, rfl⟩ := found
  rw [identityAt, rollback_get]
  split
  · rw [Option.map_some, restoredAccount, stored, Option.getD_some]
    rfl
  · rw [stored, Option.map_some]

/-- What is left of a run that was rolled back: the identities it fixed, the fee
shares outside the snapshot, and placeholders. -/
structure Undone (env : Env) (block : ZKBlock) (affected : List Address)
    (executed : List Transaction) (before after : Accounts) : Prop where
  txNonce : ∀ address, after.txNonce address = before.txNonce address
  txCountSent : ∀ address, after.txCountSent address = before.txCountSent address
  value : ∀ address, value after.amount address = value before.amount address +
    if address ∈ affected then 0 else totalEffect block executed address
  party : ∀ address, IsParty executed address →
    identityAt after address = some (partyIdentity env block address (identityAt before address))
  others : ∀ address, ¬ IsParty executed address →
    (before.get address).isSome ∨ address ∉ affected →
      identityAt after address = identityAt before address
  placeholder : ∀ address ∈ affected, before.get address = none →
    (¬ ∃ tx ∈ executed, tx.toAddr = some address) →
      ∃ identity, identityAt after address = some identity ∧ identity.didAddress = ""
  untouched : ∀ address ∉ touchedByAll block executed,
    (before.get address).isSome ∨ address ∉ affected → after.get address = before.get address

theorem undone_rolledBack {env : Env} (pays : PaysTo block coinbase zkvm)
    (collected : affectedAccounts block = some affected) (noZero : 0 ∉ affected)
    (inBlock : executed.Sublist block.transactions)
    (run : Performs env block coinbase zkvm (bumpCarriedOrdinals env block db) executed reached)
    (order : MapOrder Address) :
    Undone env block affected executed db.accounts
      (rolledBack order affected db.accounts reached.accounts) := by
  have executes := run.executes pays
  have rewrites := run.rewrites pays
  have restored := rollback_get order affected db.accounts reached.accounts
  have ledger := ledgerAt_rolledBack order affected db.accounts reached.accounts
  simp only [mem_restoredAddresses noZero] at restored ledger
  rw [bumped_accounts] at rewrites
  constructor
  case txNonce =>
    intro addr
    rw [show Accounts.txNonce _ addr = _ from congrArg (fun fields => fields.2.1) (ledger addr)]
    split
    · rfl
    · next outside => exact (counters_outside inBlock executes collected outside).1
  case txCountSent =>
    intro addr
    rw [show Accounts.txCountSent _ addr = _ from
      congrArg (fun fields => fields.2.2) (ledger addr)]
    split
    · rfl
    · next outside => exact (counters_outside inBlock executes collected outside).2
  case value =>
    intro addr
    rw [value, show Accounts.amount _ addr = _ from congrArg Prod.fst (ledger addr)]
    split
    · rw [add_zero, value, ledgerAt]
    · have total := executes.adds.value_eq addr
      rwa [bumped_accounts] at total
  case party =>
    intro addr party
    exact identityAt_rolledBack (rewrites.party addr party)
  case others =>
    rintro addr outside (stored | away)
    · obtain ⟨doc, found⟩ := Option.isSome_iff_exists.mp stored
      have same := rewrites.others addr outside
      have old : identityAt db.accounts addr = some (identityOf doc) := by
        rw [identityAt, found, Option.map_some]
      rw [old] at same ⊢
      exact identityAt_rolledBack same
    · rw [identityAt, restored, if_neg away]
      exact rewrites.others addr outside
  case placeholder =>
    intro addr inside absent notCreated
    have untouched : addr ∉ touchedByAll block executed := fun touched =>
      notCreated (rewrites.created addr touched absent)
    rw [identityAt, restored, if_pos inside, Option.map_some]
    refine ⟨_, rfl, ?_⟩
    rw [restoredAccount, rewrites.kept addr untouched, absent]
    rfl
  case untouched =>
    intro addr away stored
    have same := rewrites.kept addr away
    rw [restored]
    split
    · next inside =>
      obtain ⟨doc, found⟩ :=
        Option.isSome_iff_exists.mp (stored.resolve_right (not_not.mpr inside))
      rw [restoredAccount, same, snapshotAccount, found]
      rfl
    · exact same

/-- Nothing that the rollback could not undo: every snapshotted address without a
document was created by an executed transaction, and the executed transactions
paid no fee shares outside the snapshot. -/
structure RetrySafe (affected : List Address) (block : ZKBlock) (executed : List Transaction)
    (store : Accounts) : Prop where
  present : ∀ address ∈ affected, store.get address = none →
    ∃ tx ∈ executed, tx.toAddr = some address
  shares : ∀ address ∉ affected, totalEffect block executed address = 0

/-- Only the parties of the run can lack a document. -/
theorem RetrySafe.started {store : Accounts} (safe : RetrySafe affected block executed store)
    (outside : ¬ IsParty executed addr) :
    (store.get addr).isSome ∨ addr ∉ affected := by
  by_contra missing
  rw [not_or, not_not, Option.not_isSome_iff_eq_none] at missing
  obtain ⟨tx, mem, receives⟩ := safe.present addr missing.2 missing.1
  exact outside ⟨tx, mem, Or.inr receives⟩

section

variable {first second : Env} (sameText : second.addressHex = first.addressHex) {block : ZKBlock}
  {coinbase zkvm : Address} (pays : PaysTo block coinbase zkvm) {affected : List Address}
  {executed txs : List Transaction} (longer : ∀ tx ∈ executed, tx ∈ txs)
  {one oneEnd two twoEnd : DB}
  (undone : Undone first block affected executed one.accounts two.accounts)
  (oneRun : Performs second block coinbase zkvm one txs oneEnd)
  (twoRun : Performs second block coinbase zkvm two txs twoEnd)

include sameText pays longer undone oneRun twoRun

/-- From a safe rollback a run fixes the identities it would have fixed from the
original store. -/
theorem retried_identity_agrees (safe : RetrySafe affected block executed one.accounts)
    (addr : Address) :
    identityAt twoEnd.accounts addr = identityAt oneEnd.accounts addr := by
  have oneRewrites := oneRun.rewrites pays
  have twoRewrites := twoRun.rewrites pays
  by_cases before : IsParty executed addr
  · have later : IsParty txs addr := by
      obtain ⟨tx, mem, sides⟩ := before
      exact ⟨tx, longer tx mem, sides⟩
    rw [twoRewrites.party addr later, oneRewrites.party addr later,
      undone.party addr before, partyIdentity_congr sameText, partyIdentity_congr sameText,
      partyIdentity_idem]
  · have same := undone.others addr before (safe.started before)
    by_cases later : IsParty txs addr
    · rw [twoRewrites.party addr later, oneRewrites.party addr later, same]
    · rw [twoRewrites.others addr later, oneRewrites.others addr later, same]

/-- From a safe rollback a run leaves the documents it would have left from the
original store. -/
theorem retried_run_agrees (safe : RetrySafe affected block executed one.accounts) :
    twoEnd.accounts = oneEnd.accounts := by
  have oneRewrites := oneRun.rewrites pays
  have twoRewrites := twoRun.rewrites pays
  have oneExecutes := oneRun.executes pays
  have twoExecutes := twoRun.executes pays
  have identity := retried_identity_agrees sameText pays longer undone oneRun twoRun
    safe
  apply Accounts.ext
  intro addr
  by_cases touched : addr ∈ touchedByAll block txs
  · obtain ⟨oneDoc, oneAmount, oneStored, oneBalance, oneTime⟩ := oneRewrites.stamped addr touched
    obtain ⟨twoDoc, twoAmount, twoStored, twoBalance, twoTime⟩ := twoRewrites.stamped addr touched
    have amounts : twoAmount = oneAmount := by
      have oneTotal := oneExecutes.adds.value_eq addr
      have twoTotal := twoExecutes.adds.value_eq addr
      rw [value, amount_of_formatted oneStored oneBalance, Option.getD_some] at oneTotal
      rw [value, amount_of_formatted twoStored twoBalance, Option.getD_some,
        undone.value addr] at twoTotal
      rw [oneTotal, twoTotal]
      split
      · rw [add_zero]
      · next outside => rw [safe.shares addr outside, add_zero]
    have nonces : twoDoc.txNonce = oneDoc.txNonce := by
      rw [← txNonce_of_stored twoStored, ← txNonce_of_stored oneStored,
        twoExecutes.txNonce_eq, oneExecutes.txNonce_eq, undone.txNonce]
    have counts : twoDoc.txCountSent = oneDoc.txCountSent := by
      rw [← txCountSent_of_stored twoStored, ← txCountSent_of_stored oneStored,
        twoExecutes.txCountSent, oneExecutes.txCountSent, undone.txCountSent]
    have identities := identity addr
    rw [identityAt, twoStored, identityAt, oneStored] at identities
    rw [oneStored, twoStored]
    refine congrArg some (account_ext ?_ (Option.some.inj identities) ?_ nonces counts ?_)
    · rw [twoEnd.accounts.keyed addr _ twoStored, oneEnd.accounts.keyed addr _ oneStored]
    · rw [twoBalance, oneBalance, amounts]
    · rw [twoTime, oneTime]
  · have before : addr ∉ touchedByAll block executed := by
      rintro ⟨tx, mem, reaches⟩
      exact touched ⟨tx, longer tx mem, reaches⟩
    rw [twoRewrites.kept addr touched, oneRewrites.kept addr touched,
      undone.untouched addr before
        (safe.started fun party => before (touched_of_isParty party))]

omit sameText longer in
/-- If the documents agree, the rollback was safe. -/
theorem safe_of_retried_run_agrees (agree : twoEnd.accounts = oneEnd.accounts) :
    RetrySafe affected block executed one.accounts := by
  have oneRewrites := oneRun.rewrites pays
  have twoRewrites := twoRun.rewrites pays
  constructor
  · intro addr inside absent
    by_contra notCreated
    obtain ⟨identity, placed, empty⟩ := undone.placeholder addr inside absent notCreated
    have missing : identityAt one.accounts addr = none := by rw [identityAt, absent]; rfl
    by_cases later : IsParty txs addr
    · -- the placeholder keeps its empty DID
      have two := twoRewrites.party addr later
      rw [agree, oneRewrites.party addr later, missing, placed] at two
      have dids := congrArg Identity.didAddress (Option.some.inj two)
      rw [partyIdentity_didAddress, partyIdentity_didAddress, Option.getD_none, Option.getD_some,
        empty] at dids
      exact createdIdentity_didAddress_ne second block addr dids
    · have two := twoRewrites.others addr later
      rw [agree, oneRewrites.others addr later, missing, placed] at two
      cases two
  · intro addr outside
    have oneTotal := (oneRun.executes pays).adds.value_eq addr
    have twoTotal := (twoRun.executes pays).adds.value_eq addr
    rw [agree, oneTotal, undone.value, if_neg outside] at twoTotal
    omega

end

/-- After a safe rollback, a retried run gives back one run from the original
store: the executed part from the first call, the rest from the retry. -/
theorem single_run_of_retried {first second : Env} (sameText : second.addressHex = first.addressHex)
    (sameSwitch : second.createMissingAccounts = first.createMissingAccounts)
    (pays : PaysTo block coinbase zkvm) {rest : List Transaction} {start one two twoEnd : DB}
    (undone : Undone first block affected executed one.accounts two.accounts)
    (firstRun : Performs first block coinbase zkvm start executed reached)
    (sameStart : one.accounts = start.accounts)
    (startMarks : ∀ hash, one.txApplied hash = start.txApplied hash)
    (twoRun : Performs second block coinbase zkvm two (executed ++ rest) twoEnd)
    (marks : ∀ hash, two.txApplied hash = one.txApplied hash)
    (safe : RetrySafe affected block executed one.accounts) :
    ∃ oneEnd, Performs second block coinbase zkvm one (executed ++ rest) oneEnd ∧
      oneEnd.accounts = twoEnd.accounts := by
  obtain ⟨twoMiddle, twoFirst, twoRest⟩ := twoRun.split
  obtain ⟨oneMiddle, oneFirst, _, _⟩ := firstRun.congr sameText sameSwitch pays
    twoFirst.commits sameStart startMarks
  have middles : oneMiddle.accounts = twoMiddle.accounts :=
    (retried_run_agrees sameText pays (fun _ mem => mem) undone oneFirst
      twoFirst safe).symm
  have middleMarks : ∀ hash, oneMiddle.txApplied hash = twoMiddle.txApplied hash := by
    intro hash
    rw [(oneFirst.executes pays).txApplied,
      (twoFirst.executes pays).txApplied, marks]
  obtain ⟨oneEnd, oneRest, ends, _⟩ :=
    twoRest.congr rfl rfl pays twoRest.commits middles middleMarks
  exact ⟨oneEnd, oneFirst.append oneRest, ends⟩

/-! ## Calls -/

theorem pendingBefore_split (block : ZKBlock) (db : DB) (position : Nat) :
    ∃ rest, pendingBefore block db block.transactions.length =
      pendingBefore block db position ++ rest := by
  obtain ⟨rest, split⟩ := pendingTransactions_append
    (filterProcessedTxMarkers db.txProcessed (txHashes block))
    (block.transactions.take position) (block.transactions.drop position) []
  rw [take_append_drop] at split
  exact ⟨rest, by rw [pendingBefore_length, split, pendingBefore]⟩

section

variable {env : Env} {block : ZKBlock} {coinbase zkvm : Address} (pays : PaysTo block coinbase zkvm)
  {affected : List Address} (collected : affectedAccounts block = some affected)
  {order : MapOrder Address} {db : DB}

include pays collected

/-- A call that processes every pending transaction. -/
theorem processBlockTransactions_nil_iff
    (fresh : db.blockProcessed.isApplied block.blockHash = false) {accounts : Accounts} :
    (processBlockTransactions env order block db).1 = .nil ∧
        (processBlockTransactions env order block db).2.accounts = accounts ↔
      env.prefilterOk = true ∧ ∃ final, Performs env block coinbase zkvm
        (bumpCarriedOrdinals env block db)
        (pendingBefore block db block.transactions.length) final ∧ final.accounts = accounts := by
  rw [processBlockTransactions_fresh env order pays collected fresh,
    pendingBefore_length]
  cases prefilter : env.prefilterOk with
  | false => simp
  | true =>
    rw [if_pos rfl]
    constructor
    · rintro ⟨nil, same⟩
      have explained :=
        blockLoop_explained env pays (bumpCarriedOrdinals env block db)
      rw [bumped_txProcessed] at explained
      cases ended : blockLoop env block coinbase zkvm (bumpCarriedOrdinals env block db) with
      | done successful final =>
        rw [ended] at explained same
        exact ⟨rfl, final, explained, (finishBlock_accounts ..).symm.trans same⟩
      | failed | nilDereference =>
        rw [ended] at nil
        cases nil
    · rintro ⟨-, final, run, same⟩
      rw [← bumped_txProcessed env block db] at run
      obtain ⟨successful, done⟩ : ∃ successful,
          blockLoop env block coinbase zkvm (bumpCarriedOrdinals env block db) =
            .done successful final := applyTransactions_of_performs run
      rw [done, endBlock]
      exact ⟨rfl, (finishBlock_accounts ..).trans same⟩

end

theorem pendingBefore_congr {db' : DB} (marks : ∀ hash, db'.txApplied hash = db.txApplied hash)
    (position : Nat) :
    pendingBefore block db' position = pendingBefore block db position := by
  apply pendingTransactions_congr
  intro hash
  rw [mem_filterProcessedTxMarkers, mem_filterProcessedTxMarkers]
  exact and_congr_right fun _ => iff_of_eq (congrArg (· = true) (marks hash))

/-- A first call fails at a transaction, restores its snapshot, and a second call
succeeds.  The accounts are then those of one successful call exactly when
the rollback was safe. -/
theorem retried_block_agrees_iff {first second : Env}
    (sameText : second.addressHex = first.addressHex)
    (sameSwitch : second.createMissingAccounts = first.createMissingAccounts)
    {block : ZKBlock} {affected : List Address} (collected : affectedAccounts block = some affected)
    {db : DB} {order retryOrder otherOrder : MapOrder Address}
    {position total : Nat} {hash : Hash} {cause : TxError}
    (failed : (processBlockTransactions first order block db).1 =
      .error (.transactionFailed position total hash cause false))
    (restored : ∀ store, (rollbackState store (originalState order affected db.accounts)).2 = true)
    (retried : (processBlockTransactions second retryOrder block
      (processBlockTransactions first order block db).2).1 = .nil) :
    ((processBlockTransactions second otherOrder block db).1 = .nil ∧
      ∀ address, (processBlockTransactions second retryOrder block
          (processBlockTransactions first order block db).2).2.accounts.get address =
        (processBlockTransactions second otherOrder block db).2.accounts.get address) ↔
      RetrySafe affected block (pendingBefore block db position) db.accounts := by
  obtain ⟨fresh, listed, coinbase, zkvm, reached, same, pays, firstRun, -, called⟩ :=
    processBlockTransactions_failed failed
  cases same.symm.trans collected
  have after := called (.inr rfl) order
  have noZero : 0 ∉ affected := by
    intro zero
    refine (rollbackState_succeeds_iff _ _).mp (restored db.accounts)
      (0, snapshotAccount db.accounts 0) (mem_map.mpr ⟨0, ?_, rfl⟩) rfl
    exact (order.perm affected).mem_iff.mpr zero
  generalize (processBlockTransactions first order block db).2 = middle at after retried ⊢
  have undone : Undone first block affected (pendingBefore block db position)
      db.accounts middle.accounts := by
    rw [after]
    exact undone_rolledBack pays collected noZero
      ((pendingTransactions_sublist _ _ _).trans (take_sublist _ _)) firstRun order
  have marks : ∀ hash, middle.txApplied hash = db.txApplied hash := by
    rw [after]
    exact txApplied_revoked (firstRun.executes pays)
  have freshAgain : middle.blockProcessed.isApplied block.blockHash = false := by
    rw [after, (firstRun.executes pays).others]
    rw [bumped_blockProcessed]
    exact fresh
  obtain ⟨prefilter, retriedEnd, retriedRun, retriedAccounts⟩ :=
    (processBlockTransactions_nil_iff pays collected freshAgain).mp ⟨retried, rfl⟩
  rw [pendingBefore_congr marks] at retriedRun
  obtain ⟨rest, split⟩ := pendingBefore_split block db position
  have startMarks : ∀ hash, (bumpCarriedOrdinals second block middle).txApplied hash =
      (bumpCarriedOrdinals second block db).txApplied hash := by
    intro hash
    rw [DB.txApplied, bumped_txProcessed, DB.txApplied,
      bumped_txProcessed]
    exact marks hash
  have undoneStart : Undone first block affected (pendingBefore block db position)
      (bumpCarriedOrdinals second block db).accounts
      (bumpCarriedOrdinals second block middle).accounts := by
    rw [bumped_accounts, bumped_accounts]
    exact undone
  rw [← retriedAccounts]
  constructor
  · rintro ⟨single, agree⟩
    obtain ⟨_, singleEnd, singleRun, singleAccounts⟩ :=
      (processBlockTransactions_nil_iff pays collected fresh).mp ⟨single, rfl⟩
    rw [← singleAccounts] at agree
    have safe := safe_of_retried_run_agrees pays undoneStart singleRun retriedRun
      (Accounts.ext agree)
    rwa [bumped_accounts] at safe
  · intro safe
    rw [split] at retriedRun
    obtain ⟨singleEnd, singleRun, same⟩ := single_run_of_retried sameText sameSwitch pays
      undoneStart firstRun (by simp) (by simp [DB.txApplied]) retriedRun startMarks
      (by rwa [bumped_accounts])
    rw [← split] at singleRun
    obtain ⟨nil, accounts⟩ :=
      (processBlockTransactions_nil_iff pays collected fresh).mpr
        ⟨prefilter, singleEnd, singleRun, same⟩
    exact ⟨nil, fun address => by rw [accounts]⟩

/-! ## A new account -/

/-- A store whose atomic commit of one transaction fails. -/
def failingCommit (hash : Hash) : Env := { commitOk := fun other => other ≠ hash }

/-- A transfer from 1 to the new account 9, with the identity nonce of 9. -/
def newAccountBlock : ZKBlock :=
  { transactions := [{ smallTransfer 11 0 with toAddr := some 9 }], coinbaseAddr := some 3
    zkvmAddr := some 4, timestamp := 5, accountNonces := [⟨9, 7⟩] }

/-- The retry finds the placeholder the rollback wrote, and keeps its empty DID,
account type and creation time. -/
theorem retried_block_keeps_placeholder :
    (processBlockTransactions (failingCommit 11) MapOrder.listed newAccountBlock
        { accounts := fundedStore }).1 =
      .error (.transactionFailed 0 1 11 (.commitFailed 11) false) ∧
    (∀ store, (rollbackState store
      (originalState MapOrder.listed [1, 9, 3, 4] fundedStore)).2 = true) ∧
    (processBlockTransactions {} MapOrder.listed newAccountBlock
        (processBlockTransactions (failingCommit 11) MapOrder.listed newAccountBlock
          { accounts := fundedStore }).2).1 = .nil ∧
    (processBlockTransactions {} MapOrder.listed newAccountBlock
        { accounts := fundedStore }).1 = .nil ∧
    identityAt (processBlockTransactions {} MapOrder.listed newAccountBlock
        (processBlockTransactions (failingCommit 11) MapOrder.listed newAccountBlock
          { accounts := fundedStore }).2).2.accounts 9 =
      some { nonce := 7, didAddress := "", accountType := "", createdAt := 0, metadata := none } ∧
    identityAt (processBlockTransactions {} MapOrder.listed newAccountBlock
        { accounts := fundedStore }).2.accounts 9 =
      some { nonce := 7, didAddress := "did:jmdt:metamask:", accountType := "user"
             createdAt := 5000000000, metadata := none } := by
  refine ⟨by decide +kernel, ?_, by decide +kernel, by decide +kernel, by decide +kernel,
    by decide +kernel⟩
  intro store
  rw [rollbackState_succeeds_iff]
  decide

/-- Two transfers between stored accounts. -/
def settledBlock : ZKBlock :=
  { transactions := [smallTransfer 11 0, smallTransfer 12 1], coinbaseAddr := some 3
    zkvmAddr := some 4, timestamp := 5 }

theorem settledBlock_retrySafe :
    RetrySafe [1, 2, 3, 4] settledBlock (pendingBefore settledBlock { accounts := fundedStore } 1)
      fundedStore := by
  have executed : pendingBefore settledBlock { accounts := fundedStore } 1 =
      [smallTransfer 11 0] := by
    decide +kernel
  rw [executed]
  constructor
  · intro addr listed absent
    have stored : [1, 2, 3, 4].all (fun known => (fundedStore.get known).isSome) = true := by
      decide +kernel
    have found := all_eq_true.mp stored addr listed
    rw [absent] at found
    cases found
  · intro addr outside
    simp only [mem_cons, not_mem_nil, or_false, not_or,
      eq_comm (a := addr)] at outside
    have single : settledBlock.feeRecipients = [] := rfl
    simp only [totalEffect, map_cons, map_nil, sum_singleton, balanceEffect,
      feeEffect_apply single, Pi.add_apply, changeAt_apply]
    simp only [settledBlock, smallTransfer, Option.some.injEq, outside, if_false, add_zero]

theorem retried_transfers_agree :
    (processBlockTransactions {} MapOrder.listed settledBlock { accounts := fundedStore }).1 =
      .nil ∧
    ∀ address, (processBlockTransactions {} MapOrder.listed settledBlock
        (processBlockTransactions (failingCommit 12) MapOrder.listed settledBlock
          { accounts := fundedStore }).2).2.accounts.get address =
      (processBlockTransactions {} MapOrder.listed settledBlock
        { accounts := fundedStore }).2.accounts.get address := by
  have failed : (processBlockTransactions (failingCommit 12) MapOrder.listed settledBlock
      { accounts := fundedStore }).1 =
      .error (.transactionFailed 1 2 12 (.commitFailed 12) false) := by
    decide +kernel
  have retried : (processBlockTransactions {} MapOrder.listed settledBlock
      (processBlockTransactions (failingCommit 12) MapOrder.listed settledBlock
        { accounts := fundedStore }).2).1 = .nil := by
    decide +kernel
  have sameText : ({} : Env).addressHex = (failingCommit 12).addressHex := rfl
  have collected : affectedAccounts settledBlock = some [1, 2, 3, 4] := by decide
  refine (retried_block_agrees_iff sameText rfl collected failed ?_ retried).mpr
    settledBlock_retrySafe
  intro store
  rw [rollbackState_succeeds_iff]
  decide

end Jmdn.BlockProcessing
