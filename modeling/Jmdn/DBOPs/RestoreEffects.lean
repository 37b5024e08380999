import Jmdn.DBOPs.Convergence
import Jmdn.Register.Batches

/-!
# The effect of restoring accounts

A successful `BatchRestoreAccounts` writes, for each address, the newest of the
address's records over the stored document and drops the others.  A document is as
old as its normalized time.
-/

namespace Jmdn.DBOPs

open Config Go List Register

variable {addr : Address} {doc : Account}

/-! ## Records of one address -/

def recordTime (record : Account) : Int :=
  (normalizeUpdatedAtNanos record.updatedAt).toInt

/-- The records of an address among the entries of a batch. -/
def addressRecords (address : Address) (entries : List RestoreEntry) : List Account :=
  entries.filterMap fun
    | .address doc => if doc.address = address then some doc else none
    | .did _ _ => none

theorem addressRecords_address (addr : Address) (doc : Account) (rest : List RestoreEntry) :
    addressRecords addr (.address doc :: rest) =
      if doc.address = addr then doc :: addressRecords addr rest
      else addressRecords addr rest := by
  by_cases here : doc.address = addr
  · simp [addressRecords, here]
  · simp [addressRecords, here]

theorem addressRecords_append (addr : Address) (first second : List RestoreEntry) :
    addressRecords addr (first ++ second) =
      addressRecords addr first ++ addressRecords addr second :=
  filterMap_append

/-- A round files the document under its address or changes nothing. -/
theorem rememberNewest_cases (known : Address → Option Account) (doc : Account) :
    rememberNewest known (.address doc) = Function.update known doc.address (some doc) ∧
        (∀ current, known doc.address = some current → recordTime current < recordTime doc) ∨
      rememberNewest known (.address doc) = known ∧
        ∃ current, known doc.address = some current ∧ recordTime doc ≤ recordTime current := by
  simp only [rememberNewest]
  cases found : known doc.address with
  | none => exact .inl ⟨rfl, nofun⟩
  | some current =>
    dsimp only
    split
    · next newer =>
      refine .inl ⟨rfl, fun other same => ?_⟩
      cases same
      exact Int64.lt_iff_toInt_lt.mp newer
    · next newer =>
      exact .inr ⟨rfl, current, rfl,
        Int.not_lt.mp fun less => newer (Int64.lt_iff_toInt_lt.mpr less)⟩

theorem rememberNewest_of_ne {known : Address → Option Account} (other : doc.address ≠ addr) :
    rememberNewest known (.address doc) addr = known addr := by
  rcases rememberNewest_cases known doc with ⟨same, -⟩ | ⟨same, -⟩
  · rw [same, Function.update_of_ne (Ne.symm other)]
  · rw [same]

theorem newest_rememberNewest (known : Address → Option Account) (doc : Account)
    (rest : List Account) :
    newest recordTime ((rememberNewest known (.address doc) doc.address).toList ++ rest) =
      newest recordTime ((known doc.address).toList ++ doc :: rest) := by
  rcases rememberNewest_cases known doc with ⟨same, newer⟩ | ⟨same, current, found, older⟩
  · rw [same, Function.update_self]
    refine (newest_append_cons fun other mem => ?_).symm
    exact newer other (Option.mem_toList.mp mem)
  · rw [same, found]
    exact (newest_cons_cons rest older).symm

/-- The set of addresses keeps the newest record of each. -/
theorem addressSet_eq_newest (entries : List RestoreEntry) (addr : Address) :
    addressSet entries addr = newest recordTime (addressRecords addr entries) := by
  have fold : ∀ (rest : List RestoreEntry) (known : Address → Option Account),
      rest.foldl rememberNewest known addr =
        newest recordTime ((known addr).toList ++ addressRecords addr rest) := by
    intro rest
    induction rest with
    | nil =>
      intro known
      cases found : known addr with
      | none => exact found
      | some current => exact found
    | cons entry rest ih =>
      intro known
      rw [foldl_cons, ih]
      cases entry with
      | did key doc => rfl
      | address doc =>
        by_cases here : doc.address = addr
        · subst here
          rw [newest_rememberNewest, addressRecords_address, if_pos rfl]
        · rw [rememberNewest_of_ne here, addressRecords_address, if_neg here]
  exact fold entries fun _ => none

theorem mem_of_addressSet {entries : List RestoreEntry} (found : addressSet entries addr = some doc) :
    .address doc ∈ entries ∧ doc.address = addr := by
  rw [addressSet_eq_newest] at found
  obtain ⟨entry, listed, same⟩ := mem_filterMap.mp (mem_of_newest found)
  cases entry with
  | did key other => cases same
  | address other =>
    dsimp only at same
    split at same
    · next here =>
      cases same
      exact ⟨listed, here⟩
    · cases same

/-! ## Documents -/

theorem mergeAccountForWrite_some (addressHex : Address → String) (stored incoming : Account) :
    mergeAccountForWrite addressHex (some stored) incoming =
      if recordTime incoming < recordTime stored then none
      else if recordTime stored = recordTime incoming ∧ stored.balance = incoming.balance then none
      else some (mergedAccount addressHex stored incoming) := by
  simp only [mergeAccountForWrite, recordTime, gt_iff_lt, Int64.lt_iff_toInt_lt, Int64.toInt_inj]

/-- A record leaves a document at least as new. -/
theorem exists_applyRecord (addressHex : Address → String) (stored : Option Account)
    (record : Account) :
    ∃ doc, applyRecord addressHex stored record = some doc ∧
      recordTime record ≤ recordTime doc := by
  cases stored with
  | none => exact ⟨_, rfl, Int.le_refl _⟩
  | some stored =>
    rw [applyRecord, mergeAccountForWrite_some]
    split_ifs with newer tie
    · exact ⟨stored, rfl, by omega⟩
    · exact ⟨stored, rfl, by omega⟩
    · exact ⟨_, rfl, Int.le_refl _⟩

theorem mergeAccountForWrite_or (addressHex : Address → String) (stored : Option Account)
    (record : Account) : (mergeAccountForWrite addressHex stored record).or stored =
      applyRecord addressHex stored record := by
  rw [applyRecord]
  cases mergeAccountForWrite addressHex stored record <;> rfl

/-! ## Records that share a call -/

section

variable {addressHex : Address → String} {stored : Option Account} {record last : Account}

/-- A later record sets every field in which an earlier one differs from the document it
is written over. -/
@[mk_iff]
structure Overrides (addressHex : Address → String) (stored record last : Account) : Prop where
  didAddress : last.didAddress = "" ∨
      equalFoldHex last.didAddress (addressHex last.address) = true →
    (record.didAddress = "" ∨
      equalFoldHex record.didAddress (addressHex record.address) = true) ∨
      record.didAddress = stored.didAddress
  createdAt : last.createdAt = 0 → record.createdAt = 0 ∨ record.createdAt = stored.createdAt
  accountType : last.accountType = "" ∨ last.accountType = "user" →
    stored.accountType ≠ "" ∧ (record.accountType = "" ∨ record.accountType = "user") ∨
      record.accountType = stored.accountType ∨
      stored.accountType = "" ∧ record.accountType = last.accountType
  metadata : last.metadata = none → record.metadata = none ∨ record.metadata = stored.metadata
  nonce : last.nonce = 0 → record.nonce = 0 ∨ record.nonce = stored.nonce
  txNonce : record.txNonce ≤ last.txNonce ∨ record.txNonce ≤ stored.txNonce
  txCountSent : record.txCountSent ≤ last.txCountSent ∨ record.txCountSent ≤ stored.txCountSent
  balance : isZeroBalanceString last.balance = true →
    isZeroBalanceString record.balance = true ∨ record.balance = stored.balance

/-- A later record makes up for an earlier one that is dropped. -/
def Covers (addressHex : Address → String) (stored : Option Account) (record last : Account) :
    Prop :=
  match stored with
  | none => mergedAccount addressHex (newAccountForWrite record) last = newAccountForWrite last
  | some doc => Overrides addressHex doc record last

instance (addressHex : Address → String) (stored : Option Account) (record last : Account) :
    Decidable (Covers addressHex stored record last) :=
  match stored with
  | none => inferInstanceAs (Decidable (_ = _))
  | some doc => decidable_of_iff' _ (overrides_iff addressHex doc record last)

theorem Overrides.mergedAccount_eq {doc : Account}
    (overrides : Overrides addressHex doc record last) :
    mergedAccount addressHex (mergedAccount addressHex doc record) last =
      mergedAccount addressHex doc last := by
  obtain ⟨didAddress, createdAt, accountType, metadata, nonce, txNonce, txCountSent, balance⟩ :=
    overrides
  have kept : (last.metadata <|> (record.metadata <|> doc.metadata)) =
      (last.metadata <|> doc.metadata) := by
    cases found : last.metadata with
    | some text => rfl
    | none => rcases metadata found with none | same <;> simp [*]
  simp only [mergedAccount, Account.mk.injEq, kept, true_and, and_true]
  refine ⟨?_, ?_, ?_, ?_, ?_, ?_, ?_⟩ <;> grind

/-- A newer record that covers an older one makes the older one's write superfluous. -/
theorem applyRecord_of_covers (older : recordTime record < recordTime last)
    (covers : Covers addressHex stored record last) :
    applyRecord addressHex (applyRecord addressHex stored record) last =
      applyRecord addressHex stored last := by
  have written : ∀ existing : Account, recordTime existing < recordTime last →
      applyRecord addressHex (some existing) last =
        some (mergedAccount addressHex existing last) := by
    intro existing earlier
    rw [applyRecord, mergeAccountForWrite_some, if_neg (by omega), if_neg (by omega)]
  cases stored with
  | none =>
    have created : recordTime (newAccountForWrite record) < recordTime last := older
    exact (written _ created).trans (congrArg some covers)
  | some doc =>
    have merged : recordTime (mergedAccount addressHex doc record) < recordTime last := older
    rw [applyRecord.eq_def _ (some doc) record, mergeAccountForWrite_some]
    split_ifs with stale
    · rfl
    · rfl
    · dsimp only
      rw [written _ merged, written doc (by omega), Overrides.mergedAccount_eq covers]

end

/-! ## One call -/

/-- The document of a write operation. -/
def RestoreOp.written : RestoreOp → Option Account
  | .kv doc => some doc
  | .ref _ _ => none

theorem execRestoreOps_eq (ops : List RestoreOp) (store : Accounts) :
    execRestoreOps store ops = (ops.filterMap RestoreOp.written).foldl Accounts.put store := by
  induction ops generalizing store with
  | nil => rfl
  | cons op rest ih =>
    cases op with
    | kv doc => exact ih (store.put doc)
    | ref key target => exact ih store

/-- The chunks before a failing one are executed. -/
theorem commitRestoreOps_cases (commitOk : Nat → Bool) (batches : List (List RestoreOp)) :
    ∀ (index : Nat) (store : Accounts), ∃ ops, ops <+: batches.flatten ∧
      (commitRestoreOps commitOk index batches store).2 = execRestoreOps store ops ∧
      ((commitRestoreOps commitOk index batches store).1 = .ok () → ops = batches.flatten) ∧
      ((∀ index, commitOk index = true) →
        (commitRestoreOps commitOk index batches store).1 = .ok ()) := by
  induction batches with
  | nil => exact fun _ _ => ⟨[], prefix_rfl, rfl, fun _ => rfl, fun _ => rfl⟩
  | cons batch rest ih =>
    intro index store
    rw [commitRestoreOps]
    split
    · obtain ⟨ops, initial, executed, all, succeeds⟩ := ih (index + 1) (execRestoreOps store batch)
      refine ⟨batch ++ ops, (prefix_append_right_inj batch).mpr initial, ?_, ?_, succeeds⟩
      · rw [executed, execRestoreOps, execRestoreOps, execRestoreOps, foldl_append]
      · intro done
        rw [all done, flatten_cons]
    · next fails => exact ⟨[], nil_prefix, rfl, nofun, fun ok => absurd (ok index) fails⟩

section

variable {env : RestoreEnv} {entries : List RestoreEntry} {store : Accounts}

/-- The document a batch writes for an address. -/
def restoredDoc (env : RestoreEnv) (store : Accounts) (entries : List RestoreEntry)
    (address : Address) : Option Account :=
  (addressSet entries address).bind fun incoming =>
    mergeAccountForWrite env.addressHex (existingAccounts env store incoming.address) incoming

theorem restoredDoc_address (addr : Address) (doc : Account)
    (written : restoredDoc env store entries addr = some doc) : doc.address = addr := by
  obtain ⟨incoming, found, merged⟩ := Option.bind_eq_some_iff.mp written
  rw [← (mem_of_addressSet found).2]
  unfold mergeAccountForWrite at merged
  split at merged
  · cases merged
    rfl
  dsimp only at merged
  split_ifs at merged
  cases merged
  rfl

theorem written_refs {α : Type} (list : List α) (key : α → String) (target : α → Address) :
    (list.map fun item => RestoreOp.ref (key item) (target item)).filterMap RestoreOp.written =
      [] := by
  induction list with
  | nil => rfl
  | cons item rest ih => exact ih

theorem written_addressOps (incoming : Account) :
    (addressOps env store entries incoming).filterMap RestoreOp.written =
      (mergeAccountForWrite env.addressHex (existingAccounts env store incoming.address)
        incoming).toList := by
  rw [addressOps]
  split
  · next none => rw [none]; rfl
  next merged writes =>
  have first : RestoreOp.written (.kv merged) = some merged := rfl
  rw [writes, filterMap_cons_some first, written_refs]
  rfl

/-- The documents a batch writes, in the order of its loop. -/
theorem written_restoreOps :
    (restoreOps env store entries).filterMap RestoreOp.written =
      (env.order.order (addressKeys entries)).filterMap (restoredDoc env store entries) := by
  have written : (fun addr => ((addressSet entries addr).toList.flatMap
        (addressOps env store entries)).filterMap RestoreOp.written) =
      fun addr => (restoredDoc env store entries addr).toList := by
    funext addr
    rw [restoredDoc]
    cases addressSet entries addr with
    | none => rfl
    | some incoming => simp [written_addressOps]
  rw [restoreOps, filterMap_append, didOps, written_refs, append_nil,
    filterMap_eq_flatMap_toList (addressSet entries), flatMap_assoc,
    filterMap_flatMap, written, ← filterMap_eq_flatMap_toList]

/-- A call leaves the document of an address or writes the one of the batch. -/
theorem batchRestoreAccounts_cases (env : RestoreEnv) (entries : List RestoreEntry)
    (store : Accounts) (addr : Address) :
    (batchRestoreAccounts env entries store).2.get addr = store.get addr ∨
      ∃ doc, restoredDoc env store entries addr = some doc ∧
        (batchRestoreAccounts env entries store).2.get addr = some doc := by
  rw [batchRestoreAccounts]
  split_ifs
  · exact .inl rfl
  · exact .inl rfl
  · exact .inl rfl
  obtain ⟨ops, initial, executed, -⟩ := commitRestoreOps_cases env.commitOk
    (chunks immudbMaxOpsPerTx (restoreOps env store entries)) 0 store
  rw [flatten_chunks (by decide)] at initial
  have docs := initial.filterMap RestoreOp.written
  rw [written_restoreOps] at docs
  rw [executed, execRestoreOps_eq]
  rcases Accounts.foldl_put_mem (ops.filterMap RestoreOp.written) store addr with
    kept | ⟨doc, mem, located, found⟩
  · exact .inl kept
  · obtain ⟨key, -, written⟩ := mem_filterMap.mp (docs.subset mem)
    rw [restoredDoc_address key doc written] at located
    exact .inr ⟨doc, located ▸ written, found⟩

/-- A successful call writes every document of the batch. -/
theorem batchRestoreAccounts_done (done : (batchRestoreAccounts env entries store).1 = .ok ())
    (addr : Address) :
    (batchRestoreAccounts env entries store).2.get addr =
      (restoredDoc env store entries addr).or (store.get addr) := by
  rw [batchRestoreAccounts] at done ⊢
  split_ifs at done ⊢
  obtain ⟨ops, -, executed, all, -⟩ := commitRestoreOps_cases env.commitOk
    (chunks immudbMaxOpsPerTx (restoreOps env store entries)) 0 store
  rw [executed, all done, flatten_chunks (by decide), execRestoreOps_eq, written_restoreOps,
    Accounts.foldl_put_get _ restoredDoc_address]
  cases written : restoredDoc env store entries addr with
  | none =>
    refine if_neg ?_
    rintro ⟨-, ⟨⟩⟩
  | some doc =>
    obtain ⟨incoming, found, -⟩ := Option.bind_eq_some_iff.mp written
    obtain ⟨listed, here⟩ := mem_of_addressSet found
    exact if_pos ⟨(MapOrder.mem_order _).mpr (mem_dedup.mpr
      (mem_filterMap.mpr ⟨_, listed, congrArg some here⟩)), rfl⟩

/-- A successful call writes the newest record of each address over the stored
document. -/
theorem batchRestoreAccounts_get (decodes : ∀ addr, env.decodes addr = true)
    (done : (batchRestoreAccounts env entries store).1 = .ok ()) (addr : Address) :
    (batchRestoreAccounts env entries store).2.get addr =
      (newest recordTime (addressRecords addr entries)).elim (store.get addr)
        (applyRecord env.addressHex (store.get addr)) := by
  rw [batchRestoreAccounts_done done, ← addressSet_eq_newest, restoredDoc]
  cases found : addressSet entries addr with
  | none => rfl
  | some incoming =>
    have here : existingAccounts env store incoming.address = store.get addr := by
      rw [existingAccounts, (mem_of_addressSet found).2, if_pos (decodes addr)]
    rw [Option.bind_some, here, Option.elim_some, mergeAccountForWrite_or]

end

/-- After a successful call every address of the batch has a document at least as new
as each of its records. -/
theorem recordTime_le_batchRestoreAccounts {env : RestoreEnv} {entries : List RestoreEntry}
    {store : Accounts} (done : (batchRestoreAccounts env entries store).1 = .ok ())
    (listed : .address doc ∈ entries) :
    ∃ stored, (batchRestoreAccounts env entries store).2.get doc.address = some stored ∧
      recordTime doc ≤ recordTime stored := by
  have record : doc ∈ addressRecords doc.address entries :=
    mem_filterMap.mpr ⟨_, listed, if_pos rfl⟩
  rw [batchRestoreAccounts_done done, restoredDoc]
  cases found : addressSet entries doc.address with
  | none =>
    rw [addressSet_eq_newest, newest_eq_none] at found
    simp [found] at record
  | some incoming =>
    have newer : recordTime doc ≤ recordTime incoming :=
      le_newest ((addressSet_eq_newest entries doc.address).symm.trans found) doc record
    rw [Option.bind_some, existingAccounts, (mem_of_addressSet found).2]
    split
    · obtain ⟨stored, same, later⟩ :=
        exists_applyRecord env.addressHex (store.get doc.address) incoming
      exact ⟨stored, (mergeAccountForWrite_or _ _ _).trans same, newer.trans later⟩
    · exact ⟨_, rfl, newer⟩

/-! ## What restores keep -/

/-- The counters of an account have not gone back, and its identity and balance have not
been emptied. -/
structure Keeps (before after : Account) : Prop where
  txNonce : before.txNonce ≤ after.txNonce
  txCountSent : before.txCountSent ≤ after.txCountSent
  nonce : before.nonce ≠ 0 → after.nonce ≠ 0
  didAddress : before.didAddress ≠ "" → after.didAddress ≠ ""
  balance : ¬isZeroBalanceString before.balance → ¬isZeroBalanceString after.balance

theorem Keeps.merged {before : Account} (keeps : Keeps before doc)
    (addressHex : Address → String) (incoming : Account) :
    Keeps before (mergedAccount addressHex doc incoming) := by
  obtain ⟨txNonce, txCountSent, nonce, didAddress, balance⟩ := keeps
  constructor <;> simp only [mergedAccount] <;> grind

/-- The account of an address whose stored documents decode is kept by any number of
restores, failing ones included. -/
theorem restores_keep_account (store : Accounts)
    (restores : List (RestoreEnv × List RestoreEntry))
    (decodes : ∀ restore ∈ restores, restore.1.decodes addr = true)
    (stored : store.get addr = some doc) :
    ∃ after, Keeps doc after ∧ (restores.foldl (fun store restore =>
      (batchRestoreAccounts restore.1 restore.2 store).2) store).get addr = some after := by
  have initially : Keeps doc doc := ⟨UInt64.le_refl _, UInt64.le_refl _, id, id, id⟩
  apply foldlRecOn restores (motive := fun after : Accounts =>
    ∃ kept, Keeps doc kept ∧ after.get addr = some kept) _ ⟨doc, initially, stored⟩
  rintro store ⟨before, keeps, found⟩ ⟨env, entries⟩ listed
  rcases batchRestoreAccounts_cases env entries store addr with same | ⟨after, restored, got⟩
  · exact ⟨before, keeps, same.trans found⟩
  obtain ⟨incoming, newest, merged⟩ := Option.bind_eq_some_iff.mp restored
  rw [(mem_of_addressSet newest).2, existingAccounts, if_pos (decodes _ listed), found] at merged
  simp only [mergeAccountForWrite] at merged
  split_ifs at merged
  cases merged
  exact ⟨_, keeps.merged _ _, got⟩

/-- A record without a balance comes for a stored account. -/
theorem empty_record_keeps_account : ∃ after, Keeps { address := 1, balance := "5" } after ∧
    (batchRestoreAccounts {} [.address { address := 1, updatedAt := 1 }]
      (Accounts.empty.put { address := 1, balance := "5" })).2.get 1 = some after :=
  restores_keep_account _ [({}, [.address { address := 1, updatedAt := 1 }])] (by simp) rfl

end Jmdn.DBOPs
