import Jmdn.DBOPs.Restore
import Jmdn.Register.Orders

/-!
# Convergence of account records

Account records for one address, written one at a time with
`mergeAccountForWrite`.  Every field of the stored document is a register filled
by the records: the timestamp is the time, the balance the tag, and a zero
balance is blank.  So the library says for each field when the order of the
records does not matter, and the document converges when that holds of all of
them.
-/

namespace Jmdn.DBOPs

open Config Go List Register

variable {doc first : Account} {counter : Account → UInt64} {rest : List Account}

/-- Write one record; the stored document stays when it wins. -/
def applyRecord (addressHex : Address → String) (stored : Option Account) (record : Account) :
    Option Account :=
  match mergeAccountForWrite addressHex stored record with
  | some merged => some merged
  | none => stored

/-- Write records one at a time. -/
def applyRecords (addressHex : Address → String) (stored : Option Account)
    (records : List Account) : Option Account :=
  records.foldl (applyRecord addressHex) stored

/-- Every order of the records ends in the same document, and a second round
changes nothing. -/
structure Convergent (addressHex : Address → String) (records : List Account) : Prop where
  ordered : ∀ order : List Account, order.Perm records →
    applyRecords addressHex none order = applyRecords addressHex none records
  replayed : ∀ order : List Account, order.Perm records →
    applyRecords addressHex (applyRecords addressHex none order) order =
      applyRecords addressHex none order

/-- Records are compared by their normalized time, then by their balance. -/
def accountFeed : Feed Account Int String where
  time record := (normalizeUpdatedAtNanos record.updatedAt).toInt
  tag := Account.balance
  blank := isZeroBalanceString

def addressField : Field Account Address where
  initial := Account.address
  carried _ := true

def updatedAtField : Field Account Int64 where
  initial := Account.updatedAt
  carried _ := true

/-- An empty DID, or one that is the address in hex, says nothing. -/
def didAddressField (addressHex : Address → String) : Field Account String where
  initial := Account.didAddress
  carried record :=
    !(record.didAddress = "" || equalFoldHex record.didAddress (addressHex record.address))

/-- The creation time of a new account defaults to its time. -/
def createdAtField : Field Account Int64 where
  initial record := if record.createdAt = 0 then record.updatedAt else record.createdAt
  carried record := record.createdAt != 0

/-- The type of a new account defaults to `user`, which says nothing later. -/
def accountTypeField : Field Account String where
  initial record := if record.accountType = "" then "user" else record.accountType
  carried record := record.accountType != "" && record.accountType != "user"

def metadataField : Field Account (Option String) where
  initial := Account.metadata
  carried record := record.metadata.isSome

def nonceField : Field Account UInt64 where
  initial := Account.nonce
  carried record := record.nonce != 0

/-- A counter that never decreases, seen from its maximum: a record says that the
maximum is reached, or nothing. -/
def counterField (counter : Account → UInt64) (top : UInt64) : Field Account Bool where
  initial record := counter record == top
  carried record := counter record == top

/-- A counter settles at its maximum. -/
structure CounterSettles (counter : Account → UInt64) (records : List Account) (top : UInt64) :
    Prop where
  bounded : ∀ record ∈ records, counter record ≤ top
  reached : accountFeed.Settles (counterField counter top) records true

/-- The records settle every field of the document. -/
structure RecordsSettle (addressHex : Address → String) (records : List Account) : Prop where
  balance : accountFeed.TagsSettle records
  updatedAt : ∃ value, accountFeed.Settles updatedAtField records value
  didAddress : ∃ value, accountFeed.Settles (didAddressField addressHex) records value
  createdAt : ∃ value, accountFeed.Settles createdAtField records value
  accountType : ∃ value, accountFeed.Settles accountTypeField records value
  metadata : ∃ value, accountFeed.Settles metadataField records value
  nonce : ∃ value, accountFeed.Settles nonceField records value
  txNonce : ∃ top, CounterSettles Account.txNonce records top
  txCountSent : ∃ top, CounterSettles Account.txCountSent records top

section

variable {α : Type} {addressHex : Address → String}

def nextDocument (addressHex : Address → String) (doc record : Account) : Account :=
  (mergeAccountForWrite addressHex (some doc) record).getD doc

/-- The document after a nonempty sequence of records. -/
def document (addressHex : Address → String) (first : Account) (rest : List Account) : Account :=
  rest.foldl (nextDocument addressHex) (newAccountForWrite first)

theorem applyRecord_some (doc record : Account) :
    applyRecord addressHex (some doc) record = some (nextDocument addressHex doc record) := by
  unfold applyRecord nextDocument
  cases mergeAccountForWrite addressHex (some doc) record <;> rfl

theorem applyRecords_some (doc : Account) (records : List Account) :
    applyRecords addressHex (some doc) records =
      some (records.foldl (nextDocument addressHex) doc) := by
  induction records generalizing doc with
  | nil => rfl
  | cons record rest ih =>
    rw [applyRecords, foldl_cons, applyRecord_some]
    exact ih (nextDocument addressHex doc record)

theorem applyRecords_cons (first : Account) (rest : List Account) :
    applyRecords addressHex none (first :: rest) = some (document addressHex first rest) :=
  applyRecords_some (newAccountForWrite first) rest

/-- The document as one of its fields sees it. -/
def documentCell (get : Account → α) (doc : Account) : Cell Int String α where
  time := accountFeed.time doc
  tag := doc.balance
  value := get doc

theorem nextDocument_eq (get : Account → α) (doc record : Account) :
    nextDocument addressHex doc record =
      if accountFeed.Stale (documentCell get doc) record then doc
      else mergedAccount addressHex doc record := by
  have older : accountFeed.time record < (documentCell get doc).time ↔
      normalizeUpdatedAtNanos doc.updatedAt > normalizeUpdatedAtNanos record.updatedAt :=
    Int64.lt_iff_toInt_lt.symm
  have same : accountFeed.time record = (documentCell get doc).time ↔
      normalizeUpdatedAtNanos doc.updatedAt = normalizeUpdatedAtNanos record.updatedAt :=
    Int64.toInt_inj.trans eq_comm
  have balance : accountFeed.tag record = (documentCell get doc).tag ↔
      doc.balance = record.balance := eq_comm
  unfold nextDocument mergeAccountForWrite Feed.Stale
  simp only [older, same, balance]
  split
  · next newer => exact (if_pos (.inl newer)).symm
  next older =>
  split
  · next tie => exact (if_pos (.inr tie)).symm
  · next differs => exact (if_neg (not_or.mpr ⟨older, differs⟩)).symm

/-- A part of the document that is filled as a field of a register is. -/
structure Tracks (addressHex : Address → String) (records : List Account)
    (field : Field Account α) (get : Account → α) (Good : Account → Prop) : Prop where
  goodNew : ∀ record ∈ records, Good (newAccountForWrite record)
  goodMerged : ∀ doc, Good doc → ∀ record ∈ records, Good (mergedAccount addressHex doc record)
  new : ∀ record ∈ records, get (newAccountForWrite record) = field.initial record
  merged : ∀ doc, Good doc → ∀ record ∈ records,
    get (mergedAccount addressHex doc record) =
      if field.carried record then field.initial record else get doc

variable {records : List Account} {field : Field Account α} {get : Account → α}
  {Good : Account → Prop}

section

variable (tracks : Tracks addressHex records field get Good)
include tracks

theorem nextDocument_cell (good : Good doc) {record : Account} (found : record ∈ records) :
    Good (nextDocument addressHex doc record) ∧
      documentCell get (nextDocument addressHex doc record) =
        accountFeed.next field (documentCell get doc) record := by
  rw [nextDocument_eq get]
  rw [Feed.next]
  split_ifs
  · exact ⟨good, rfl⟩
  refine ⟨tracks.goodMerged doc good record found, ?_⟩
  apply Cell.ext
  · rfl
  · simp [documentCell, mergedAccount, Feed.write, Feed.mergedTag, accountFeed]
  · exact tracks.merged doc good record found

/-- The document follows the register. -/
theorem document_cell (order : (first :: rest).Perm records) :
    Good (document addressHex first rest) ∧
      documentCell get (document addressHex first rest) = accountFeed.after field first rest := by
  have found : first ∈ records := order.mem_iff.mp mem_cons_self
  have known : ∀ record ∈ rest, record ∈ records := fun record mem =>
    order.mem_iff.mp (mem_cons_of_mem first mem)
  have start : documentCell get (newAccountForWrite first) = accountFeed.fresh field first := by
    apply Cell.ext
    · rfl
    · rfl
    · exact tracks.new first found
  have good := tracks.goodNew first found
  unfold document Feed.after
  rw [← start]
  clear order start found
  revert good
  generalize newAccountForWrite first = doc
  intro good
  induction rest generalizing doc with
  | nil => exact ⟨good, rfl⟩
  | cons record rest ih =>
    have step := nextDocument_cell tracks good (known record mem_cons_self)
    rw [foldl_cons, foldl_cons, ← step.2]
    exact ih (fun other mem => known other (mem_cons_of_mem record mem)) _ step.1

/-- A tracked part of every order's document, and of a replay on it, once the
field settles. -/
theorem tracked_settled {winner : Account} (winning : WinningTag accountFeed records winner)
    {value : α} (settles : accountFeed.Settles field records value)
    (order : (first :: rest).Perm records) :
    get (document addressHex first rest) = value ∧
      (document addressHex first rest).balance = winner.balance ∧
      ∀ record ∈ records,
        get (nextDocument addressHex (document addressHex first rest) record) = value ∧
        (nextDocument addressHex (document addressHex first rest) record).balance =
          winner.balance := by
  obtain ⟨good, cell⟩ := document_cell tracks order
  have ends := endsWith_of_settles settles first rest order
  have final : (accountFeed.after field first rest).time = accountFeed.time winner ∧
      (accountFeed.after field first rest).tag = accountFeed.tag winner :=
    after_winningTag winning order
  obtain ⟨reached, won⟩ := final
  rw [← cell] at ends reached won
  refine ⟨ends, won, ?_⟩
  intro record found
  have replay := (nextDocument_cell tracks good found).2
  have stays : accountFeed.next field (documentCell get (document addressHex first rest)) record =
      documentCell get (document addressHex first rest) := next_settled winning
    (fun other latest carried => (settles.harmless other latest carried).trans ends.symm)
    reached won found
  rw [stays] at replay
  exact ⟨(congrArg Cell.value replay).trans ends, (congrArg Cell.tag replay).trans won⟩

end

end

section

variable (addressHex : Address → String) (records : List Account)

variable {addressHex records} in
/-- A field that is tracked on all documents. -/
theorem Tracks.plain {α : Type} {field : Field Account α} {get : Account → α}
    (new : ∀ record, get (newAccountForWrite record) = field.initial record)
    (merged : ∀ doc record, get (mergedAccount addressHex doc record) =
      if field.carried record then field.initial record else get doc) :
    Tracks addressHex records field get fun _ => True :=
  ⟨fun _ _ => trivial, fun _ _ _ _ => trivial, fun record _ => new record,
    fun doc _ record _ => merged doc record⟩

theorem tracks_address : Tracks addressHex records addressField Account.address fun _ => True :=
  .plain (fun _ => rfl) fun _ _ => rfl

theorem tracks_updatedAt :
    Tracks addressHex records updatedAtField Account.updatedAt fun _ => True :=
  .plain (fun _ => rfl) fun _ _ => rfl

theorem tracks_didAddress :
    Tracks addressHex records (didAddressField addressHex) Account.didAddress fun _ => True := by
  refine .plain (fun _ => rfl) fun doc record => ?_
  unfold mergedAccount didAddressField
  by_cases unset : record.didAddress = "" <;>
    cases folded : equalFoldHex record.didAddress (addressHex record.address) <;>
    simp [unset, folded]

theorem tracks_createdAt :
    Tracks addressHex records createdAtField Account.createdAt fun _ => True := by
  refine .plain (fun record => ?_) fun doc record => ?_
  · unfold newAccountForWrite createdAtField
    by_cases unset : record.createdAt = 0 <;> by_cases untimed : record.updatedAt = 0 <;>
      simp [unset, untimed]
  · unfold mergedAccount createdAtField
    by_cases unset : record.createdAt = 0 <;> simp [unset]

/-- A stored type is never empty. -/
theorem tracks_accountType :
    Tracks addressHex records accountTypeField Account.accountType
      fun doc => doc.accountType ≠ "" where
  goodNew record _ := by
    unfold newAccountForWrite
    by_cases unset : record.accountType = "" <;> simp [unset]
  goodMerged doc good record _ := by
    unfold mergedAccount
    by_cases silent : record.accountType = "" ∨ record.accountType = "user"
    · simp [silent, good]
    · simp only [silent, false_and, if_false]
      exact fun unset => silent (.inl unset)
  new _ _ := rfl
  merged doc good record _ := by
    unfold mergedAccount accountTypeField
    by_cases unset : record.accountType = "" <;> by_cases user : record.accountType = "user" <;>
      simp [unset, user, good]

theorem tracks_metadata :
    Tracks addressHex records metadataField Account.metadata fun _ => True := by
  refine .plain (fun _ => rfl) fun doc record => ?_
  unfold mergedAccount metadataField
  cases held : record.metadata <;> simp [held]

theorem tracks_nonce : Tracks addressHex records nonceField Account.nonce fun _ => True := by
  refine .plain (fun _ => rfl) fun doc record => ?_
  unfold mergedAccount nonceField
  by_cases unset : record.nonce = 0 <;> simp [unset]

/-- A part of the document that is merged by maximum. -/
structure MergedByMaximum (counter : Account → UInt64) : Prop where
  new : ∀ record, counter (newAccountForWrite record) = counter record
  merged : ∀ doc record, counter (mergedAccount addressHex doc record) =
    if counter record < counter doc then counter doc else counter record

theorem txNonce_maximum : MergedByMaximum addressHex Account.txNonce :=
  ⟨fun _ => rfl, fun _ _ => rfl⟩

theorem txCountSent_maximum : MergedByMaximum addressHex Account.txCountSent :=
  ⟨fun _ => rfl, fun _ _ => rfl⟩

variable {addressHex records}

theorem tracks_counter {top : UInt64} (maximum : MergedByMaximum addressHex counter)
    (bounded : ∀ record ∈ records, counter record ≤ top) :
    Tracks addressHex records (counterField counter top) (fun doc => counter doc == top)
      fun doc => counter doc ≤ top where
  goodNew record found := by
    rw [maximum.new]
    exact bounded record found
  goodMerged doc good record found := by
    rw [maximum.merged]
    split
    · exact good
    · exact bounded record found
  new record _ := by
    rw [maximum.new]
    rfl
  merged doc good record found := by
    change (counter (mergedAccount addressHex doc record) == top) =
      if counter record == top then counter record == top else counter doc == top
    rw [maximum.merged]
    by_cases reached : counter record = top
    · have least : ¬counter record < counter doc := by
        rw [reached]
        exact UInt64.not_lt.mpr good
      rw [if_neg least, if_pos (beq_iff_eq.mpr reached)]
    · have other : ¬(counter record == top) = true := fun equal => reached (beq_iff_eq.mp equal)
      rw [if_neg other]
      split_ifs with less
      · rfl
      have below : counter doc ≠ top := by
        intro equal
        rw [equal] at less
        exact reached (UInt64.le_antisymm (bounded record found) (UInt64.not_lt.mp less))
      rw [beq_eq_false_iff_ne.mpr reached, beq_eq_false_iff_ne.mpr below]

theorem counter_le_document (maximum : MergedByMaximum addressHex counter) (first : Account)
    (rest : List Account) :
    counter first ≤ counter (document addressHex first rest) := by
  rw [document, ← maximum.new first]
  generalize newAccountForWrite first = doc
  induction rest generalizing doc with
  | nil => exact UInt64.le_refl _
  | cons record rest ih =>
    refine UInt64.le_trans ?_ (ih (nextDocument addressHex doc record))
    rw [nextDocument_eq counter]
    split
    · exact UInt64.le_refl _
    rw [maximum.merged]
    split
    · exact UInt64.le_refl _
    · next least => exact UInt64.not_lt.mp least

end

section

variable {addressHex : Address → String} {records : List Account}

/-- What all orders of records that settle end in, and stay in. -/
theorem exists_settled_document {address : Address}
    (ofAddress : ∀ record ∈ records, record.address = address) (some : records ≠ [])
    (settle : RecordsSettle addressHex records) :
    ∃ doc : Account, ∀ first rest, (first :: rest).Perm records →
      document addressHex first rest = doc ∧
      ∀ record ∈ records, nextDocument addressHex doc record = doc := by
  obtain ⟨winner, winning⟩ := exists_winningTag some settle.balance
  obtain ⟨updatedAt, atUpdated⟩ := settle.updatedAt
  obtain ⟨didAddress, atDid⟩ := settle.didAddress
  obtain ⟨createdAt, atCreated⟩ := settle.createdAt
  obtain ⟨accountType, atType⟩ := settle.accountType
  obtain ⟨metadata, atMetadata⟩ := settle.metadata
  obtain ⟨nonce, atNonce⟩ := settle.nonce
  obtain ⟨txNonce, boundedNonce, atTxNonce⟩ := settle.txNonce
  obtain ⟨txCountSent, boundedSent, atTxCountSent⟩ := settle.txCountSent
  have atAddress : accountFeed.Settles addressField records address :=
    ⟨fun record latest _ => ofAddress record latest.mem, .uniform ofAddress⟩
  refine ⟨{ didAddress, nonce, address, balance := winner.balance, txNonce, txCountSent,
            accountType, createdAt, updatedAt, metadata }, ?_⟩
  intro first rest order
  have onAddress := tracked_settled (tracks_address addressHex records) winning atAddress order
  have onUpdated := tracked_settled (tracks_updatedAt addressHex records) winning atUpdated order
  have onDid := tracked_settled (tracks_didAddress addressHex records) winning atDid order
  have onCreated := tracked_settled (tracks_createdAt addressHex records) winning atCreated order
  have onType := tracked_settled (tracks_accountType addressHex records) winning atType order
  have onMetadata := tracked_settled (tracks_metadata addressHex records) winning atMetadata order
  have onNonce := tracked_settled (tracks_nonce addressHex records) winning atNonce order
  have onTxNonce := tracked_settled
    (tracks_counter (txNonce_maximum addressHex) boundedNonce) winning atTxNonce order
  have onTxCountSent := tracked_settled
    (tracks_counter (txCountSent_maximum addressHex) boundedSent) winning atTxCountSent order
  have ends : document addressHex first rest =
      { didAddress, nonce, address, balance := winner.balance, txNonce, txCountSent,
        accountType, createdAt, updatedAt, metadata } :=
    Account.ext onDid.1 onNonce.1 onAddress.1 onAddress.2.1 (beq_iff_eq.mp onTxNonce.1)
      (beq_iff_eq.mp onTxCountSent.1) onType.1 onCreated.1 onUpdated.1 onMetadata.1
  refine ⟨ends, ?_⟩
  intro record found
  rw [← ends]
  conv_rhs => rw [ends]
  exact Account.ext (onDid.2.2 record found).1 (onNonce.2.2 record found).1
    (onAddress.2.2 record found).1 (onAddress.2.2 record found).2
    (beq_iff_eq.mp (onTxNonce.2.2 record found).1)
    (beq_iff_eq.mp (onTxCountSent.2.2 record found).1) (onType.2.2 record found).1
    (onCreated.2.2 record found).1 (onUpdated.2.2 record found).1 (onMetadata.2.2 record found).1

/-- A tracked part that is the same for every order settles. -/
theorem settles_of_documents {α : Type} {field : Field Account α} {get : Account → α}
    {Good : Account → Prop} (tracks : Tracks addressHex records field get Good)
    (some : records ≠ []) (tags : accountFeed.TagsSettle records)
    (same : ∀ first rest, (first :: rest).Perm records → document addressHex first rest = doc) :
    accountFeed.Settles field records (get doc) := by
  apply (endsWith_iff some tags).mp
  intro first rest order
  have cell := (document_cell tracks order).2
  rw [← cell, same first rest order]
  rfl

theorem counterSettles_of_documents (maximum : MergedByMaximum addressHex counter)
    (some : records ≠ []) (tags : accountFeed.TagsSettle records)
    (same : ∀ first rest, (first :: rest).Perm records → document addressHex first rest = doc) :
    CounterSettles counter records (counter doc) := by
  have bounded : ∀ record ∈ records, counter record ≤ counter doc := by
    intro record found
    obtain ⟨rest, order⟩ := exists_order_first found
    rw [← same record rest order]
    exact counter_le_document maximum record rest
  have reached := settles_of_documents (tracks_counter maximum bounded) some tags same
  rw [beq_self_eq_true] at reached
  exact ⟨bounded, reached⟩

theorem recordsSettle_of_documents (some : records ≠ [])
    (same : ∀ first rest, (first :: rest).Perm records → document addressHex first rest = doc) :
    RecordsSettle addressHex records := by
  have ends : ∀ first rest, (first :: rest).Perm records →
      (accountFeed.after updatedAtField first rest).tag = doc.balance := by
    intro first rest order
    rw [← (document_cell (tracks_updatedAt addressHex records) order).2, same first rest order]
    rfl
  have tags := tagsSettle_of_ends some ends
  exact
    { balance := tags
      updatedAt := ⟨_, settles_of_documents (tracks_updatedAt addressHex records) some tags same⟩
      didAddress := ⟨_, settles_of_documents (tracks_didAddress addressHex records) some tags same⟩
      createdAt := ⟨_, settles_of_documents (tracks_createdAt addressHex records) some tags same⟩
      accountType :=
        ⟨_, settles_of_documents (tracks_accountType addressHex records) some tags same⟩
      metadata := ⟨_, settles_of_documents (tracks_metadata addressHex records) some tags same⟩
      nonce := ⟨_, settles_of_documents (tracks_nonce addressHex records) some tags same⟩
      txNonce := ⟨_, counterSettles_of_documents (txNonce_maximum addressHex) some tags same⟩
      txCountSent :=
        ⟨_, counterSettles_of_documents (txCountSent_maximum addressHex) some tags same⟩ }

theorem foldl_nextDocument_fixed (fixed : ∀ record ∈ rest, nextDocument addressHex doc record = doc) :
    rest.foldl (nextDocument addressHex) doc = doc := by
  induction rest with
  | nil => rfl
  | cons record rest ih =>
    rw [foldl_cons, fixed record mem_cons_self]
    exact ih fun other found => fixed other (mem_cons_of_mem record found)

theorem convergent_nil : Convergent addressHex [] := by
  constructor
  · intro order empty
    rw [List.Perm.eq_nil empty]
  · intro order empty
    rw [List.Perm.eq_nil empty]
    rfl

theorem convergent_of_document (some : records ≠ [])
    (settled : ∀ first rest, (first :: rest).Perm records →
      document addressHex first rest = doc ∧
      ∀ record ∈ records, nextDocument addressHex doc record = doc) :
    Convergent addressHex records := by
  have ends : ∀ order : List Account, order.Perm records →
      applyRecords addressHex none order = Option.some doc := by
    intro order perm
    cases order with
    | nil => exact absurd perm.symm.eq_nil some
    | cons first rest => rw [applyRecords_cons, (settled first rest perm).1]
  constructor
  · intro order perm
    rw [ends order perm, ends records (.refl _)]
  · intro order perm
    rw [ends order perm, applyRecords_some]
    cases order with
    | nil => exact absurd perm.symm.eq_nil some
    | cons first rest =>
      rw [foldl_nextDocument_fixed fun record found =>
        (settled first rest perm).2 record (perm.mem_iff.mp found)]

/-- Records of one address converge exactly when they settle every field. -/
theorem records_converge_iff (addressHex : Address → String) (address : Address)
    (records : List Account) (ofAddress : ∀ record ∈ records, record.address = address) :
    Convergent addressHex records ↔ records = [] ∨ RecordsSettle addressHex records := by
  constructor
  · intro convergent
    cases records with
    | nil => exact .inl rfl
    | cons first rest =>
      have same : ∀ other tail, (other :: tail).Perm (first :: rest) →
          document addressHex other tail = document addressHex first rest := by
        intro other tail order
        have ends := convergent.ordered (other :: tail) order
        rw [applyRecords_cons, applyRecords_cons] at ends
        exact Option.some.inj ends
      exact .inr (recordsSettle_of_documents (cons_ne_nil first rest) same)
  · rintro (rfl | settle)
    · exact convergent_nil
    · by_cases none : records = []
      · rw [none]
        exact convergent_nil
      · obtain ⟨doc, settled⟩ := exists_settled_document ofAddress none settle
        exact convergent_of_document none settled

/-- An address of decimal digits only, whose checksummed text has no letter case. -/
def plainAddress : Address := 0x1111111111111111111111111111111111111111

def plainAddressHex : Address → String := fun _ => "0x1111111111111111111111111111111111111111"

/-- The full document of an account, stamped in seconds. -/
def fullRecord (updatedAt : Int64) : Account where
  didAddress := "did:jmdn:realdid"
  nonce := 5
  address := plainAddress
  balance := "999"
  txNonce := 12
  txCountSent := 9
  accountType := "validator"
  createdAt := 111
  updatedAt := updatedAt
  metadata := some "keep-me"

/-- A sparse update, stamped in nanoseconds. -/
def sparseRecord (updatedAt : Int64) : Account where
  address := plainAddress
  balance := "5000"
  txNonce := 10
  txCountSent := 4
  updatedAt := updatedAt

/-- A sparse update and a newer full document. -/
def refreshedRecords : List Account :=
  [sparseRecord 1700000000000000000, fullRecord 1700000060]

/-- A full document that is newer than a sparse update. -/
theorem newer_full_record_converges :
    (∀ record ∈ refreshedRecords, record.address = plainAddress) ∧
      Convergent plainAddressHex refreshedRecords := by
  have ofAddress : ∀ record ∈ refreshedRecords, record.address = plainAddress := by
    intro record found
    simp only [refreshedRecords, mem_cons, not_mem_nil, or_false] at found
    rcases found with rfl | rfl <;> rfl
  have latest : accountFeed.Latest refreshedRecords (fullRecord 1700000060) := by
    refine ⟨by simp [refreshedRecords], ?_⟩
    intro record found
    simp only [refreshedRecords, mem_cons, not_mem_nil, or_false] at found
    rcases found with rfl | rfl <;> decide +kernel
  have only : ∀ record, accountFeed.Latest refreshedRecords record →
      record = fullRecord 1700000060 := by
    intro record last
    have found := last.mem
    simp only [refreshedRecords, mem_cons, not_mem_nil, or_false] at found
    rcases found with rfl | same
    · exact absurd (last.newest _ latest.mem) (by decide +kernel)
    · exact same
  have counters : ∀ counter : Account → UInt64,
      counter (sparseRecord 1700000000000000000) ≤ counter (fullRecord 1700000060) →
      CounterSettles counter refreshedRecords (counter (fullRecord 1700000060)) := by
    intro counter below
    refine ⟨?_, ?_⟩
    · intro record found
      simp only [refreshedRecords, mem_cons, not_mem_nil, or_false] at found
      rcases found with rfl | rfl
      · exact below
      · exact UInt64.le_refl _
    · have reached : accountFeed.Settles
          (counterField counter (counter (fullRecord 1700000060))) refreshedRecords
          (counter (fullRecord 1700000060) == counter (fullRecord 1700000060)) :=
        settles_of_newest latest only (beq_self_eq_true _)
      rw [beq_self_eq_true] at reached
      exact reached
  refine ⟨ofAddress, (records_converge_iff plainAddressHex plainAddress _ ofAddress).mpr (.inr ?_)⟩
  exact
    { balance := ⟨fun first second last newest _ _ => by rw [only first last, only second newest],
        .inl ⟨_, latest, by decide⟩⟩
      updatedAt := ⟨_, settles_of_newest latest only rfl⟩
      didAddress := ⟨_, settles_of_newest latest only (by decide +kernel)⟩
      createdAt := ⟨_, settles_of_newest latest only (by decide)⟩
      accountType := ⟨_, settles_of_newest latest only (by decide)⟩
      metadata := ⟨_, settles_of_newest latest only rfl⟩
      nonce := ⟨_, settles_of_newest latest only (by decide)⟩
      txNonce := ⟨_, counters Account.txNonce (by decide)⟩
      txCountSent := ⟨_, counters Account.txCountSent (by decide)⟩ }

/-- The full document is lost when the newer sparse update arrives first: its DID,
type, metadata and counters are kept in one order and dropped in the other. -/
theorem older_full_record_is_lost :
    [sparseRecord 1700000060000000000, fullRecord 1700000000].Perm
        [fullRecord 1700000000, sparseRecord 1700000060000000000] ∧
      applyRecords plainAddressHex none
          [fullRecord 1700000000, sparseRecord 1700000060000000000] =
        some { fullRecord 1700000060000000000 with balance := "5000" } ∧
      applyRecords plainAddressHex none
          [sparseRecord 1700000060000000000, fullRecord 1700000000] =
        some { sparseRecord 1700000060000000000 with
          accountType := "user", createdAt := 1700000060000000000 } ∧
      ¬Convergent plainAddressHex
        [fullRecord 1700000000, sparseRecord 1700000060000000000] := by
  have swapped : [sparseRecord 1700000060000000000, fullRecord 1700000000].Perm
      [fullRecord 1700000000, sparseRecord 1700000060000000000] := .swap _ _ _
  refine ⟨swapped, by decide +kernel, by decide +kernel, ?_⟩
  intro convergent
  have same := convergent.ordered _ swapped
  revert same
  decide +kernel

end

end Jmdn.DBOPs
