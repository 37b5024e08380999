import Jmdn.Nodeinfo.Worker
import Jmdn.Transition.Run

/-!
# Cutting the account queue into batches

`processBatch` writes the account records of a batch before it applies the batch's
blocks, and of the records that share a chunk and an address it writes one.  So how
the stream is cut into batches decides what is written in which order.  Address by
address a batch is one of the library's: the records of its chunks, then the
changes of its blocks.  It leaves what its entries leave in stream order if no record
that it drops or moves before a block is missed.
-/

namespace Jmdn.Nodeinfo

open Config DBOPs FastsyncV2 List Register Transition

variable {ref : BlockReconRef} {refs : List BlockReconRef} {block : ZKBlock}

/-! ## The steps of a stream -/

/-- The writes or the blocks of a parsed entry. -/
def Parsed.steps : Parsed → List (RestoreEntry ⊕ BlockReconRef)
  | .restore writes => writes.map .inl
  | .recon refs => refs.map .inr
  | _ => []

/-- The writes and the blocks of a stream, in order. -/
def streamSteps (entries : List StreamEntry) : List (RestoreEntry ⊕ BlockReconRef) :=
  entries.flatMap fun entry => (entry.payload.parse 0).steps

/-- The writes of a stream. -/
def streamWrites (entries : List StreamEntry) : List RestoreEntry :=
  (streamSteps entries).filterMap Sum.getLeft?

/-- Accounts, updates that carry their time, and blocks. -/
def StreamEntry.inScope (entry : StreamEntry) : Bool :=
  match entry.payload with
  | .updates data => data.all fun wires => wires.all fun wire => wire.updatedAt ≠ 0
  | .txMarkers _ => false
  | _ => true

section

variable (blocks : UInt64 → Option ZKBlock) (address : Address)

/-- The transactions marked as applied after a block. -/
def refApplied (applied : Hash → Bool) (ref : BlockReconRef) : Hash → Bool :=
  match blocks ref.blockNumber with
  | none => applied
  | some block => fun hash => applied hash || hash ∈ (blockGroups applied block).flatten

/-- What the groups of a block do to the document of an address they touch. -/
def refChanges (applied : Hash → Bool) (ref : BlockReconRef) :
    List (Option Account → Option Account) :=
  match blocks ref.blockNumber with
  | none => []
  | some block =>
    ((blockGroups applied block).filter fun group => address ∈ (groupDeltas block group).keys).map
      fun group doc => groupChange block address doc group

/-- What the steps of a stream are for one address: its records, and the changes of
the blocks. -/
def addressItems : (Hash → Bool) → List (RestoreEntry ⊕ BlockReconRef) →
    List (Item (Option Account) Account)
  | _, [] => []
  | applied, .inl write :: rest =>
    (addressRecords address [write]).map .record ++ addressItems applied rest
  | applied, .inr ref :: rest =>
    (refChanges blocks address applied ref).map .change ++
      addressItems (refApplied blocks applied ref) rest

/-- The transactions marked as applied after the blocks of a stream. -/
def streamApplied (applied : Hash → Bool) (steps : List (RestoreEntry ⊕ BlockReconRef)) :
    Hash → Bool :=
  (steps.filterMap Sum.getRight?).foldl (refApplied blocks) applied

end

section

variable {blocks : UInt64 → Option ZKBlock} {address : Address}

/-- The records of a stream are its writes for the address. -/
theorem records_addressItems (steps : List (RestoreEntry ⊕ BlockReconRef)) :
    ∀ applied, records (addressItems blocks address applied steps) =
      addressRecords address (steps.filterMap Sum.getLeft?) := by
  induction steps with
  | nil => exact fun _ => rfl
  | cons step rest ih =>
    intro applied
    cases step with
    | inl write =>
      rw [addressItems, records_append, records_map_record, ih, ← addressRecords_append]
      rfl
    | inr ref =>
      rw [addressItems, records_append, records_map_change, ih]
      rfl

theorem changes_addressItems (steps : List (RestoreEntry ⊕ BlockReconRef)) :
    ∀ applied, changes (addressItems blocks address applied steps) =
      changes (addressItems blocks address applied
        ((steps.filterMap Sum.getRight?).map .inr)) := by
  induction steps with
  | nil => exact fun _ => rfl
  | cons step rest ih =>
    intro applied
    cases step with
    | inl write =>
      rw [addressItems, changes_append, changes_map_record, ih]
      rfl
    | inr ref =>
      have split : ((Sum.inr ref :: rest).filterMap Sum.getRight?).map Sum.inr =
        .inr ref :: (rest.filterMap Sum.getRight?).map (.inr : _ → RestoreEntry ⊕ _) := rfl
      rw [split, addressItems, addressItems, changes_append, changes_append, ih]

theorem addressItems_append (first second : List (RestoreEntry ⊕ BlockReconRef)) :
    ∀ applied, addressItems blocks address applied (first ++ second) =
      addressItems blocks address applied first ++
        addressItems blocks address (streamApplied blocks applied first) second := by
  induction first with
  | nil => exact fun _ => rfl
  | cons head rest ih =>
    intro applied
    cases head <;> rw [cons_append, addressItems, addressItems, ih, append_assoc] <;> rfl

/-- Groups that do not touch the address change nothing. -/
theorem applyChanges_groups (groups : List (List Hash)) (doc : Option Account) :
    applyChanges doc ((groups.filter fun group => address ∈ (groupDeltas block group).keys).map
      fun group doc => groupChange block address doc group) =
      groups.foldl (groupChange block address) doc := by
  induction groups generalizing doc with
  | nil => rfl
  | cons group rest ih =>
    rw [foldl_cons, ← ih, filter_cons]
    split
    · rfl
    · next untouched => rw [groupChange, if_neg fun touched => untouched (decide_eq_true touched)]

end

/-! ## The blocks of a batch -/

/-- What applied blocks leave. -/
structure RefsEffect (refs : List BlockReconRef) (before after : DB) : Prop where
  get : ∀ address, after.accounts.get address =
    applyChanges (before.accounts.get address)
      (changes (addressItems before.blocks address before.txApplied (refs.map .inr)))
  txApplied : after.txApplied = refs.foldl (refApplied before.blocks) before.txApplied
  blocks : after.blocks = before.blocks

theorem RefsEffect.cons {before middle after : DB}
    (stored : before.blocks ref.blockNumber = some block)
    (first : Reconciled block (blockGroups before.txApplied block) before middle)
    (later : RefsEffect refs middle after) : RefsEffect (ref :: refs) before after := by
  have marked : middle.txApplied = refApplied before.blocks before.txApplied ref := by
    funext hash
    rw [refApplied, stored, first.txApplied]
  constructor
  case get =>
    intro address
    rw [later.get, first.get, first.blocks, marked, map_cons, addressItems, changes_append,
      changes_map_change, applyChanges_append, refChanges, stored, applyChanges_groups]
  case txApplied =>
    rw [later.txApplied, first.blocks, marked]
    rfl
  case blocks => exact later.blocks.trans first.blocks

theorem applyEntry_effect {recon : BlockReconRef → ReconEnv} {later : List BlockReconRef}
    {after : DB} (refs : List BlockReconRef) :
    ∀ db : DB, (applyEntry recon refs db).1 = true →
      RefsEffect later (applyEntry recon refs db).2 after → RefsEffect (refs ++ later) db after := by
  induction refs with
  | nil => exact fun _ _ effect => effect
  | cons ref rest ih =>
    intro db done effect
    rw [applyEntry] at done effect
    split at done
    · next ok =>
      rw [if_pos ok] at effect
      obtain ⟨block, stored, reconciled⟩ := applyBlockRecon_reconciled ok
      exact RefsEffect.cons stored reconciled (ih _ done effect)
    · cases done

section

variable {env : BatchEnv}

theorem reconcileEntries_effect (list : List (String × List BlockReconRef)) :
    ∀ db : DB, failedRecons env list db = [] →
      RefsEffect (list.flatMap Prod.snd) db (reconcileEntries env list db).2 := by
  induction list with
  | nil => exact fun db _ => ⟨fun _ => rfl, rfl, rfl⟩
  | cons entry rest ih =>
    intro db none
    obtain ⟨id, refs⟩ := entry
    rw [failedRecons] at none
    split at none
    · next applied => exact applyEntry_effect refs db applied (ih _ none)
    · cases none

/-! ## The records of a batch -/

/-- Surroundings in which addresses are written as text in one way and every stored
document decodes. -/
structure Faithful (addressHex : Address → String) (env : BatchEnv) : Prop where
  addressHex : ∀ index, (env.restore index).addressHex = addressHex
  decodes : ∀ index address, (env.restore index).decodes address = true

theorem restoreChunks_get {addressHex : Address → String} (faithful : Faithful addressHex env)
    (address : Address) (list : List (List RestoreEntry)) :
    ∀ (index : Nat) (store : Accounts), (restoreChunks env index list store).1 = true →
      (restoreChunks env index list store).2.get address =
        (list.map (addressRecords address)).foldl
          (writeNewest (applyRecord addressHex) recordTime) (store.get address) := by
  induction list with
  | nil => exact fun _ _ _ => rfl
  | cons chunk rest ih =>
    intro index store done
    rw [restoreChunks] at done ⊢
    split at done
    · next ok =>
      rw [if_pos ok, ih (index + 1) _ done,
        batchRestoreAccounts_get (faithful.decodes index) ok, faithful.addressHex]
      rfl
    · cases done

theorem updateWiresToEntries_of_timed (now : Int64) {wires : List AccountUpdateWire}
    (timed : ∀ wire ∈ wires, wire.updatedAt ≠ 0) :
    updateWiresToEntries now wires = updateWiresToEntries 0 wires := by
  unfold updateWiresToEntries
  induction wires with
  | nil => rfl
  | cons wire rest ih =>
    have first : ∀ balance, sparseAccount now wire balance = sparseAccount 0 wire balance := by
      intro balance
      rw [sparseAccount, sparseAccount, if_neg (timed wire mem_cons_self),
        if_neg (timed wire mem_cons_self)]
    rw [mapM_cons, mapM_cons,
      ih fun other mem => timed other (mem_cons_of_mem _ mem)]
    simp only [first]

/-- The clock does not show in entries that carry their time, and none of them has
markers. -/
theorem parse_of_inScope {entry : StreamEntry} (scope : entry.inScope = true) (now : Int64) :
    entry.payload.parse now = entry.payload.parse 0 ∧
      ∀ assigned, entry.payload.parse 0 ≠ .markers assigned := by
  unfold StreamEntry.inScope at scope
  cases kind : entry.payload with
  | accounts data =>
    refine ⟨rfl, fun assigned => ?_⟩
    rw [Payload.parse]
    cases parseAccountsPayload data <;> simp
  | updates data =>
    rw [kind] at scope
    simp only [Payload.parse]
    cases parsed : parseUpdatesPayload data with
    | none => exact ⟨rfl, by simp⟩
    | some wires =>
      have timed := (Option.all_eq_true _ _).mp scope wires (Option.mem_filter_iff.mp parsed).1
      rw [Option.bind_some, Option.bind_some,
        updateWiresToEntries_of_timed now (by simpa using timed)]
      refine ⟨rfl, fun assigned => ?_⟩
      cases updateWiresToEntries 0 wires <;> simp
  | txMarkers data =>
    rw [kind] at scope
    cases scope
  | blockRecon data =>
    refine ⟨rfl, fun assigned => ?_⟩
    rw [Payload.parse]
    cases parseBlockReconPayload data <;> simp
  | unknown payloadType => exact ⟨rfl, by simp [Payload.parse]⟩

/-- What `processBatch` sorts the entries into. -/
theorem sorted_of_inScope (env : BatchEnv) {entries : List StreamEntry}
    (scope : ∀ entry ∈ entries, entry.inScope = true) :
    writeEntries env entries = streamWrites entries ∧
      (blockRecons env entries).flatMap Prod.snd =
        (streamSteps entries).filterMap Sum.getRight? ∧
      txMarkers env entries = [] := by
  induction entries with
  | nil => exact ⟨rfl, rfl, rfl⟩
  | cons entry rest ih =>
    rw [forall_mem_cons] at scope
    obtain ⟨writes, blocks, markers⟩ := ih scope.2
    obtain ⟨same, unmarked⟩ := parse_of_inScope scope.1 env.now
    simp only [writeEntries, blockRecons, txMarkers, streamWrites, streamSteps]
      at writes blocks markers ⊢
    simp only [flatMap_cons, filterMap_cons, filterMap_append, same, writes, markers, ← blocks]
    cases parsed : entry.payload.parse 0 with
    | markers assigned => exact absurd parsed (unmarked assigned)
    | poison => exact ⟨rfl, rfl, rfl⟩
    | restore list => simp [Parsed.steps, Function.comp_def]
    | recon refs => simp [Parsed.steps, Function.comp_def]

theorem writeTxProcessedMarkers_nil (failsAt : Option Nat) (order : Go.MapOrder Hash)
    (markers : Markers) : writeTxProcessedMarkers failsAt order markers [] = (markers, true) := by
  have none : order.order [] = [] := (order.perm []).eq_nil
  simp only [writeTxProcessedMarkers, map_nil, dedup_nil, none]
  cases failsAt <;> simp

/-! ## One batch -/

section

variable (cfg : WorkerConfig) (addressHex : Address → String) (entries : List StreamEntry)

/-- The groups of a batch for one address: its records, chunk by chunk. -/
def addressGroups (address : Address) : List (List Account) :=
  (chunks cfg.maxAccountsPerBatch (streamWrites entries)).map (addressRecords address)

/-- A call of `processBatch` that returns nil and applies every block of the batch. -/
def batchStep : Step DB (BatchEnv × List StreamEntry) := fun db batch =>
  if (processBatch cfg batch.1 batch.2 db).failed = false ∧
      failedRecons batch.1 (blockRecons batch.1 batch.2) (writeBatch cfg batch.1 batch.2 db).2 = []
    then some (processBatch cfg batch.1 batch.2 db).db
  else none

/-- What a successful batch leaves. -/
structure BatchEffect (before after : DB) : Prop where
  get : ∀ address, after.accounts.get address =
    applyBatch (applyRecord addressHex) recordTime (before.accounts.get address)
      (addressGroups cfg entries address,
        addressItems before.blocks address before.txApplied (streamSteps entries))
  txApplied : after.txApplied = streamApplied before.blocks before.txApplied (streamSteps entries)
  blocks : after.blocks = before.blocks

/-- The document that a stream leaves record by record and block by block. -/
def streamDocument (db : DB) (address : Address) : Option Account :=
  inOrder (applyRecord addressHex) (db.accounts.get address)
    (addressItems db.blocks address db.txApplied (streamSteps entries))

/-- What a stream leaves record by record and block by block. -/
structure StreamEffect (before after : DB) : Prop where
  get : ∀ address, after.accounts.get address = streamDocument addressHex entries before address
  txApplied : after.txApplied = streamApplied before.blocks before.txApplied (streamSteps entries)
  blocks : after.blocks = before.blocks

/-- A batch in which for an account no dropped record is missed, and every record behind a
block that changes the account loses against the document before the block and against
the one after the blocks before it. -/
def OrderKept (db : DB) (address : Address) : Prop :=
  let stored := db.accounts.get address
  AllKept (applyRecord addressHex) recordTime (Covers addressHex) stored
      (addressGroups cfg entries address) ∧
    InPlace (applyRecord addressHex) stored
      (addressItems db.blocks address db.txApplied (streamSteps entries))

/-- A batch of which this holds for every account with a record. -/
def KeepsStreamOrder (db : DB) (batch : BatchEnv × List StreamEntry) : Prop :=
  ∀ address ∈ addressKeys (streamWrites batch.2), OrderKept cfg addressHex batch.2 db address

/-- A way of cutting a stream into batches that all succeed and start in states of a
kind. -/
structure Cutting (guard : DB → BatchEnv × List StreamEntry → Prop) (before : DB)
    (batches : List (BatchEnv × List StreamEntry)) (after : DB) : Prop where
  whole : batches.flatMap Prod.snd = entries
  faithful : ∀ batch ∈ batches, Faithful addressHex batch.1
  runs : Runs (batchStep cfg) guard before batches after

end

variable {cfg : WorkerConfig} {addressHex : Address → String} {entries : List StreamEntry}
  {db before middle after : DB}

theorem flatten_addressGroups (address : Address) :
    (addressGroups cfg entries address).flatten = addressRecords address (streamWrites entries) := by
  rw [addressGroups, addressRecords, ← flatten_chunks cfg.positive (streamWrites entries),
    filterMap_flatten, flatten_chunks cfg.positive]
  rfl

section

variable (scope : ∀ entry ∈ entries, entry.inScope = true)
include scope

theorem BatchEffect.of_parts (env : BatchEnv) (accounts : Accounts)
    (get : ∀ address, accounts.get address =
      (addressGroups cfg entries address).foldl (writeNewest (applyRecord addressHex) recordTime)
        (db.accounts.get address))
    (reconciled : RefsEffect ((blockRecons env entries).flatMap Prod.snd) { db with accounts }
      after) : BatchEffect cfg addressHex entries db after := by
  rw [(sorted_of_inScope env scope).2.1] at reconciled
  refine ⟨fun address => ?_, reconciled.txApplied, reconciled.blocks⟩
  rw [reconciled.get, get, applyBatch, changes_addressItems (streamSteps entries)]
  rfl

theorem processBatch_effect (faithful : Faithful addressHex env)
    (done : batchStep cfg db (env, entries) = some after) :
    BatchEffect cfg addressHex entries db after := by
  obtain ⟨⟨returns, reconciles⟩, left⟩ := Option.ite_none_right_eq_some.mp done
  cases left
  obtain ⟨writes, -, markers⟩ := sorted_of_inScope env scope
  dsimp only at returns reconciles ⊢
  rw [processBatch] at returns ⊢
  split at returns
  · next nothing =>
    rw [if_pos nothing]
    refine BatchEffect.of_parts scope env db.accounts (fun address => ?_) ?_
    · rw [addressGroups, ← writes, nothing.1, chunks_nil cfg.positive]
      rfl
    · rw [nothing.2.2]
      exact ⟨fun _ => rfl, rfl, rfl⟩
  next something =>
  rw [if_neg something]
  split at returns
  · cases returns
  next written wrote =>
  obtain ⟨restored, -, same⟩ := of_writeBatch (congrArg Prod.fst wrote)
  rw [wrote, markers, writeTxProcessedMarkers_nil] at same
  rw [wrote] at reconciles
  subst same
  refine BatchEffect.of_parts scope env _ (fun address => ?_)
    (reconcileEntries_effect _ _ reconciles)
  rw [restoreChunks_get faithful address _ 0 _ restored, writes]
  rfl

end

/-! ## Batches in stream order -/

instance (address : Address) : Decidable (OrderKept cfg addressHex entries db address) :=
  inferInstanceAs (Decidable (_ ∧ _))

instance (batch : BatchEnv × List StreamEntry) :
    Decidable (KeepsStreamOrder cfg addressHex db batch) :=
  decidable_of_iff (((addressKeys (streamWrites batch.2)).all fun address =>
    OrderKept cfg addressHex batch.2 db address) = true) (by simp [KeepsStreamOrder])

theorem StreamEffect.append {first second : List StreamEntry}
    (one : StreamEffect addressHex first before middle)
    (two : StreamEffect addressHex second middle after) :
    StreamEffect addressHex (first ++ second) before after := by
  have steps : streamSteps (first ++ second) = streamSteps first ++ streamSteps second :=
    flatMap_append
  constructor
  case get =>
    intro address
    rw [two.get, streamDocument, one.get, streamDocument, streamDocument, steps,
      addressItems_append, inOrder_append, one.blocks, one.txApplied]
  case txApplied =>
    rw [two.txApplied, one.blocks, one.txApplied, steps, streamApplied, streamApplied,
      streamApplied, filterMap_append, foldl_append]
  case blocks => exact two.blocks.trans one.blocks

theorem addressRecords_eq_nil {address : Address} {writes : List RestoreEntry}
    (absent : address ∉ addressKeys writes) : addressRecords address writes = [] := by
  refine filterMap_eq_nil_iff.mpr fun write listed => ?_
  cases write with
  | did key doc => rfl
  | address doc =>
    refine if_neg fun here => absent (mem_dedup.mpr (mem_filterMap.mpr ⟨_, listed, ?_⟩))
    exact congrArg some here

/-- A batch that keeps stream order leaves what its entries leave in stream order. -/
theorem KeepsStreamOrder.effect {batch : BatchEnv × List StreamEntry}
    (keeps : KeepsStreamOrder cfg addressHex before batch)
    (effect : BatchEffect cfg addressHex batch.2 before after) :
    StreamEffect addressHex batch.2 before after := by
  refine ⟨fun address => (effect.get address).trans ?_, effect.txApplied, effect.blocks⟩
  have flat : (addressGroups cfg batch.2 address).flatten = records
      (addressItems before.blocks address before.txApplied (streamSteps batch.2)) := by
    rw [flatten_addressGroups, records_addressItems]
    rfl
  by_cases listed : address ∈ addressKeys (streamWrites batch.2)
  · obtain ⟨kept, inPlace⟩ := keeps address listed
    exact applyBatch_eq_inOrder applyRecord_of_covers flat kept inPlace
  · have none : (addressGroups cfg batch.2 address).flatten = [] :=
      (flatten_addressGroups address).trans (addressRecords_eq_nil listed)
    exact applyBatch_eq_inOrder applyRecord_of_covers flat (allKept_of_flatten_eq_nil none)
      (inPlace_of_records_eq_nil (flat.symm.trans none))

/-- Batches that keep stream order leave what the stream leaves. -/
theorem Cutting.effect {batches : List (BatchEnv × List StreamEntry)}
    (scope : ∀ entry ∈ entries, entry.inScope = true)
    (cutting : Cutting cfg addressHex entries (KeepsStreamOrder cfg addressHex) before batches
      after) :
    StreamEffect addressHex entries before after := by
  obtain ⟨rfl, faithful, runs⟩ := cutting
  induction runs with
  | nil => exact ⟨fun _ => rfl, rfl, rfl⟩
  | @snoc middle final batches batch _ keeps done ih =>
    rw [flatMap_append, forall_mem_append] at scope
    rw [forall_mem_append] at faithful
    rw [flatMap_append]
    have last : [batch].flatMap Prod.snd = batch.2 := flatMap_singleton ..
    rw [last] at scope ⊢
    exact (ih faithful.1 scope.1).append (keeps.effect
      (processBatch_effect scope.2 (faithful.2 batch mem_cons_self) done))

/-- Batches in which every call of the surroundings succeeds. -/
def plainBatches (parts : List (List StreamEntry)) : List (BatchEnv × List StreamEntry) :=
  parts.map fun part => ({}, part)

theorem plainBatches_cutting {guard : DB → BatchEnv × List StreamEntry → Prop}
    [∀ db batch, Decidable (guard db batch)] (parts : List (List StreamEntry))
    (done : (runIf (batchStep cfg) (fun db batch => guard db batch) db
      (plainBatches parts)).isSome = true) :
    Cutting cfg (fun _ => "") parts.flatten guard db (plainBatches parts)
      ((runIf (batchStep cfg) (fun db batch => guard db batch) db (plainBatches parts)).get
        done) := by
  refine ⟨?_, fun batch mem => ?_, runs_of_runIf (fun _ _ => of_decide_eq_true)
    (Option.some_get done).symm⟩
  · rw [plainBatches, flatMap_map, flatMap_id']
  · obtain ⟨part, -, rfl⟩ := mem_map.mp mem
    exact ⟨fun _ => rfl, fun _ _ => rfl⟩

/-- An account with an identity. -/
def identifiedAccount : Account :=
  { didAddress := "did:jmdn:realdid"
    nonce := 5
    address := 2
    balance := "100"
    accountType := "validator"
    createdAt := 111
    updatedAt := 1700000000 }

/-- An update of its balance. -/
def balanceUpdate (id balance : String) (updatedAt : Int64) : StreamEntry :=
  { id, payload := .updates (some [{ address := 2, newBalance := balance, updatedAt }]) }

/-- A stream with the account and a later update of its balance. -/
def accountThenUpdate : List StreamEntry :=
  [{ id := "1-0", payload := .accounts (some [some identifiedAccount]) },
    balanceUpdate "2-0" "5000" 1700000060]

/-- A block that pays the account. -/
def payingAccount : ZKBlock :=
  { blockNumber := 1
    blockHash := 1
    timestamp := 1700000030
    coinbaseAddr := some 3
    zkvmAddr := some 4
    transactions := [{ hash := 17, fromAddr := some 1, toAddr := some 2, value := some 1 }] }

/-- A database with the block, which is not applied. -/
def onePayment : DB :=
  { blocks := fun number => if number = 1 then some payingAccount else none }

def blockOne (id : String) : StreamEntry :=
  { id, payload := .blockRecon (some [{ blockNumber := 1, blockHash := some 1 }]) }

/-- A stream with the block and a later balance of the account. -/
def blockThenUpdate : List StreamEntry :=
  [blockOne "1-0", balanceUpdate "2-0" "5000" 1700000060]

/-- A stream with two full records of the account, the block, and an update from before
the block. -/
def recordsAroundBlock : List StreamEntry :=
  [{ id := "1-0", payload := .accounts (some [some identifiedAccount]) },
    { id := "2-0", payload := .accounts (some [some { identifiedAccount with
      nonce := 6, balance := "200", updatedAt := 1700000010 }]) },
    blockOne "3-0", balanceUpdate "4-0" "150" 1700000005]

/-- In chunks of one record nothing is dropped. -/
example : KeepsStreamOrder { maxAccountsPerBatch := 1 } (fun _ => "") {}
    ({}, accountThenUpdate) := by
  decide +kernel

end

end Jmdn.Nodeinfo
