import Jmdn.DBOPs.RestoreEffects
import Jmdn.FastsyncV2.Anchor
import Jmdn.Nodeinfo.Stream

/-!
# The drain worker on one batch

The payloads of the account queue and `processBatch` of
`DB_OPs/Nodeinfo/account_sync_worker.go`.  A payload is the value its JSON text
decodes to, absent if the text is not of the expected form; addresses and hashes
are values here, so an empty hash text is an absent hash.
-/

namespace Jmdn.Nodeinfo

open Config DBOPs FastsyncV2 Go List

variable {db : DB}

/-- `accountUpdateWire`. -/
structure AccountUpdateWire where
  address : Address
  newBalance : String
  nonce : UInt64 := 0
  txNonce : UInt64 := 0
  txCountSent : UInt64 := 0
  updatedAt : Int64 := 0
  deriving DecidableEq, Repr

/-- `txMarkerWire`. -/
structure TxMarkerWire where
  hash : Option Hash
  appliedAt : Int
  deriving DecidableEq, Repr

/-- `blockReconWire`. -/
structure BlockReconWire where
  blockNumber : UInt64
  blockHash : Option Hash
  deriving DecidableEq, Repr

/-- The `type` and `data` of an entry. -/
inductive Payload where
  | accounts (data : Option (List (Option Account)))
  | updates (data : Option (List AccountUpdateWire))
  | txMarkers (data : Option (List TxMarkerWire))
  | blockRecon (data : Option (List BlockReconWire))
  | unknown (payloadType : String)
  deriving DecidableEq, Repr

/-- `StreamEntry`. -/
structure StreamEntry where
  id : String
  payload : Payload
  deriving DecidableEq, Repr

/-- What `processBatch` takes an entry for. -/
inductive Parsed where
  | poison
  | restore (entries : List RestoreEntry)
  | markers (assigned : List (Hash × Int))
  | recon (blocks : List BlockReconRef)
  deriving DecidableEq, Repr

/-- The entries of one account: its address key, and its DID key if it has one. -/
def accountEntries (doc : Account) : List RestoreEntry :=
  if doc.didAddress = "" then [.address doc] else [.address doc, .did doc.didAddress doc]

/-- `parseAccountsPayload`; missing accounts are skipped. -/
def parseAccountsPayload (data : Option (List (Option Account))) : Option (List RestoreEntry) :=
  data.map fun accounts => (accounts.filterMap id).flatMap accountEntries

/-- `parseUpdatesPayload`. -/
def parseUpdatesPayload (data : Option (List AccountUpdateWire)) :
    Option (List AccountUpdateWire) :=
  data.filter fun wires => wires.all fun wire => (setString wire.newBalance).isSome

/-- The document of an update: without identity fields; `now` stands in for a
missing time. -/
def sparseAccount (now : Int64) (wire : AccountUpdateWire) (balance : Int) : Account :=
  { address := wire.address
    balance := formatInt balance
    nonce := wire.nonce
    txNonce := wire.txNonce
    txCountSent := wire.txCountSent
    updatedAt := if wire.updatedAt = 0 then now else wire.updatedAt }

/-- `updateWiresToEntries`. -/
def updateWiresToEntries (now : Int64) (wires : List AccountUpdateWire) :
    Option (List RestoreEntry) :=
  wires.mapM fun wire =>
    (setString wire.newBalance).map fun balance => .address (sparseAccount now wire balance)

/-- `parseTxMarkersPayload`. -/
def parseTxMarkersPayload (data : Option (List TxMarkerWire)) : Option (List (Hash × Int)) :=
  data.bind fun wires => wires.mapM fun wire =>
    match wire.hash with
    | none => none
    | some hash => if wire.appliedAt ≤ 0 then none else some (hash, wire.appliedAt)

/-- `parseBlockReconPayload`. -/
def parseBlockReconPayload (data : Option (List BlockReconWire)) : Option (List BlockReconRef) :=
  data.bind fun wires => wires.mapM fun wire =>
    wire.blockHash.map fun blockHash => { blockNumber := wire.blockNumber, blockHash }

/-- The switch of `processBatch` on the payload type. -/
def Payload.parse (now : Int64) : Payload → Parsed
  | .accounts data => (parseAccountsPayload data).elim .poison .restore
  | .updates data =>
    ((parseUpdatesPayload data).bind (updateWiresToEntries now)).elim .poison .restore
  | .txMarkers data => (parseTxMarkersPayload data).elim .poison .markers
  | .blockRecon data => (parseBlockReconPayload data).elim .poison .recon
  | .unknown _ => .poison

/-- What a batch takes from its surroundings: the clock, and how each call on
Redis and on the database ends. -/
structure BatchEnv where
  now : Int64 := 0
  poisonAckOk : Bool := true
  connOk : Bool := true
  restore : Nat → RestoreEnv := fun _ => {}
  markersFailAt : Option Nat := none
  markerOrder : MapOrder Hash := MapOrder.listed
  recon : String → BlockReconRef → ReconEnv := fun _ _ => {}
  ackOk : Bool := true

/-- `AccountSyncWorkerConfig`, as far as it shapes the writes. -/
structure WorkerConfig where
  maxAccountsPerBatch : Nat := 500
  positive : 0 < maxAccountsPerBatch := by decide

section

variable (cfg : WorkerConfig) (env : BatchEnv) (entries : List StreamEntry)

/-- `writeEntries`. -/
def writeEntries : List RestoreEntry :=
  entries.flatMap fun entry =>
    match entry.payload.parse env.now with
    | .restore writes => writes
    | _ => []

/-- The assignments to `txMarkers`, in order. -/
def txMarkers : List (Hash × Int) :=
  entries.flatMap fun entry =>
    match entry.payload.parse env.now with
    | .markers assigned => assigned
    | _ => []

/-- `blockRecons`. -/
def blockRecons : List (String × List BlockReconRef) :=
  entries.filterMap fun entry =>
    match entry.payload.parse env.now with
    | .recon blocks => some (entry.id, blocks)
    | _ => none

/-- `poisonIDs`. -/
def poisonIDs : List String :=
  (entries.filter fun entry => entry.payload.parse env.now = .poison).map StreamEntry.id

/-- `goodIDs` before the block-recon section. -/
def writtenIDs : List String :=
  (entries.filter fun entry =>
    match entry.payload.parse env.now with
    | .restore _ => true
    | .markers _ => true
    | _ => false).map StreamEntry.id

/-- The loop over the account chunks; a failing chunk ends it. -/
def restoreChunks : Nat → List (List RestoreEntry) → Accounts → Bool × Accounts
  | _, [], store => (true, store)
  | index, chunk :: rest, store =>
    let outcome := batchRestoreAccounts (env.restore index) chunk store
    if outcome.1 = .ok () then restoreChunks (index + 1) rest outcome.2 else (false, outcome.2)

/-- The loop over the block-recon entries: the identifiers of those that
succeeded, and the database.  Each entry succeeds or fails on its own. -/
def reconcileEntries : List (String × List BlockReconRef) → DB → List String × DB
  | [], db => ([], db)
  | (id, blocks) :: rest, db =>
    let outcome := applyEntry (env.recon id) blocks db
    let later := reconcileEntries rest outcome.2
    (if outcome.1 then id :: later.1 else later.1, later.2)

/-- How a batch ends: the database, whether it returned an error, the entries it
took off the pending list, and the identifiers it recorded as drained. -/
structure BatchOutcome where
  db : DB
  failed : Bool := false
  acked : List String := []
  drained : List String := []

/-- The acknowledgement of the poison pills. -/
def ackedPoison : List String :=
  if env.poisonAckOk then poisonIDs env entries else []

/-- The part of `processBatch` after the writes of accounts and markers. -/
def finishBatch (db : DB) : BatchOutcome :=
  let recon := reconcileEntries env (blockRecons env entries) db
  let goodIDs := writtenIDs env entries ++ recon.1
  { db := recon.2
    acked := ackedPoison env entries ++ if env.ackOk then goodIDs else []
    drained := if env.ackOk then goodIDs else [] }

/-- The writes of accounts and markers, on one connection: whether all of them
succeeded, and the database.  The markers come after every account chunk. -/
def writeBatch (db : DB) : Bool × DB :=
  if !env.connOk then (false, db)
  else
    match restoreChunks env 0 (chunks cfg.maxAccountsPerBatch (writeEntries env entries))
        db.accounts with
    | (false, accounts) => (false, { db with accounts })
    | (true, accounts) =>
      let marked := writeTxProcessedMarkers env.markersFailAt env.markerOrder db.txProcessed
        (txMarkers env entries)
      (marked.2, { db with accounts, txProcessed := marked.1 })

/-- `processBatch`. -/
def processBatch (db : DB) : BatchOutcome :=
  if writeEntries env entries = [] ∧ txMarkers env entries = [] ∧ blockRecons env entries = [] then
    -- nothing to write; entries without any record are left pending
    { db, acked := ackedPoison env entries }
  else
    match writeBatch cfg env entries db with
    | (false, written) => { db := written, failed := true, acked := ackedPoison env entries }
    | (true, written) => finishBatch env entries written

/-- The block-recon entries on which an `ApplyBlockRecon` fails. -/
def failedRecons : List (String × List BlockReconRef) → DB → List String
  | [], _ => []
  | (id, blocks) :: rest, db =>
    let outcome := applyEntry (env.recon id) blocks db
    if outcome.1 then failedRecons rest outcome.2 else id :: failedRecons rest outcome.2

/-! ## The databases on the way -/

/-- The account stores after each chunk. -/
def chunkStores : Nat → List (List RestoreEntry) → Accounts → List Accounts
  | _, [], _ => []
  | index, chunk :: rest, store =>
    let outcome := batchRestoreAccounts (env.restore index) chunk store
    outcome.2 :: if outcome.1 = .ok () then chunkStores (index + 1) rest outcome.2 else []

/-- The databases after each block-recon entry. -/
def entryDatabases : List (String × List BlockReconRef) → DB → List DB
  | [], _ => []
  | (id, blocks) :: rest, db =>
    let outcome := applyEntry (env.recon id) blocks db
    outcome.2 :: entryDatabases rest outcome.2

/-- The databases a batch leaves after each account chunk, after the markers and after
each block-recon entry. -/
def batchDatabases (db : DB) : List DB :=
  let written := writeBatch cfg env entries db
  (chunkStores env 0 (chunks cfg.maxAccountsPerBatch (writeEntries env entries))
      db.accounts).map (fun accounts => { db with accounts }) ++
    written.2 :: entryDatabases env (blockRecons env entries) written.2

end

/-- What an entry asks for has come true in one of the databases: every account record
met a document at least as new, every marker was set, and the blocks are stored under
their hashes with all their transactions marked. -/
def Parsed.Landed (databases : List DB) : Parsed → Prop
  | .poison => False
  | .restore writes => ∀ doc, .address doc ∈ writes → ∃ db ∈ databases, ∃ stored,
      db.accounts.get doc.address = some stored ∧ recordTime doc ≤ recordTime stored
  | .markers assigned => ∃ db ∈ databases, ∀ marker ∈ assigned, db.txApplied marker.1 = true
  | .recon refs => ∃ db ∈ databases, ∀ ref ∈ refs, ∃ block,
      db.blocks ref.blockNumber = some block ∧ block.blockHash = ref.blockHash ∧ Applied db block

/-! ## Which entries a batch settles -/

/-- Whether an entry can never be applied. -/
def StreamEntry.isPoison (entry : StreamEntry) : Bool :=
  entry.payload.parse 0 = .poison

variable {entry : StreamEntry} {cfg : WorkerConfig}

theorem updateWiresToEntries_isSome (now : Int64) (wires : List AccountUpdateWire) :
    (updateWiresToEntries now wires).isSome =
      wires.all fun wire => (setString wire.newBalance).isSome := by
  unfold updateWiresToEntries
  induction wires with
  | nil => rfl
  | cons wire rest ih =>
    rw [mapM_cons, all_cons, ← ih]
    cases setString wire.newBalance with
    | none => rfl
    | some balance =>
      simp only [Option.map_some, Option.isSome_some, Bool.true_and, Option.pure_def,
        Option.bind_eq_bind, Option.bind_some, Option.isSome_bind, Option.any_true]

/-- The clock does not decide whether an entry is a poison pill. -/
theorem isPoison_iff (now : Int64) (entry : StreamEntry) :
    entry.payload.parse now = .poison ↔ entry.isPoison = true := by
  unfold StreamEntry.isPoison
  rw [decide_eq_true_eq]
  cases entry.payload with
  | updates data =>
    simp only [Payload.parse]
    cases parseUpdatesPayload data with
    | none => rfl
    | some wires =>
      have first := updateWiresToEntries_isSome now wires
      have second := updateWiresToEntries_isSome 0 wires
      rw [← second] at first
      simp only [Option.bind_some]
      cases one : updateWiresToEntries now wires <;>
        cases two : updateWiresToEntries 0 wires <;> simp [one, two] at first ⊢
  | _ => rfl

section

variable {env : BatchEnv} {entries : List StreamEntry}

variable {id : String}

/-- An entry that is no poison pill is written with the batch or reconciled on
its own. -/
theorem of_mem_writtenIDs (mem : id ∈ writtenIDs env entries) :
    ∃ entry ∈ entries, entry.id = id ∧ entry.isPoison = false ∧
      ∀ blocks, entry.payload.parse env.now ≠ .recon blocks := by
  obtain ⟨entry, kept, rfl⟩ := mem_map.mp mem
  obtain ⟨listed, kind⟩ := mem_filter.mp kept
  refine ⟨entry, listed, rfl, ?_, ?_⟩
  · rw [Bool.eq_false_iff, Ne, ← isPoison_iff env.now]
    intro poison
    simp [poison] at kind
  · intro blocks recon
    simp [recon] at kind

theorem of_mem_blockRecons (mem : id ∈ (blockRecons env entries).map Prod.fst) :
    ∃ entry ∈ entries, entry.id = id ∧ entry.isPoison = false ∧
      ∃ blocks, entry.payload.parse env.now = .recon blocks := by
  obtain ⟨⟨_, blocks⟩, kept, rfl⟩ := mem_map.mp mem
  obtain ⟨entry, listed, kind⟩ := mem_filterMap.mp kept
  cases parsed : entry.payload.parse env.now with
  | recon found =>
    simp only [parsed, Option.some.injEq, Prod.mk.injEq] at kind
    refine ⟨entry, listed, kind.1, ?_, found, parsed⟩
    rw [Bool.eq_false_iff, Ne, ← isPoison_iff env.now, parsed]
    exact nofun
  | _ => simp [parsed] at kind

/-- Each block-recon entry succeeds or fails. -/
theorem reconcileEntries_perm (env : BatchEnv) (recons : List (String × List BlockReconRef))
    (db : DB) :
    ((reconcileEntries env recons db).1 ++ failedRecons env recons db).Perm
      (recons.map Prod.fst) := by
  induction recons generalizing db with
  | nil => exact .nil
  | cons first rest ih =>
    simp only [reconcileEntries, failedRecons]
    split
    · exact (ih _).cons first.1
    · exact perm_middle.trans ((ih _).cons first.1)

theorem blockRecons_distinct (distinct : (entries.map StreamEntry.id).Nodup) :
    ((blockRecons env entries).map Prod.fst).Nodup := by
  have sublist : ((blockRecons env entries).map Prod.fst).Sublist
      (entries.map StreamEntry.id) := by
    unfold blockRecons
    clear distinct
    induction entries with
    | nil => exact List.Sublist.slnil
    | cons entry rest ih =>
      rw [filterMap_cons, map_cons]
      split
      · exact ih.cons _
      next found kind =>
      split at kind
      · cases kind
        exact ih.cons_cons _
      · cases kind
  exact sublist.nodup distinct

/-- The markers of a payload carry positive times. -/
theorem positive_of_parseTxMarkersPayload {data : Option (List TxMarkerWire)}
    {assigned : List (Hash × Int)} (parsed : parseTxMarkersPayload data = some assigned) :
    ∀ marker ∈ assigned, 0 < marker.2 := by
  obtain ⟨wires, -, read⟩ := Option.bind_eq_some_iff.mp parsed
  clear parsed
  induction wires generalizing assigned with
  | nil =>
    cases read
    exact nofun
  | cons wire rest ih =>
    rw [mapM_cons] at read
    obtain ⟨first, checked, read⟩ := Option.bind_eq_some_iff.mp read
    obtain ⟨later, others, same⟩ := Option.bind_eq_some_iff.mp read
    cases same
    refine forall_mem_cons.mpr ⟨?_, ih others⟩
    split at checked
    · cases checked
    split_ifs at checked with early
    cases checked
    exact Int.not_le.mp early

theorem positive_of_parse {now : Int64} {payload : Payload} {assigned : List (Hash × Int)}
    (parsed : payload.parse now = .markers assigned) : ∀ marker ∈ assigned, 0 < marker.2 := by
  have outcome : ∀ {α : Type} {found : Option α} {kind : α → Parsed},
      found.elim .poison kind = .markers assigned →
        ∃ value, found = some value ∧ kind value = .markers assigned := by
    intro α found kind same
    cases found with
    | none => cases same
    | some value => exact ⟨value, rfl, same⟩
  cases payload with
  | txMarkers data =>
    obtain ⟨list, found, same⟩ := outcome parsed
    cases same
    exact positive_of_parseTxMarkersPayload found
  | unknown kind => cases parsed
  | _ =>
    obtain ⟨_, _, same⟩ := outcome parsed
    cases same

/-- Every record of a chunk meets a document at least as new. -/
theorem recordTime_le_chunkStores {list : List (List RestoreEntry)} {chunk : List RestoreEntry}
    {doc : Account} (inList : chunk ∈ list) (listed : .address doc ∈ chunk) {index : Nat}
    {store : Accounts} (done : (restoreChunks env index list store).1 = true) :
    ∃ accounts ∈ chunkStores env index list store, ∃ stored,
      accounts.get doc.address = some stored ∧ recordTime doc ≤ recordTime stored := by
  induction list generalizing index store with
  | nil => cases inList
  | cons first rest ih =>
    simp only [restoreChunks] at done
    simp only [chunkStores]
    split at done
    · next restored =>
      rcases mem_cons.mp inList with rfl | later
      · exact ⟨_, mem_cons_self, recordTime_le_batchRestoreAccounts restored listed⟩
      · obtain ⟨accounts, mem, newer⟩ := ih later done
        exact ⟨accounts, mem_cons_of_mem _ (by rwa [if_pos restored]), newer⟩
    · cases done

/-- The blocks of an entry that does not fail are applied. -/
theorem applied_entryDatabases {recons : List (String × List BlockReconRef)}
    {refs : List BlockReconRef} (listed : (id, refs) ∈ recons) {db : DB}
    (succeeds : id ∉ failedRecons env recons db) :
    ∃ after ∈ entryDatabases env recons db, ∀ ref ∈ refs, ∃ block,
      after.blocks ref.blockNumber = some block ∧ block.blockHash = ref.blockHash ∧
        Applied after block := by
  induction recons generalizing db with
  | nil => cases listed
  | cons first rest ih =>
    simp only [failedRecons] at succeeds
    simp only [entryDatabases]
    rcases mem_cons.mp listed with rfl | later
    · have done : (applyEntry (env.recon id) refs db).1 = true := by
        by_contra fails
        simp [fails] at succeeds
      obtain ⟨only, applies⟩ := applyEntry_applies (env.recon id) refs db
      have blocks := congrArg DB.blocks only.others
      refine ⟨_, mem_cons_self, fun ref mem => ?_⟩
      obtain ⟨block, stored, same⟩ := stored_of_applyEntry done ref mem
      exact ⟨block, blocks ▸ stored, same, applies done ref mem block stored⟩
    · have rests : id ∉ failedRecons env rest (applyEntry (env.recon first.1) first.2 db).2 := by
        split at succeeds
        · exact succeeds
        · exact fun failed => succeeds (mem_cons_of_mem _ failed)
      obtain ⟨after, mem, applied⟩ := ih later rests
      exact ⟨after, mem_cons_of_mem _ mem, applied⟩

theorem of_writeBatch (written : (writeBatch cfg env entries db).1 = true) :
    (restoreChunks env 0 (chunks cfg.maxAccountsPerBatch (writeEntries env entries))
        db.accounts).1 = true ∧
      (writeTxProcessedMarkers env.markersFailAt env.markerOrder db.txProcessed
        (txMarkers env entries)).2 = true ∧
      (writeBatch cfg env entries db).2 = { db with
        accounts := (restoreChunks env 0
          (chunks cfg.maxAccountsPerBatch (writeEntries env entries)) db.accounts).2
        txProcessed := (writeTxProcessedMarkers env.markersFailAt env.markerOrder db.txProcessed
          (txMarkers env entries)).1 } := by
  unfold writeBatch at written ⊢
  split at written
  · cases written
  next connected =>
  rw [if_neg connected]
  split at written
  · cases written
  next accounts restored =>
  rw [restored]
  exact ⟨rfl, written, rfl⟩

/-- The entries of a batch whose writes succeed land, except for poison pills and for
those on which an `ApplyBlockRecon` fails. -/
theorem landed_of_writeBatch (written : (writeBatch cfg env entries db).1 = true)
    (mem : entry ∈ entries) (sound : entry.isPoison = false) (succeeds : entry.id ∉
      failedRecons env (blockRecons env entries) (writeBatch cfg env entries db).2) :
    (entry.payload.parse env.now).Landed (batchDatabases cfg env entries db) := by
  obtain ⟨restored, marked, wrote⟩ := of_writeBatch written
  have markers := congrArg DB.txProcessed wrote
  have here : (writeBatch cfg env entries db).2 ∈ batchDatabases cfg env entries db :=
    mem_append_right _ mem_cons_self
  cases kind : entry.payload.parse env.now with
  | poison =>
    rw [isPoison_iff, sound] at kind
    cases kind
  | restore writes =>
    intro doc listed
    have inBatch : .address doc ∈ writeEntries env entries :=
      mem_flatMap.mpr ⟨entry, mem, by simpa only [kind] using listed⟩
    obtain ⟨chunk, inChunks, inChunk⟩ := (mem_chunks cfg.positive).mpr inBatch
    obtain ⟨accounts, stored, newer⟩ := recordTime_le_chunkStores inChunks inChunk restored
    exact ⟨_, mem_append_left _ (mem_map.mpr ⟨accounts, stored, rfl⟩), newer⟩
  | markers assigned =>
    refine ⟨_, here, fun marker listed => ?_⟩
    have positive : ∀ marker ∈ txMarkers env entries, 0 < marker.2 := by
      intro marker inBatch
      obtain ⟨other, -, inOther⟩ := mem_flatMap.mp inBatch
      split at inOther
      · next parsed => exact positive_of_parse parsed marker inOther
      · cases inOther
    rw [DB.txApplied, markers]
    exact isApplied_writeTxProcessedMarkers positive marked marker
      (mem_flatMap.mpr ⟨entry, mem, by simpa only [kind] using listed⟩)
  | recon refs =>
    have listed : (entry.id, refs) ∈ blockRecons env entries :=
      mem_filterMap.mpr ⟨entry, mem, by simp only [kind]⟩
    obtain ⟨after, inRest, applied⟩ := applied_entryDatabases listed succeeds
    exact ⟨after, mem_append_right _ (mem_cons_of_mem _ inRest), applied⟩

/-- What a batch records as drained was acknowledged after its writes, and
belongs to an entry that does not fail. -/
theorem of_mem_processBatch_drained (distinct : (entries.map StreamEntry.id).Nodup)
    (noted : id ∈ (processBatch cfg env entries db).drained) :
    (writeBatch cfg env entries db).1 = true ∧ env.ackOk = true ∧
      ∃ entry ∈ entries, entry.id = id ∧ entry.isPoison = false ∧
        id ∉ failedRecons env (blockRecons env entries) (writeBatch cfg env entries db).2 := by
  unfold processBatch at noted
  split at noted
  · cases noted
  split at noted
  · cases noted
  next reached committed =>
  simp only [finishBatch] at noted
  rw [committed]
  split at noted
  · next acked =>
    refine ⟨rfl, acked, ?_⟩
    have perm := reconcileEntries_perm env (blockRecons env entries) reached
    rcases mem_append.mp noted with plain | recon
    · obtain ⟨entry, mem, rfl, sound, noRecon⟩ := of_mem_writtenIDs plain
      refine ⟨entry, mem, rfl, sound, fun failed => ?_⟩
      -- an entry of the same identifier would be reconciled and written at once
      obtain ⟨other, listed, same, _, blocks, kind⟩ :=
        of_mem_blockRecons (perm.mem_iff.mp (mem_append_right _ failed))
      have equal := inj_on_of_nodup_map distinct listed mem same
      exact noRecon blocks (equal ▸ kind)
    · obtain ⟨entry, mem, rfl, sound, _⟩ :=
        of_mem_blockRecons (perm.mem_iff.mp (mem_append_left _ recon))
      have apart := perm.nodup_iff.mpr (blockRecons_distinct distinct)
      exact ⟨entry, mem, rfl, sound, disjoint_of_nodup_append apart recon⟩
  · cases noted

/-- What a batch acknowledges is a poison pill or recorded as drained. -/
theorem of_mem_processBatch_acked (noted : id ∈ (processBatch cfg env entries db).acked) :
    (∃ entry ∈ entries, entry.id = id ∧ entry.isPoison = true) ∨
      id ∈ (processBatch cfg env entries db).drained := by
  have poison : id ∈ ackedPoison env entries →
      ∃ entry ∈ entries, entry.id = id ∧ entry.isPoison = true := by
    intro listed
    unfold ackedPoison at listed
    split at listed
    · obtain ⟨entry, kept, rfl⟩ := mem_map.mp listed
      obtain ⟨mem, kind⟩ := mem_filter.mp kept
      exact ⟨entry, mem, rfl, (isPoison_iff env.now entry).mp (of_decide_eq_true kind)⟩
    · cases listed
  unfold processBatch at noted ⊢
  split at noted
  · exact .inl (poison noted)
  next some =>
  rw [if_neg some]
  split at noted
  · exact .inl (poison noted)
  · exact (mem_append.mp noted).imp_left poison

end

end Jmdn.Nodeinfo
