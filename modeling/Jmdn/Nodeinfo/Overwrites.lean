import Jmdn.Nodeinfo.Transport

/-!
# Writers over stored blocks

`WriteHeaders` forces an update when a block is stored already, so the stored
block becomes a skeleton; `dumpPoTSWALToDB` writes each block of the write-ahead
log through it, then through `WriteData`.  What a stored block keeps of its
transactions, proof, L1 finality and identity nonces is what the last write of
its number leaves, and `header_latest_block` is the top of the last batch.
-/

namespace Jmdn.Nodeinfo

open Config DBOPs FastsyncV2 List

/-- What a full block has and a skeleton has not. -/
structure Body where
  transactions : List Transaction := []
  starkProof : List UInt8 := []
  l1TxHash : String := ""
  l1BlockNumber : UInt64 := 0
  accountNonces : List AccountNonce := []
  deriving DecidableEq, Repr

def bodyOf (block : ZKBlock) : Body :=
  { transactions := block.transactions
    starkProof := block.starkProof
    l1TxHash := block.l1TxHash
    l1BlockNumber := block.l1BlockNumber
    accountNonces := block.accountNonces }

/-! ## The dump of the write-ahead log -/

/-- `zkBlockToProtoHeader`. -/
def zkBlockToProtoHeader (block : ZKBlock) : Header :=
  blockHeader block

/-- `zkBlockToProtoNonHeaders`: the L1 finality is not sent. -/
def zkBlockToProtoNonHeaders (block : ZKBlock) : WireNonHeaders :=
  { convertZKBlockToNonHeaders block with l1Finality := none }

/-- How the two writes of a logged block go: whether the block was stored, and
whether the call returned without an error. -/
structure DumpOutcome where
  headerStored : Bool := true
  headerDone : Bool := true
  dataStored : Bool := true
  dataDone : Bool := true
  latestOk : Bool := true
  deriving DecidableEq, Repr

/-- One block of the log: its data is written only if its header was. -/
def dumpBlock (node : Node) (item : ZKBlock × DumpOutcome) : Node :=
  let header := readHeader (zkBlockToProtoHeader item.1)
  let headed :=
    writeHeaders node (if item.2.headerStored then [header] else []) item.2.headerDone
  if item.2.headerStored && item.2.headerDone then
    let data := readNonHeaders (zkBlockToProtoNonHeaders item.1)
    writeData headed (if item.2.dataStored then [data] else []) item.2.dataDone item.2.latestOk
  else
    headed

/-- `dumpPoTSWALToDB`. -/
def dumpPoTSWALToDB (node : Node) (items : List (ZKBlock × DumpOutcome)) : Node :=
  items.foldl dumpBlock node

/-- What a logged block leaves under its number once its header is stored. -/
def leftBody (item : ZKBlock × DumpOutcome) : Body :=
  if item.2.headerDone ∧ item.2.dataStored then
    { transactions := item.1.transactions.map carriedTransaction
      starkProof := if item.1.proofHash ≠ "" then item.1.starkProof else [] }
  else {}

/-! ## One write -/

/-- The body stored under a number. -/
def storedBody (db : DB) (number : UInt64) : Option Body :=
  (db.blocks number).map bodyOf

theorem storedBody_putBlock (db : DB) (block : ZKBlock) (number : UInt64) :
    storedBody (putBlock db block) number =
      if block.blockNumber = number then some (bodyOf block) else storedBody db number := by
  by_cases same : block.blockNumber = number
  · subst same
    simp [storedBody, putBlock]
  · have other : number ≠ block.blockNumber := fun equal => same equal.symm
    simp [storedBody, putBlock, same, other]

theorem bodyOf_skeleton (header : ZKBlock) : bodyOf (skeleton header) = {} :=
  rfl

theorem writeHeaders_db (node : Node) (headers : List ZKBlock) (completed : Bool) :
    (writeHeaders node headers completed).db =
      headers.foldl (fun db header => putBlock db (skeleton header)) node.db := by
  unfold writeHeaders
  cases headers with
  | nil => rfl
  | cons first rest => cases completed <;> rfl

theorem writeData_db (node : Node) (data : List NonHeaders) (completed latestOk : Bool) :
    (writeData node data completed latestOk).db = data.foldl putData node.db := by
  unfold writeData
  cases data with
  | nil => rfl
  | cons first rest =>
    cases completed
    · rfl
    · exact noteWritten_db _ _ _

/-- The data of a logged block, merged into the skeleton of its header. -/
theorem bodyOf_mergeData (block : ZKBlock) :
    bodyOf (mergeData (some (skeleton (readHeader (zkBlockToProtoHeader block))))
        (readNonHeaders (zkBlockToProtoNonHeaders block))) =
      { transactions := block.transactions.map carriedTransaction
        starkProof := if block.proofHash ≠ "" then block.starkProof else [] } := by
  by_cases proved : block.proofHash = "" <;>
    simp [bodyOf, mergeData, skeleton, readHeader, zkBlockToProtoHeader, readNonHeaders,
      zkBlockToProtoNonHeaders, convertZKBlockToNonHeaders, proved, Function.comp_def]

/-- The block a logged block leaves under its number once its header is stored. -/
def leftBlock (item : ZKBlock × DumpOutcome) : ZKBlock :=
  let header := skeleton (readHeader (zkBlockToProtoHeader item.1))
  if item.2.headerDone ∧ item.2.dataStored then
    mergeData (some header) (readNonHeaders (zkBlockToProtoNonHeaders item.1))
  else header

theorem leftBlock_blockNumber (item : ZKBlock × DumpOutcome) :
    (leftBlock item).blockNumber = item.1.blockNumber := by
  unfold leftBlock
  dsimp only
  split
  · rw [mergeData_blockNumber]
    rfl
  · rfl

theorem bodyOf_leftBlock (item : ZKBlock × DumpOutcome) :
    bodyOf (leftBlock item) = leftBody item := by
  unfold leftBlock leftBody
  dsimp only
  split
  · exact bodyOf_mergeData item.1
  · exact bodyOf_skeleton _

/-- The data of a block whose header was just stored. -/
theorem putData_putBlock (db : DB) (header : ZKBlock) (data : NonHeaders)
    (same : header.blockNumber = data.blockNumber) :
    (putData (putBlock db header) data).blocks =
      (putBlock db (mergeData (some header) data)).blocks := by
  have found : (putBlock db header).blocks data.blockNumber = some header := by
    simp [putBlock, same]
  have number := mergeData_blockNumber (some header) data
  rw [putData, found]
  simp [putBlock, number]

theorem dumpBlock_blocks (node : Node) (item : ZKBlock × DumpOutcome) :
    (dumpBlock node item).db.blocks =
      if item.2.headerStored then (putBlock node.db (leftBlock item)).blocks
      else node.db.blocks := by
  obtain ⟨block, stored, done, data, dataDone, latestOk⟩ := item
  unfold dumpBlock leftBlock
  cases stored with
  | false => simp [writeHeaders_db]
  | true =>
    cases done <;> cases data <;>
      simp only [Bool.and_true, Bool.and_false, Bool.false_eq_true, if_true,
        if_false, and_self, and_false, false_and, writeData_db, writeHeaders_db,
        foldl_cons, foldl_nil]
    exact putData_putBlock _ _ _ rfl

/-- What one logged block does to the body under a number. -/
theorem storedBody_dumpBlock (node : Node) (item : ZKBlock × DumpOutcome) (number : UInt64) :
    storedBody (dumpBlock node item).db number =
      if item.1.blockNumber = number ∧ item.2.headerStored then some (leftBody item)
      else storedBody node.db number := by
  have blocks := dumpBlock_blocks node item
  cases stored : item.2.headerStored with
  | false =>
    rw [stored] at blocks
    rw [storedBody, blocks]
    simp [storedBody]
  | true =>
    rw [stored, if_pos rfl] at blocks
    have body := storedBody_putBlock node.db (leftBlock item) number
    rw [leftBlock_blockNumber, bodyOf_leftBlock] at body
    rw [storedBody, blocks]
    simpa [storedBody] using body

/-! ## Whole lists -/

/-- The last write of a number decides. -/
theorem foldl_last {σ α : Type} {step : σ → α → σ} (view : σ → Option Body)
    {writes : α → Bool} {left : α → Body}
    (one : ∀ state item, view (step state item) =
      if writes item then some (left item) else view state) (items : List α) (state : σ) :
    view (items.foldl step state) =
      ((items.filter writes).getLast?.map left).or (view state) := by
  induction items generalizing state with
  | nil => rfl
  | cons item rest ih =>
    rw [foldl_cons, ih, one, filter_cons]
    split
    · rw [List.getLast?_cons]
      cases (rest.filter writes).getLast? <;> rfl
    · rfl

/-- The last logged block of a number whose header was stored. -/
def lastDumped (items : List (ZKBlock × DumpOutcome)) (number : UInt64) :
    Option (ZKBlock × DumpOutcome) :=
  (items.filter fun item => item.1.blockNumber = number ∧ item.2.headerStored).getLast?

theorem storedBody_dump (node : Node) (items : List (ZKBlock × DumpOutcome)) (number : UInt64) :
    storedBody (dumpPoTSWALToDB node items).db number =
      ((lastDumped items number).map leftBody).or (storedBody node.db number) := by
  have one : ∀ (state : Node) (item : ZKBlock × DumpOutcome),
      storedBody (dumpBlock state item).db number =
        if decide (item.1.blockNumber = number ∧ item.2.headerStored) then some (leftBody item)
        else storedBody state.db number := by
    intro state item
    rw [storedBody_dumpBlock]
    simp only [decide_eq_true_eq]
  exact foldl_last (fun state : Node => storedBody state.db number) one items node

theorem storedBody_writeHeaders (node : Node) (headers : List ZKBlock) (completed : Bool)
    (number : UInt64) :
    storedBody (writeHeaders node headers completed).db number =
      if ∃ header ∈ headers, header.blockNumber = number then some {}
      else storedBody node.db number := by
  have one : ∀ (db : DB) (header : ZKBlock),
      storedBody (putBlock db (skeleton header)) number =
        if decide (header.blockNumber = number) then some {} else storedBody db number := by
    intro db header
    rw [storedBody_putBlock, bodyOf_skeleton]
    simp only [decide_eq_true_eq]
    rfl
  rw [writeHeaders_db, foldl_last (fun db => storedBody db number) one headers node.db]
  cases last : (headers.filter fun header => header.blockNumber = number).getLast? with
  | none =>
    have absent := filter_eq_nil_iff.mp (List.getLast?_eq_none_iff.mp last)
    rw [if_neg]
    · rfl
    · rintro ⟨header, mem, same⟩
      exact absent header mem (decide_eq_true same)
  | some header =>
    have mem := mem_filter.mp (mem_of_getLast? last)
    rw [if_pos ⟨header, mem.1, of_decide_eq_true mem.2⟩]
    rfl

/-! ## What stays -/

/-- The bodies of stored blocks are kept, for those that a list names by number
and hash. -/
def Keeps (named : UInt64 → Hash → Prop) (before after : DB) : Prop :=
  ∀ number block, before.blocks number = some block → named number block.blockHash →
    storedBody after number = some (bodyOf block)

/-- A list of blocks names a number and hash. -/
def Names (blocks : List ZKBlock) (number : UInt64) (hash : Hash) : Prop :=
  ∃ block ∈ blocks, block.blockNumber = number ∧ block.blockHash = hash

/-- A marker that is there stays and does not go down. -/
def NotLowered (before after : Option UInt64) : Prop :=
  ∀ marker ∈ before, ∃ later ∈ after, marker ≤ later

theorem keeps_writeHeaders_iff (node : Node) (headers : List ZKBlock) (completed : Bool) :
    Keeps (Names headers) node.db (writeHeaders node headers completed).db ↔
      ∀ number block, node.db.blocks number = some block →
        Names headers number block.blockHash → bodyOf block = {} := by
  constructor
  · intro keeps number block stored named
    have kept := keeps number block stored named
    obtain ⟨header, mem, same, -⟩ := named
    rw [storedBody_writeHeaders, if_pos ⟨header, mem, same⟩] at kept
    exact (Option.some.inj kept).symm
  · intro empty number block stored named
    obtain ⟨header, mem, same, hash⟩ := named
    rw [storedBody_writeHeaders, if_pos ⟨header, mem, same⟩,
      empty number block stored ⟨header, mem, same, hash⟩]

theorem keeps_dump_iff (node : Node) (items : List (ZKBlock × DumpOutcome)) :
    Keeps (Names (items.map Prod.fst)) node.db (dumpPoTSWALToDB node items).db ↔
      ∀ number block, node.db.blocks number = some block →
        Names (items.map Prod.fst) number block.blockHash →
          ∀ item ∈ lastDumped items number, leftBody item = bodyOf block := by
  have after := storedBody_dump node items
  constructor
  · intro keeps number block stored named item last
    have kept := keeps number block stored named
    rw [after, last] at kept
    exact Option.some.inj kept
  · intro equal number block stored named
    rw [after]
    cases last : lastDumped items number with
    | none =>
      rw [storedBody, stored]
      rfl
    | some item =>
      have body := equal number block stored named item last
      rw [← body]
      rfl

theorem le_highest_iff {bound first second : UInt64} :
    bound ≤ highest first second ↔ bound ≤ first ∨ bound ≤ second := by
  unfold highest
  simp only [UInt64.le_iff_toNat_le, gt_iff_lt]
  split
  · next less =>
    have order := UInt64.lt_iff_toNat_lt.mp less
    omega
  · next most =>
    have order := UInt64.le_iff_toNat_le.mp (UInt64.not_lt.mp most)
    omega

theorem le_foldl_highest_iff {bound : UInt64} (headers : List ZKBlock) (first : UInt64) :
    bound ≤ headers.foldl (fun top header => highest top header.blockNumber) first ↔
      bound ≤ first ∨ ∃ header ∈ headers, bound ≤ header.blockNumber := by
  induction headers generalizing first with
  | nil => simp
  | cons header rest ih =>
    rw [foldl_cons, ih, le_highest_iff, or_assoc]
    simp

/-- The marker of the headers is the top of the last complete batch. -/
theorem notLowered_writeHeaders_iff (node : Node) (headers : List ZKBlock) (completed : Bool) :
    NotLowered node.headerLatestBlock
        (writeHeaders node headers completed).headerLatestBlock ↔
      (completed = true → headers ≠ [] → ∀ marker ∈ node.headerLatestBlock,
        ∃ header ∈ headers, marker ≤ header.blockNumber) := by
  have same : NotLowered node.headerLatestBlock node.headerLatestBlock :=
    fun marker mem => ⟨marker, mem, UInt64.le_refl _⟩
  unfold writeHeaders
  cases headers with
  | nil => simpa using same
  | cons first rest =>
    cases completed with
    | false => simpa using same
    | true =>
      have top : ∀ marker, marker ≤ rest.foldl
          (fun top header => highest top header.blockNumber) first.blockNumber ↔
            ∃ header ∈ first :: rest, marker ≤ header.blockNumber := by
        intro marker
        rw [le_foldl_highest_iff]
        simp
      simp only [NotLowered, if_true, Option.mem_some_iff, exists_eq_left', top, ne_eq,
        reduceCtorEq, not_false_eq_true, true_implies]

/-- When the writers keep what is stored: `WriteHeaders` if the stored blocks it
names have no body, and the marker if the batch reaches up to it; the dump if
each stored block it names has the body that its last write leaves. -/
theorem writers_keep_stored_iff (node : Node) (headers : List ZKBlock) (completed : Bool)
    (items : List (ZKBlock × DumpOutcome)) :
    (Keeps (Names headers) node.db (writeHeaders node headers completed).db ↔
      ∀ number block, node.db.blocks number = some block →
        Names headers number block.blockHash → bodyOf block = {}) ∧
    (NotLowered node.headerLatestBlock
        (writeHeaders node headers completed).headerLatestBlock ↔
      (completed = true → headers ≠ [] → ∀ marker ∈ node.headerLatestBlock,
        ∃ header ∈ headers, marker ≤ header.blockNumber)) ∧
    (Keeps (Names (items.map Prod.fst)) node.db (dumpPoTSWALToDB node items).db ↔
      ∀ number block, node.db.blocks number = some block →
        Names (items.map Prod.fst) number block.blockHash →
          ∀ item ∈ lastDumped items number, leftBody item = bodyOf block) :=
  ⟨keeps_writeHeaders_iff node headers completed,
    notLowered_writeHeaders_iff node headers completed, keeps_dump_iff node items⟩

/-- A finalised block with one transaction. -/
def finalisedBlock : ZKBlock :=
  { blockNumber := 7, blockHash := 5, transactions := [{ hash := 9 }], proofHash := "proof"
    starkProof := [1], l1TxHash := "0xl1", l1BlockNumber := 40
    accountNonces := [{ address := 1, nonce := 2 }] }

/-- A node that stores it, with headers up to block 100. -/
def finalisedNode : Node :=
  { db := putBlock {} finalisedBlock, headerLatestBlock := some 100 }

/-- The header of a stored block, sent again, takes its body and lowers the marker
of the headers; the same block in the write-ahead log takes its L1 finality and
its identity nonces. -/
theorem stored_block_is_overwritten :
    storedBody finalisedNode.db 7 = some (bodyOf finalisedBlock) ∧
      storedBody (writeHeaders finalisedNode [finalisedBlock] true).db 7 = some {} ∧
      (writeHeaders finalisedNode [finalisedBlock] true).headerLatestBlock = some 7 ∧
      storedBody (dumpPoTSWALToDB finalisedNode [(finalisedBlock, {})]).db 7 =
        some { transactions := [{ hash := 9 }], starkProof := [1] } := by
  decide +kernel

end Jmdn.Nodeinfo
