import Jmdn.FastsyncV2.Anchor
import Jmdn.Txindex.Index

/-!
# Completeness of the transaction index

`EnsureReady` starts behind `last_indexed_block`, so a block below that mark is
never read again.  The invariant says that the blocks up to the mark and those a
catch-up under way has passed are indexed; the conditions on the steps that move
the mark, or store below it, keep it, and every nil return of `EnsureReady` then
means that the index is complete.
-/

namespace Jmdn.Txindex

open Config FastsyncV2 Function List Transition

variable {block : ZKBlock} {rows more : List Row} {next state : State}
  {blocks stored : UInt64 → Option ZKBlock} {latestBlock number : UInt64} {key : Address × Hash}
  {iter : BlockIterator} {phase : Phase} {event : Event}

/-- For every stored block up to `latest_block` and every transaction in it, the
index holds a row for the sender and, if set, for the recipient. -/
def Complete (state : State) : Prop :=
  ∀ number block, state.blocks number = some block → number ≤ state.latestBlock →
    ∀ tx ∈ block.transactions, ∀ address,
      tx.fromAddr = some address ∨ tx.toAddr = some address →
        ∃ row ∈ state.index.rows, row.address = address ∧ row.txHash = tx.hash

/-- A block whose rows are all in a table. -/
def Indexed (rows : List Row) (block : ZKBlock) : Prop :=
  ∀ row ∈ blockRows block, row.key ∈ rows.map Row.key

instance Indexed.decidable (rows : List Row) (block : ZKBlock) : Decidable (Indexed rows block) :=
  inferInstanceAs (Decidable (∀ row ∈ blockRows block, row.key ∈ rows.map Row.key))

/-! ## Tables -/

section

variable (indexed : Indexed rows block)
include indexed

theorem Indexed.mono (kept : ∀ key ∈ rows.map Row.key, key ∈ more.map Row.key) :
    Indexed more block :=
  fun row inBlock => kept row.key (indexed row inBlock)

theorem Indexed.append :
    Indexed (rows ++ more) block := by
  refine indexed.mono fun key held => ?_
  rw [map_append]
  exact mem_append_left _ held

theorem Indexed.holds {tx : Transaction} (inBlock : tx ∈ block.transactions) {address : Address}
    (party : tx.fromAddr = some address ∨ tx.toAddr = some address) :
    ∃ row ∈ rows, row.address = address ∧ row.txHash = tx.hash := by
  have listed : ({ address, blockNumber := block.blockNumber, txHash := tx.hash } : Row) ∈
      blockRows block := by
    refine mem_flatMap.mpr ⟨tx, inBlock, mem_map.mpr ⟨address, ?_, rfl⟩⟩
    rw [mem_append, Option.mem_toList, Option.mem_toList]
    exact party
  obtain ⟨row, held, same⟩ := mem_map.mp (indexed _ listed)
  exact ⟨row, held, congrArg Prod.fst same, congrArg Prod.snd same⟩

end

theorem mem_insertOrIgnore {row : Row} :
    key ∈ (insertOrIgnore rows row).map Row.key ↔ key ∈ rows.map Row.key ∨ key = row.key := by
  rw [insertOrIgnore]
  split
  · next present =>
    constructor
    · exact .inl
    · rintro (old | rfl)
      · exact old
      · exact present
  · rw [map_append, mem_append, map_singleton, mem_singleton]

/-- The keys of a table after a list of insertions. -/
theorem mem_foldl_insertOrIgnore (inserted rows : List Row) :
    key ∈ (inserted.foldl insertOrIgnore rows).map Row.key ↔
      key ∈ (rows ++ inserted).map Row.key := by
  induction inserted generalizing rows with
  | nil => rw [foldl_nil, append_nil]
  | cons row rest ih =>
    rw [foldl_cons, ih, map_append, mem_append, mem_insertOrIgnore,
      map_append, mem_append, map_cons, mem_cons, or_assoc]

/-- What a committed batch does to the index: its rows are there besides the old
ones, and the mark is at the highest number of the batch or where it was. -/
structure Writes (blocks : List ZKBlock) (before after : Index) : Prop where
  rows : ∀ key ∈ (before.rows ++ blocks.flatMap blockRows).map Row.key,
    key ∈ after.rows.map Row.key
  mark : after.lastIndexed = before.lastIndexed ∨ after.lastIndexed = some (lastBlock blocks)

theorem setMetaMonotonicMax_cases (value : UInt64) (old : Option UInt64) :
    some (setMetaMonotonicMax value old) = old ∨ setMetaMonotonicMax value old = value := by
  cases old with
  | none => exact .inr rfl
  | some old =>
    rw [setMetaMonotonicMax]
    split
    · exact .inr rfl
    · exact .inl rfl

theorem indexBlocks_writes {blocks : List ZKBlock} {before after : Index}
    (committed : indexBlocks true blocks before = some after) : Writes blocks before after := by
  rw [indexBlocks] at committed
  split at committed
  · next empty =>
    cases committed
    refine ⟨fun key held => ?_, .inl rfl⟩
    rwa [empty, flatMap_nil, append_nil] at held
  · cases committed
    exact ⟨fun key => (mem_foldl_insertOrIgnore _ _).mpr,
      (setMetaMonotonicMax_cases _ _).imp_right (congrArg some)⟩

/-- The highest number of a batch is below what all its numbers are below. -/
theorem lastBlock_lt {blocks : List ZKBlock} {bound : UInt64} (some : blocks ≠ [])
    (below : ∀ block ∈ blocks, block.blockNumber < bound) : lastBlock blocks < bound := by
  obtain ⟨first, member⟩ := exists_mem_of_ne_nil _ some
  have start : 0 < bound := UInt64.lt_of_le_of_lt UInt64.zero_le (below first member)
  unfold lastBlock
  refine foldlRecOn (motive := fun last => last < bound) blocks _ start
    fun last least block inBatch => ?_
  split
  · exact below block inBatch
  · exact least

/-! ## Reads -/

/-- What a fetched batch consists of: the stored blocks of the range, whose end has
a successor. -/
structure Batch (stored : UInt64 → Option ZKBlock) (startBlock endBlock : UInt64)
    (blocks : List ZKBlock) : Prop where
  within : ∀ block ∈ blocks, ∃ number ≤ endBlock, stored number = some block
  listed : ∀ number block, stored number = some block → startBlock ≤ number →
    number ≤ endBlock → block ∈ blocks
  succ : ∀ number, number < endBlock + 1 ↔ number ≤ endBlock

theorem lt_succ_iff {last : UInt64} (room : last ≠ UInt64.ofNat (UInt64.size - 1))
    (number : UInt64) : number < last + 1 ↔ number ≤ last := by
  have bound := last.toNat_lt
  have small : last.toNat ≠ UInt64.size - 1 := by
    intro same
    apply room
    rw [← same, UInt64.ofNat_toNat]
  rw [UInt64.lt_iff_toNat_lt, UInt64.le_iff_toNat_le, UInt64.toNat_add]
  simp only [UInt64.size, UInt64.toNat_one] at small ⊢
  omega

/-- A batch that is not empty has every stored block of its range. -/
theorem getBlocksRange_batch {startBlock endBlock : UInt64} {first : ZKBlock} {rest : List ZKBlock}
    (fetched : getBlocksRange stored startBlock endBlock = .found (first :: rest)) :
    Batch stored startBlock endBlock (first :: rest) := by
  simp only [getBlocksRange] at fetched
  split at fetched
  · cases fetched
  split at fetched
  · cases fetched
  split at fetched
  · cases fetched
  · next room =>
    rw [Fetch.found.injEq] at fetched
    rw [← fetched]
    constructor
    case within =>
      intro block member
      obtain ⟨number, inRange, found⟩ := mem_filterMap.mp member
      exact ⟨number, (mem_blockNumbers_iff.mp inRange).2, found⟩
    case listed =>
      intro number block found above below
      exact mem_filterMap.mpr ⟨number, mem_blockNumbers_iff.mpr ⟨above, below⟩, found⟩
    case succ => exact lt_succ_iff room

/-! ## The invariant -/

/-- The blocks a job is about to write. -/
def Phase.pending : Phase → List ZKBlock
  | .batch blocks _ => blocks
  | _ => []

/-- The numbers a catch-up will not come to any more, if it runs to its end with
the given `latest_block`. -/
def Phase.Passed (latestBlock : UInt64) (number : UInt64) : Phase → Prop
  | .called => False
  | .marked lastIndexed => lastIndexed ≠ 0 ∧ number ≤ lastIndexed
  | .range iter | .batch _ iter =>
    number < iter.currentBlock ∨ iter.endBlock < number ∧ number ≤ latestBlock

/-- A block whose rows are in the index or among those a job is about to write. -/
def Settled (rows : List Row) (phase : Phase) (block : ZKBlock) : Prop :=
  Indexed (rows ++ phase.pending.flatMap blockRows) block

/-- Every stored block up to the mark is indexed. -/
def MarkSound (blocks : UInt64 → Option ZKBlock) (index : Index) : Prop :=
  ∀ mark, index.lastIndexed = some mark → ∀ number block, blocks number = some block →
    number ≤ mark → Indexed index.rows block

/-- What a call of `EnsureReady` has passed is settled. -/
def JobSound (blocks : UInt64 → Option ZKBlock) (latestBlock : UInt64) (rows : List Row)
    (job : Job) : Prop :=
  job.ensures = true → ∀ number block, blocks number = some block →
    job.phase.Passed latestBlock number → Settled rows job.phase block

/-- There are blocks a job is about to write, all below the next one it will read. -/
def Below : Phase → Prop
  | .batch blocks iter => blocks ≠ [] ∧ ∀ block ∈ blocks, block.blockNumber < iter.currentBlock
  | _ => True

/-- The invariant. -/
structure Sound (state : State) : Prop where
  keyed : DBOPs.Keyed state.blocks
  mark : MarkSound state.blocks state.index
  below : ∀ id job, state.jobs id = some job → Below job.phase
  jobs : ∀ id job, state.jobs id = some job →
    JobSound state.blocks state.latestBlock state.index.rows job
  complete : state.returned = true → Complete state

/-- Every stored block above the mark, up to the highest number of a batch, has its
rows in the index or in the batch. -/
def Reaches (state : State) (batch : List ZKBlock) : Prop :=
  ∀ number block, state.blocks number = some block →
    (∀ mark, state.index.lastIndexed = some mark → mark < number) → number ≤ lastBlock batch →
      Indexed (state.index.rows ++ batch.flatMap blockRows) block

/-- The condition on the state before an event under which neither the mark nor a
call of `EnsureReady` passes a block without its rows. -/
def Careful (state : State) : Event → Prop
  | .store block =>
    (∀ mark, state.index.lastIndexed = some mark → block.blockNumber ≤ mark →
      Indexed state.index.rows block) ∧
    ∀ id job, state.jobs id = some job → job.ensures = true →
      job.phase.Passed state.latestBlock block.blockNumber →
        Settled state.index.rows job.phase block
  | .setLatest latest =>
    ∀ id job, state.jobs id = some job → job.ensures = true →
      ∀ number block, state.blocks number = some block → job.phase.Passed latest number →
        ¬ job.phase.Passed state.latestBlock number → Settled state.index.rows job.phase block
  | .work true => ∀ head ∈ state.queue.head?, head.transactions ≠ [] → Reaches state [head]
  | .rebuildIndex _ true =>
    ∀ id job, state.jobs id = some job → JobSound state.blocks state.latestBlock [] job
  | .advance id true =>
    ∀ job, state.jobs id = some job →
      match job.phase with
      | .called => True
      | .marked lastIndexed =>
        job.ensures = true → state.latestBlock = 0 → lastIndexed = 0 →
          ∀ block, state.blocks 0 = some block → Indexed state.index.rows block
      | .range iter =>
        job.ensures = true →
          getBlocksRange state.blocks iter.currentBlock iter.batchEnd = .found [] →
          ∀ number block, state.blocks number = some block → iter.currentBlock ≤ number →
            number ≤ iter.endBlock → Indexed state.index.rows block
      | .batch blocks _ => job.ensures = false → Reaches state blocks
  | _ => True

section

variable {state : State} {id : Nat} {job : Job} {index : Index} {written : List ZKBlock}

theorem settled_of_pending_nil (none : phase.pending = []) :
    Settled rows phase block ↔ Indexed rows block := by
  rw [Settled, none, flatMap_nil, append_nil]

theorem JobSound.mono (sound : JobSound blocks latestBlock state.index.rows job)
    (writes : Writes written state.index index) : JobSound blocks latestBlock index.rows job := by
  intro ensures number block stored passed
  refine (sound ensures number block stored passed).mono fun key held => ?_
  rw [map_append, mem_append] at held ⊢
  refine held.imp_left fun old => writes.rows key ?_
  rw [map_append]
  exact mem_append_left _ old

/-- What a call in this phase has passed is settled. -/
theorem JobSound.settled (sound : JobSound blocks latestBlock rows job) (here : job.phase = phase)
    (ensures : job.ensures = true) (stored : blocks number = some block)
    (passed : phase.Passed latestBlock number) :
    Settled rows phase block := by
  subst here
  exact sound ensures number block stored passed

/-- A call that has read nothing has passed no block. -/
theorem jobSound_called (called : job.phase = .called) :
    JobSound blocks latestBlock rows job := by
  intro _ number block _ passed
  rw [called] at passed
  exact passed.elim

/-- A batch that reaches back to the mark moves it past indexed blocks only. -/
theorem MarkSound.write (honest : MarkSound state.blocks state.index)
    (reaches : Reaches state written) (writes : Writes written state.index index) :
    MarkSound state.blocks index := by
  intro mark marked number block stored up
  have old : ∀ before, state.index.lastIndexed = some before → number ≤ before →
      Indexed index.rows block := fun before known low =>
    ((honest before known number block stored low).append).mono writes.rows
  rcases writes.mark with same | moved
  · exact old mark (same.symm.trans marked) up
  · cases moved.symm.trans marked
    by_cases above : ∀ before, state.index.lastIndexed = some before → before < number
    · exact (reaches number block stored above up).mono writes.rows
    · push Not at above
      obtain ⟨before, known, low⟩ := above
      exact old before known (UInt64.not_lt.mp low)

theorem jobs_update {jobs : Nat → Option Job} {P : Job → Prop} {new : Option Job}
    (others : ∀ id job, jobs id = some job → P job) (changed : ∀ job, new = some job → P job)
    (other : Nat) (found : Job) (there : update jobs id new other = some found) :
    P found := by
  by_cases same : other = id
  · subst same
    rw [update_self] at there
    exact changed found there
  · rw [update_of_ne same] at there
    exact others other found there

section

variable (sound : Sound state)
include sound

theorem Sound.goOn (low : Below job.phase)
    (job_sound : JobSound state.blocks state.latestBlock state.index.rows job) :
    Sound (state.goOn id job) where
  keyed := sound.keyed
  mark := sound.mark
  below := by
    refine jobs_update sound.below fun new same => ?_
    cases same
    exact low
  jobs := by
    refine jobs_update sound.jobs fun new same => ?_
    cases same
    exact job_sound
  complete := nofun

/-- A call that returns leaves the others as they are. -/
theorem Sound.returns {returned : Bool} (complete : returned = true → Complete state) :
    Sound { state with jobs := update state.jobs id none, returned } where
  keyed := sound.keyed
  mark := sound.mark
  below := jobs_update sound.below nofun
  jobs := jobs_update sound.jobs nofun
  complete := complete

theorem Sound.write (reaches : Reaches state written)
    (writes : Writes written state.index index) :
    Sound { state with index, returned := false } where
  keyed := sound.keyed
  mark := sound.mark.write reaches writes
  below := sound.below
  jobs id job there := (sound.jobs id job there).mono writes
  complete := nofun

end

/-! ## Catch-ups -/

/-- After it has read the mark, `EnsureReady` takes what is up to it for indexed. -/
theorem MarkSound.readMark (honest : MarkSound state.blocks state.index) :
    JobSound state.blocks state.latestBlock state.index.rows
      { job with phase := .marked (lastIndexedBlock state.index) } := by
  rintro - number block stored ⟨pos, up⟩
  refine (settled_of_pending_nil rfl).mpr ?_
  cases marked : state.index.lastIndexed with
  | none =>
    rw [lastIndexedBlock, marked] at pos
    exact absurd rfl pos
  | some mark =>
    rw [lastIndexedBlock, marked] at up
    exact honest mark marked number block stored up

theorem complete_of_indexed
    (indexed : ∀ number block, state.blocks number = some block → number ≤ state.latestBlock →
      Indexed state.index.rows block) : Complete state :=
  fun number block stored up _ inBlock _ party =>
    (indexed number block stored up).holds inBlock party

section

variable (sound : Sound state)
include sound

theorem Sound.compare {lastIndexed : UInt64}
    (job_sound : JobSound state.blocks state.latestBlock state.index.rows job)
    (here : job.phase = .marked lastIndexed)
    (genesis : job.ensures = true → state.latestBlock = 0 → lastIndexed = 0 →
      ∀ block, state.blocks 0 = some block → Indexed state.index.rows block) :
    Sound (state.compare id job lastIndexed) := by
  have upTo : job.ensures = true → ∀ number block, state.blocks number = some block →
      lastIndexed ≠ 0 → number ≤ lastIndexed → Indexed state.index.rows block := by
    intro ensures number block stored pos up
    exact (settled_of_pending_nil rfl).mp (job_sound.settled here ensures stored ⟨pos, up⟩)
  rw [State.compare]
  split
  · next current =>
    refine sound.returns fun ensures => complete_of_indexed fun number block stored up => ?_
    by_cases zero : lastIndexed = 0
    · have none : state.latestBlock = 0 := by
        rcases current with none | reached
        · exact none
        · rw [zero] at reached
          exact UInt64.le_zero_iff.mp reached
      rw [none] at up
      cases UInt64.le_zero_iff.mp up
      exact genesis ensures none zero block stored
    · refine upTo ensures number block stored zero ?_
      rcases current with none | reached
      · rw [none] at up
        cases UInt64.le_zero_iff.mp up
        exact UInt64.zero_le
      · exact UInt64.le_trans up reached
  · next behind =>
    refine sound.goOn trivial fun ensures number block stored passed => ?_
    refine (settled_of_pending_nil rfl).mpr ?_
    rcases passed with before | ⟨above, up⟩
    · dsimp only at before
      split at before
      · exact absurd before UInt64.not_lt_zero
      next pos =>
      refine upTo ensures number block stored pos ?_
      have less := UInt64.not_le.mp fun reached => behind (.inr reached)
      grind
    · exact absurd up (UInt64.not_le.mpr above)

theorem Sound.nextBatch (job_sound : JobSound state.blocks state.latestBlock state.index.rows job)
    (here : job.phase = .range iter) (gap : job.ensures = true →
      getBlocksRange state.blocks iter.currentBlock iter.batchEnd = .found [] →
      ∀ number block, state.blocks number = some block → iter.currentBlock ≤ number →
        number ≤ iter.endBlock → Indexed state.index.rows block)
    (taken : state.nextBatch id job iter = some next) : Sound next := by
  have outside : job.ensures = true → ∀ number block, state.blocks number = some block →
      (number < iter.currentBlock ∨ iter.endBlock < number ∧ number ≤ state.latestBlock) →
      Indexed state.index.rows block := by
    intro ensures number block stored passed
    exact (settled_of_pending_nil rfl).mp (job_sound.settled here ensures stored passed)
  rw [State.nextBatch] at taken
  split at taken
  · next finished =>
    cases taken
    refine sound.returns fun ensures => complete_of_indexed fun number block stored up => ?_
    refine outside ensures number block stored ?_
    by_cases before : number < iter.currentBlock
    · exact .inl before
    · exact .inr ⟨UInt64.lt_of_lt_of_le finished (UInt64.not_lt.mp before), up⟩
  · split at taken
    · cases taken
    · cases taken
      exact sound.returns nofun
    · next fetched =>
      cases taken
      refine sound.returns fun ensures =>
        complete_of_indexed fun number block stored up => ?_
      by_cases before : number < iter.currentBlock
      · exact outside ensures number block stored (.inl before)
      by_cases after : iter.endBlock < number
      · exact outside ensures number block stored (.inr ⟨after, up⟩)
      · exact gap ensures fetched number block stored (UInt64.not_lt.mp before)
          (UInt64.not_lt.mp after)
    · next first rest fetched =>
      cases taken
      have batch := getBlocksRange_batch fetched
      have low : ∀ block ∈ first :: rest, block.blockNumber < iter.batchEnd + 1 := by
        intro block member
        obtain ⟨number, within, found⟩ := batch.within block member
        rw [sound.keyed number block found]
        exact (batch.succ number).mpr within
      refine sound.goOn ⟨nofun, low⟩ fun ensures number block stored passed => ?_
      by_cases fresh : iter.currentBlock ≤ number ∧ number ≤ iter.batchEnd
      · intro row inBlock
        rw [map_append]
        refine mem_append_right _ (mem_map_of_mem ?_)
        exact mem_flatMap.mpr
          ⟨block, batch.listed number block stored fresh.1 fresh.2, inBlock⟩
      · refine (outside ensures number block stored ?_).append
        refine passed.imp_left fun before => ?_
        have within := (batch.succ number).mp before
        exact UInt64.not_le.mp fun above => fresh ⟨above, within⟩

/-- What an `EnsureReady` writes reaches back to the mark, since all it has passed is
settled. -/
theorem Sound.reaches {pending : List ZKBlock} (there : state.jobs id = some job)
    (here : job.phase = .batch pending iter) (ensures : job.ensures = true) :
    Reaches state pending := by
  intro number block stored above up
  have low := sound.below id job there
  rw [here] at low
  exact (sound.jobs id job there).settled here ensures stored
    (.inl (UInt64.lt_of_le_of_lt up (lastBlock_lt low.1 low.2)))

theorem Sound.commit {pending : List ZKBlock} (there : state.jobs id = some job)
    (here : job.phase = .batch pending iter)
    (rebuilds : job.ensures = false → Reaches state pending)
    (writes : Writes pending state.index index) :
    Sound { state.goOn id { job with phase := .range iter } with index } := by
  have reaches : Reaches state pending := by
    cases ensures : job.ensures with
    | true => exact sound.reaches there here ensures
    | false => exact rebuilds ensures
  refine (sound.write reaches writes).goOn trivial fun ensures number block stored passed => ?_
  exact (settled_of_pending_nil rfl).mpr
    (((sound.jobs id job there).settled here ensures stored passed).mono writes.rows)

theorem Sound.advance {ok : Bool} (there : state.jobs id = some job)
    (careful : Careful state (.advance id ok)) (taken : state.advance id job ok = some next) :
    Sound next := by
  have job_sound := sound.jobs id job there
  cases ok with
  | false =>
    cases taken
    exact sound.returns nofun
  | true =>
    have condition := careful job there
    simp only [State.advance, if_true] at taken
    split at taken
    · next here =>
      cases taken
      exact sound.goOn trivial sound.mark.readMark
    · next here =>
      cases taken
      rw [here] at condition
      exact sound.compare job_sound here condition
    · next here =>
      rw [here] at condition
      exact sound.nextBatch job_sound here condition taken
    · next here =>
      obtain ⟨index, committed, rfl⟩ := Option.map_eq_some_iff.mp taken
      rw [here] at condition
      exact sound.commit there here condition (indexBlocks_writes committed)

end

/-! ## Other events -/

/-- A block is found where it was stored last. -/
theorem update_stored {found : ZKBlock}
    (there : update stored block.blockNumber (some block) number = some found) :
    number = block.blockNumber ∧ found = block ∨ stored number = some found := by
  by_cases same : number = block.blockNumber
  · subst same
    rw [update_self] at there
    exact .inl ⟨rfl, (Option.some.inj there).symm⟩
  · rw [update_of_ne same] at there
    exact .inr there

theorem Sound.store (sound : Sound state) (careful : Careful state (.store block)) :
    Sound { state with
      blocks := update state.blocks block.blockNumber (some block)
      returned := false } where
  keyed number found stored := by
    rcases update_stored stored with ⟨rfl, rfl⟩ | old
    · rfl
    · exact sound.keyed number found old
  mark mark marked number found stored up := by
    rcases update_stored stored with ⟨rfl, rfl⟩ | old
    · exact careful.1 mark marked up
    · exact sound.mark mark marked number found old up
  below := sound.below
  jobs id job there ensures number found stored passed := by
    rcases update_stored stored with ⟨rfl, rfl⟩ | old
    · exact careful.2 id job there ensures passed
    · exact sound.jobs id job there ensures number found old passed
  complete := nofun

theorem indexBlock_writes (writeOk : Bool) (block : ZKBlock) (index : Index) :
    (indexBlock writeOk block index).getD index = index ∨
      writeOk = true ∧ block.transactions ≠ [] ∧
        Writes [block] index ((indexBlock writeOk block index).getD index) := by
  rw [indexBlock]
  split
  · exact .inl rfl
  next some =>
  cases writeOk with
  | false => exact .inl rfl
  | true =>
    cases committed : indexBlocks true [block] index with
    | none => exact .inl rfl
    | some after => exact .inr ⟨rfl, some, indexBlocks_writes committed⟩

theorem Sound.work {writeOk : Bool} {head : ZKBlock} {queue : List ZKBlock} (sound : Sound state)
    (taken : state.queue = head :: queue) (careful : Careful state (.work writeOk)) :
    Sound { state with
      index := (indexBlock writeOk head state.index).getD state.index
      queue
      returned := false } := by
  rcases indexBlock_writes writeOk head state.index with same | ⟨rfl, some, writes⟩
  · rw [same]
    exact ⟨sound.keyed, sound.mark, sound.below, sound.jobs, nofun⟩
  · have written := sound.write (careful head (by rw [taken]; rfl) some) writes
    exact ⟨written.keyed, written.mark, written.below, written.jobs, nofun⟩

theorem Sound.step (sound : Sound state) (careful : Careful state event)
    (taken : Txindex.step state event = some next) :
    Sound next := by
  cases event with
  | store block =>
    cases taken
    exact sound.store careful
  | setLatest latest =>
    cases taken
    refine ⟨sound.keyed, sound.mark, sound.below, fun id job there ensures number block stored
      passed => ?_, nofun⟩
    by_cases before : job.phase.Passed state.latestBlock number
    · exact sound.jobs id job there ensures number block stored before
    · exact careful id job there ensures number block stored passed before
  | enqueue block =>
    cases taken
    exact ⟨sound.keyed, sound.mark, sound.below, sound.jobs, nofun⟩
  | work writeOk =>
    simp only [Txindex.step] at taken
    split at taken
    · cases taken
    · next waiting =>
      cases taken
      exact sound.work waiting careful
  | ensureReady id =>
    simp only [Txindex.step] at taken
    split at taken
    · cases taken
    · cases taken
      exact sound.goOn trivial (jobSound_called rfl)
  | rebuildRange id fromBlock toBlock =>
    simp only [Txindex.step] at taken
    split at taken
    · cases taken
    · cases taken
      exact sound.goOn trivial nofun
  | rebuildIndex id writeOk =>
    simp only [Txindex.step] at taken
    split at taken
    · cases taken
    cases writeOk with
    | false =>
      cases taken
      exact ⟨sound.keyed, sound.mark, sound.below, sound.jobs, nofun⟩
    | true =>
      cases taken
      have wiped : Sound { state with index := {}, returned := false } :=
        ⟨sound.keyed, nofun, sound.below, careful, nofun⟩
      exact wiped.goOn trivial (jobSound_called rfl)
  | advance id ok =>
    simp only [Txindex.step] at taken
    split at taken
    · cases taken
    · next there => exact sound.advance there careful taken
  | restart =>
    cases taken
    exact ⟨sound.keyed, sound.mark, nofun, nofun, nofun⟩

end

/-- In every run whose events lead neither the mark nor a call of `EnsureReady` past a
block without its rows, the index is complete whenever `EnsureReady` returns nil. -/
theorem ensureReady_complete {history : List Event} {state : State}
    (runs : Runs step Careful {} history state) (returned : state.returned = true) :
    Complete state := by
  have initial : Sound {} := ⟨nofun, nofun, nofun, nofun, nofun⟩
  have sound : Sound state :=
    runs.invariant initial fun _ _ _ sound careful taken => sound.step careful taken
  exact sound.complete returned

/-! ## Two histories -/

/-- A block with one transfer. -/
def transferBlock (number : UInt64) (hash : Hash) : ZKBlock :=
  { blockNumber := number, transactions := [{ hash, fromAddr := some 1, toAddr := some 2 }] }

/-- The worker's write of block 1 fails and that of block 2 succeeds; a catch-up finds
the mark at block 2. -/
def missedHistory : List Event :=
  [.store (transferBlock 1 11), .setLatest 1, .enqueue (transferBlock 1 11), .work false,
    .store (transferBlock 2 12), .setLatest 2, .enqueue (transferBlock 2 12), .work true,
    .ensureReady 0, .advance 0 true, .advance 0 true]

/-- `EnsureReady` returns nil, and block 1 has no row. -/
theorem missed_block_stays_missing :
    ∃ state, run step {} missedHistory = some state ∧ state.returned = true ∧
      ¬ Complete state := by
  have outcome : (run step {} missedHistory).any (fun state =>
      state.returned && state.blocks 1 = some (transferBlock 1 11) &&
        decide (1 ≤ state.latestBlock) && state.index.rows.all (·.txHash ≠ 11)) = true := by
    decide +kernel
  obtain ⟨state, reached, facts⟩ := (Option.any_eq_true _ _).mp outcome
  simp only [Bool.and_eq_true, decide_eq_true_eq, all_eq_true] at facts
  obtain ⟨⟨⟨returned, stored⟩, up⟩, absent⟩ := facts
  refine ⟨state, reached, returned, fun complete => ?_⟩
  obtain ⟨row, held, -, same⟩ :=
    complete 1 _ stored up _ mem_cons_self 1 (.inl rfl)
  exact absent row held same

section

variable {history : List Event} (runs : Runs step Careful {} history state)
include runs

theorem andThen (event : Event) (careful : Careful state event)
    (taken : step state event = some next) : Runs step Careful {} (history ++ [event]) next :=
  Runs.snoc runs careful taken

/-- While no call is under way, a block above the mark is stored and made the latest
one. -/
theorem andStore (idle : ∀ id, state.jobs id = none)
    (above : ∀ mark, state.index.lastIndexed = some mark → mark < block.blockNumber) :
    Runs step Careful {} (history ++ [.store block] ++ [.setLatest block.blockNumber])
      { state with
        blocks := update state.blocks block.blockNumber (some block)
        latestBlock := block.blockNumber
        returned := false } := by
  have nobody : ∀ id job, state.jobs id ≠ some job := fun id job there =>
    nomatch (idle id).symm.trans there
  refine andThen (andThen runs (.store block) ⟨fun mark marked low => ?_, fun id job there => ?_⟩
    rfl) _ (fun id job there => absurd there (nobody id job)) rfl
  · exact absurd (above mark marked) (UInt64.not_lt.mpr low)
  · exact absurd there (nobody id job)

end

set_option maxRecDepth 4096 in
/-- Block 1 is indexed as it comes in; the write of block 2 fails, and a catch-up
indexes it. -/
theorem caught_up_index_is_complete :
    ∃ history state, Runs step Careful {} history state ∧
      state.blocks 2 = some (transferBlock 2 12) ∧ state.returned = true ∧ Complete state := by
  have one := @andStore (transferBlock 1 11) _ _ Runs.nil (fun _ => rfl) nofun
  have queued := andThen one (.enqueue (transferBlock 1 11)) trivial rfl
  have worked := andThen queued (.work true) (by
    intro head waiting _ number block stored _ _
    cases waiting
    rcases update_stored stored with ⟨-, rfl⟩ | none
    · decide
    · cases none) rfl
  have two := @andStore (transferBlock 2 12) _ _ worked (fun _ => rfl) (by
    intro mark marked
    cases marked
    decide)
  have waiting := andThen two (.enqueue (transferBlock 2 12)) trivial rfl
  have failed := andThen waiting (.work false) trivial rfl
  have called := andThen failed (.ensureReady 0) trivial rfl
  have marked := andThen called (.advance 0 true) (by
    intro job there
    cases there
    trivial) rfl
  have ranged := andThen marked (.advance 0 true) (by
    intro job there
    cases there
    exact fun _ zero => absurd zero (by decide)) rfl
  have fetched := andThen ranged (.advance 0 true) (by
    intro job there
    cases there
    nofun) rfl
  have written := andThen fetched (.advance 0 true) (by
    intro job there
    cases there
    nofun) rfl
  have returned := andThen written (.advance 0 true) (by
    intro job there
    cases there
    nofun) rfl
  exact ⟨_, _, returned, rfl, rfl, ensureReady_complete returned rfl⟩

end Jmdn.Txindex
