import Jmdn.Nodeinfo.Worker

/-!
# Runs of the account queue

The stream with its consumer group, the worker of
`DB_OPs/Nodeinfo/account_sync_worker.go` going on and off line, and the marks
that `WaitForAccountQueueDrain` reads.  Redis hands out new entries in stream
order; what a reclaim returns of the pending ones is part of the event.  Another
writer may change the database between any two steps.
-/

namespace Jmdn.Nodeinfo

open Config DBOPs FastsyncV2 Go List Transition

variable {cfg : WorkerConfig}

inductive Phase where
  | offline
  | reclaiming
  | draining
  deriving DecidableEq, Repr

/-- The queue of one process.  `stream` are all entries it enqueued, `delivered`
counts those the group has handed out, and `pending` are the ones not
acknowledged. -/
structure Queue where
  db : DB := {}
  stream : List StreamEntry := []
  delivered : Nat := 0
  pending : List StreamEntry := []
  phase : Phase := .offline
  lastEnqueued : String := ""
  lastDrained : String := ""

inductive Event where
  | enqueue (entry : StreamEntry)
  | start (groupOk : Bool)
  | autoClaim (env : BatchEnv) (claimed : List String) (more : Bool)
  | autoClaimFails
  | readGroup (env : BatchEnv) (count : Nat)
  | goOffline
  | otherWriter (db : DB)

/-- Whether an identifier comes after all those in the stream. -/
def isNext (queue : Queue) (id : String) : Bool :=
  (parseStreamID id).isSome && queue.stream.all fun entry => !streamIDGTE entry.id id

/-- The pending entries a reclaim returns. -/
def claimedEntries (queue : Queue) (claimed : List String) : List StreamEntry :=
  queue.pending.filter fun entry => entry.id ∈ claimed

/-- The next entries of the stream. -/
def nextEntries (queue : Queue) (count : Nat) : List StreamEntry :=
  (queue.stream.drop queue.delivered).take count

/-- The queue after `processBatch` on some of its entries. -/
def afterBatch (queue : Queue) (outcome : BatchOutcome) : Queue :=
  { queue with
    db := outcome.db
    pending := queue.pending.filter fun entry => entry.id ∉ outcome.acked
    lastDrained := noteDrainedIDs queue.lastDrained outcome.drained }

/-- One page of `reclaimPending`; an error ends the scan. -/
def reclaimPage (cfg : WorkerConfig) (env : BatchEnv) (claimed : List String) (more : Bool)
    (queue : Queue) : Queue :=
  let page := claimedEntries queue claimed
  if page = [] then { queue with phase := if more then .reclaiming else .draining }
  else
    let outcome := processBatch cfg env page queue.db
    { afterBatch queue outcome with
      phase := if more && !outcome.failed then .reclaiming else .draining }

/-- One round of `runWorker` that read entries. -/
def readPage (cfg : WorkerConfig) (env : BatchEnv) (count : Nat) (queue : Queue) : Queue :=
  let page := nextEntries queue count
  afterBatch
    { queue with
      delivered := queue.delivered + page.length
      pending := queue.pending ++ page }
    (processBatch cfg env page queue.db)

/-- The steps of the queue. -/
def step (cfg : WorkerConfig) : Step Queue Event := fun queue event =>
  match event, queue.phase with
  | .enqueue entry, _ =>
    if isNext queue entry.id then
      some { queue with
        stream := queue.stream ++ [entry]
        lastEnqueued := noteEnqueuedID queue.lastEnqueued entry.id }
    else none
  | .start groupOk, .offline =>
    some { queue with phase := if groupOk then .reclaiming else .offline }
  | .autoClaim env claimed more, .reclaiming => some (reclaimPage cfg env claimed more queue)
  | .autoClaimFails, .reclaiming => some { queue with phase := .draining }
  | .readGroup env count, .draining =>
    if nextEntries queue count = [] then none else some (readPage cfg env count queue)
  | .goOffline, .draining => some { queue with phase := .offline }
  | .otherWriter db, _ => some { queue with db }
  | _, _ => none

/-! ## What a run applies -/

/-- The batch of a step: what its calls return, and its entries. -/
def Event.batch (queue : Queue) : Event → Option (BatchEnv × List StreamEntry)
  | .autoClaim env claimed _ => some (env, claimedEntries queue claimed)
  | .readGroup env count => some (env, nextEntries queue count)
  | _ => none

/-- A batch of the run had the entry, and what the entry asks for came true in one of
the databases the batch left on its way. -/
def AppliedIn (cfg : WorkerConfig) (start : Queue) (events : List Event) (entry : StreamEntry) :
    Prop :=
  ∃ early event late queue env page, events = early ++ event :: late ∧
    run (step cfg) start early = some queue ∧ event.batch queue = some (env, page) ∧
    entry ∈ page ∧ (entry.payload.parse env.now).Landed (batchDatabases cfg env page queue.db)

theorem AppliedIn.snoc {start : Queue} {events : List Event} {entry : StreamEntry}
    (applied : AppliedIn cfg start events entry) (event : Event) :
    AppliedIn cfg start (events ++ [event]) entry := by
  obtain ⟨early, last, late, queue, env, page, parts, rest⟩ := applied
  exact ⟨early, last, late ++ [event], queue, env, page, by simp [parts], rest⟩

/-- An entry is in a batch and does not fail, or was handed out and acknowledged before. -/
def SettledBy (queue : Queue) (page : List StreamEntry) (failed : List String)
    (entry : StreamEntry) : Prop :=
  entry ∈ page ∧ entry.id ∉ failed ∨
    entry ∈ queue.stream.take queue.delivered ∧ entry ∉ queue.pending

instance (queue : Queue) (page : List StreamEntry) (failed : List String) (entry : StreamEntry) :
    Decidable (SettledBy queue page failed entry) := by
  unfold SettledBy
  infer_instance

/-- The batch has no gap: if its writes and its acknowledgement succeed, every entry
below one that does not fail is a poison pill or settled. -/
def Gapless (cfg : WorkerConfig) (queue : Queue) (env : BatchEnv) (page : List StreamEntry) :
    Prop :=
  let written := writeBatch cfg env page queue.db
  let failed := failedRecons env (blockRecons env page) written.2
  written.1 = true → env.ackOk = true →
    ∀ later ∈ page, later.isPoison = false → later.id ∉ failed →
      ∀ earlier ∈ queue.stream, earlier.isPoison = false →
        streamIDGTE later.id earlier.id = true → SettledBy queue page failed earlier

instance (cfg : WorkerConfig) (queue : Queue) (env : BatchEnv) (page : List StreamEntry) :
    Decidable (Gapless cfg queue env page) := by
  unfold Gapless
  infer_instance

/-- The condition on a step: its batch, if it has one, has no gap. -/
def KeepsOrder (cfg : WorkerConfig) (queue : Queue) (event : Event) : Prop :=
  match event.batch queue with
  | some (env, page) => Gapless cfg queue env page
  | none => True

instance (cfg : WorkerConfig) (queue : Queue) (event : Event) :
    Decidable (KeepsOrder cfg queue event) := by
  unfold KeepsOrder
  split <;> infer_instance

/-! ## The stream and its marks -/

/-- What every step keeps of the stream and the marks. -/
structure QueueInv (queue : Queue) : Prop where
  parses : ∀ entry ∈ queue.stream, (parseStreamID entry.id).isSome
  ascending : queue.stream.Pairwise fun first second => streamIDGTE first.id second.id = false
  within : queue.delivered ≤ queue.stream.length
  pending : queue.pending.Sublist (queue.stream.take queue.delivered)
  mark : queue.lastDrained = "" ∨ ∃ entry ∈ queue.stream, entry.id = queue.lastDrained

variable {queue : Queue}

/-- The identifiers in the stream are distinct. -/
theorem QueueInv.distinct (inv : QueueInv queue) :
    (queue.stream.map StreamEntry.id).Nodup := by
  rw [nodup_iff_pairwise_ne, pairwise_map]
  refine inv.ascending.imp_of_mem ?_
  intro first second mem _ below same
  have self : streamIDGTE first.id first.id = true := by
    obtain ⟨parts, parsed⟩ := Option.isSome_iff_exists.mp (inv.parses first mem)
    exact streamIDGTE_iff.mpr ⟨_, by rw [position, parsed]; rfl, _,
      by rw [position, parsed]; rfl, le_refl _⟩
  rw [← same, self] at below
  cases below

theorem QueueInv.initial (db : DB) : QueueInv { db } where
  parses := nofun
  ascending := List.Pairwise.nil
  within := le_refl _
  pending := List.Sublist.slnil
  mark := Or.inl rfl

theorem QueueInv.enqueue (inv : QueueInv queue) {entry : StreamEntry}
    (fresh : isNext queue entry.id = true) (lastEnqueued : String) :
    QueueInv { queue with stream := queue.stream ++ [entry], lastEnqueued } := by
  rw [isNext, Bool.and_eq_true, all_eq_true] at fresh
  obtain ⟨wellFormed, above⟩ := fresh
  refine ⟨?_, ?_, ?_, ?_, ?_⟩
  · intro other mem
    rcases mem_append.mp mem with old | new
    · exact inv.parses other old
    · rw [mem_singleton.mp new]
      exact wellFormed
  · refine pairwise_append.mpr ⟨inv.ascending, pairwise_singleton _ _, ?_⟩
    intro first mem second new
    rw [mem_singleton.mp new]
    simpa using above first mem
  · exact inv.within.trans (by simp)
  · dsimp only
    rw [take_append_of_le_length inv.within]
    exact inv.pending
  · exact inv.mark.imp_right fun ⟨other, mem, same⟩ =>
      ⟨other, mem_append_left _ mem, same⟩

theorem nextEntries_eq_take (queue : Queue) (count : Nat) :
    (queue.stream.drop queue.delivered).take (nextEntries queue count).length =
      nextEntries queue count := by
  rw [nextEntries, length_take]
  exact take_eq_take_iff.mpr (by simp)

/-- Reading entries makes them pending. -/
theorem QueueInv.read (inv : QueueInv queue) (count : Nat) :
    QueueInv { queue with
      delivered := queue.delivered + (nextEntries queue count).length
      pending := queue.pending ++ nextEntries queue count } := by
  refine ⟨inv.parses, inv.ascending, ?_, ?_, inv.mark⟩
  · have within := inv.within
    simp only [nextEntries, length_take, length_drop]
    omega
  · dsimp only
    rw [take_add, nextEntries_eq_take]
    exact inv.pending.append (List.Sublist.refl _)

/-- A batch moves the mark to the identifier of one of its entries, if at all. -/
theorem QueueInv.batch {env : BatchEnv} {page : List StreamEntry} (inv : QueueInv queue)
    (taken : page.Sublist queue.stream) :
    QueueInv (afterBatch queue (processBatch cfg env page queue.db)) := by
  refine ⟨inv.parses, inv.ascending, inv.within, filter_sublist.trans inv.pending, ?_⟩
  rcases noteDrainedIDs_cases queue.lastDrained (processBatch cfg env page queue.db).drained with
    kept | moved
  · exact inv.mark.imp kept.trans fun ⟨entry, mem, same⟩ => ⟨entry, mem, same.trans kept.symm⟩
  · obtain ⟨_, _, entry, mem, same, _⟩ :=
      of_mem_processBatch_drained ((taken.map StreamEntry.id).nodup inv.distinct) moved
    exact .inr ⟨entry, taken.subset mem, same⟩

theorem QueueInv.claimed (inv : QueueInv queue) (claimed : List String) :
    (claimedEntries queue claimed).Sublist queue.stream :=
  filter_sublist.trans (inv.pending.trans (take_sublist _ _))

theorem nextEntries_sublist (queue : Queue) (count : Nat) :
    (nextEntries queue count).Sublist queue.stream :=
  (take_sublist _ _).trans (drop_sublist _ _)

/-- What a step does: it adds an entry, runs a batch, or leaves stream and marks. -/
inductive Moves (cfg : WorkerConfig) (queue : Queue) (event : Event) : Queue → Prop
  | enqueues {entry : StreamEntry} (phase : Phase) :
      isNext queue entry.id = true →
      Moves cfg queue event { queue with
        stream := queue.stream ++ [entry]
        lastEnqueued := noteEnqueuedID queue.lastEnqueued entry.id
        phase }
  | reclaims (env : BatchEnv) (claimed : List String) (phase : Phase) :
      event.batch queue = some (env, claimedEntries queue claimed) →
      Moves cfg queue event { afterBatch queue
        (processBatch cfg env (claimedEntries queue claimed) queue.db) with phase }
  | reads (env : BatchEnv) (count : Nat) :
      event.batch queue = some (env, nextEntries queue count) →
      Moves cfg queue event (readPage cfg env count queue)
  | stays (phase : Phase) (db : DB) : Moves cfg queue event { queue with phase, db }

theorem moves_of_step {event : Event} {after : Queue}
    (taken : step cfg queue event = some after) : Moves cfg queue event after := by
  unfold step at taken
  split at taken
  · split at taken
    · next fresh =>
      cases taken
      exact .enqueues queue.phase fresh
    · cases taken
  · cases taken
    exact .stays _ queue.db
  · cases taken
    unfold reclaimPage
    dsimp only
    split
    · exact .stays _ queue.db
    · exact .reclaims _ _ _ rfl
  · cases taken
    exact .stays _ queue.db
  · split at taken
    · cases taken
    · cases taken
      exact .reads _ _ rfl
  · cases taken
    exact .stays _ queue.db
  · cases taken
    exact .stays queue.phase _
  · cases taken

theorem QueueInv.step {event : Event} {after : Queue} (inv : QueueInv queue)
    (moves : Moves cfg queue event after) : QueueInv after := by
  cases moves with
  | enqueues phase fresh =>
    obtain ⟨parses, ascending, within, pending, mark⟩ := inv.enqueue fresh queue.lastEnqueued
    exact ⟨parses, ascending, within, pending, mark⟩
  | reclaims env claimed phase batch =>
    obtain ⟨parses, ascending, within, pending, mark⟩ := inv.batch (inv.claimed claimed)
    exact ⟨parses, ascending, within, pending, mark⟩
  | reads env count batch => exact (inv.read count).batch (nextEntries_sublist queue count)
  | stays phase db =>
    exact ⟨inv.parses, inv.ascending, inv.within, inv.pending, inv.mark⟩

/-! ## Applied entries -/

/-- What every step keeps of the entries: those that the drain mark has reached and those
that were handed out and are no longer pending are applied, poison pills apart. -/
structure Settled (cfg : WorkerConfig) (start : Queue) (events : List Event) (queue : Queue) :
    Prop where
  drained : ∀ entry ∈ queue.stream, entry.isPoison = false →
    streamIDGTE queue.lastDrained entry.id = true → AppliedIn cfg start events entry
  acked : ∀ entry ∈ queue.stream.take queue.delivered, entry.isPoison = false →
    entry ∉ queue.pending → AppliedIn cfg start events entry

section

variable {start : Queue} {events : List Event} {event : Event} {env : BatchEnv}
  {page : List StreamEntry} {entry : StreamEntry}

theorem Settled.snoc (settled : Settled cfg start events queue) (event : Event) :
    Settled cfg start (events ++ [event]) queue where
  drained entry mem sound reached := (settled.drained entry mem sound reached).snoc event
  acked entry mem sound done := (settled.acked entry mem sound done).snoc event

/-- A new entry is above the mark and has not been handed out. -/
theorem Settled.enqueue (settled : Settled cfg start events queue) (inv : QueueInv queue)
    (fresh : isNext queue entry.id = true) (phase : Phase) (lastEnqueued : String) :
    Settled cfg start events
      { queue with stream := queue.stream ++ [entry], lastEnqueued, phase } := by
  rw [isNext, Bool.and_eq_true, all_eq_true] at fresh
  constructor
  · intro other mem sound reached
    rcases mem_append.mp mem with old | new
    · exact settled.drained other old sound reached
    rw [mem_singleton.mp new] at reached
    rcases inv.mark with empty | ⟨marked, inStream, same⟩
    · rw [empty, streamIDGTE_empty] at reached
      cases reached
    · rw [← same] at reached
      simpa [reached] using fresh.2 marked inStream
  · intro other mem sound done
    dsimp only at mem
    rw [take_append_of_le_length inv.within] at mem
    exact settled.acked other mem sound done

section

variable (reached : run (step cfg) start events = some queue)
  (given : event.batch queue = some (env, page))
include reached given

/-- The entries of a batch whose writes succeed are applied, poison pills and failing
ones apart. -/
theorem appliedIn_of_batch (written : (writeBatch cfg env page queue.db).1 = true)
    (mem : entry ∈ page) (sound : entry.isPoison = false) (succeeds : entry.id ∉
      failedRecons env (blockRecons env page) (writeBatch cfg env page queue.db).2) :
    AppliedIn cfg start (events ++ [event]) entry :=
  ⟨events, event, [], queue, env, page, rfl, reached, given, mem,
    landed_of_writeBatch written mem sound succeeds⟩

section

variable (inv : QueueInv queue) (taken : page.Sublist queue.stream)
  (mem : entry ∈ queue.stream) (sound : entry.isPoison = false)
include inv taken mem sound

/-- What a batch takes off the pending list is applied. -/
theorem appliedIn_of_acked (acked : entry.id ∈ (processBatch cfg env page queue.db).acked) :
    AppliedIn cfg start (events ++ [event]) entry := by
  have distinct : (page.map StreamEntry.id).Nodup :=
    (taken.map StreamEntry.id).nodup inv.distinct
  have same : ∀ other ∈ page, other.id = entry.id → other = entry := fun other inPage =>
    inj_on_of_nodup_map inv.distinct (taken.subset inPage) mem
  rcases of_mem_processBatch_acked acked with ⟨other, inPage, sameId, poison⟩ | drained
  · rw [same other inPage sameId, sound] at poison
    cases poison
  · obtain ⟨written, -, other, inPage, sameId, -, succeeds⟩ :=
      of_mem_processBatch_drained distinct drained
    rw [same other inPage sameId] at inPage
    exact appliedIn_of_batch reached given written inPage sound succeeds

/-- A batch without a gap moves the mark only over applied entries. -/
theorem Settled.batch (settled : Settled cfg start events queue)
    (gapless : Gapless cfg queue env page)
    (passed : streamIDGTE (noteDrainedIDs queue.lastDrained
      (processBatch cfg env page queue.db).drained) entry.id = true) :
    AppliedIn cfg start (events ++ [event]) entry := by
  rcases noteDrainedIDs_cases queue.lastDrained (processBatch cfg env page queue.db).drained with
    kept | moved
  · rw [kept] at passed
    exact (settled.drained entry mem sound passed).snoc event
  obtain ⟨written, acked, later, inPage, same, laterSound, succeeds⟩ :=
    of_mem_processBatch_drained ((taken.map StreamEntry.id).nodup inv.distinct) moved
  rw [← same] at succeeds passed
  rcases gapless written acked later inPage laterSound succeeds entry mem sound passed with
    ⟨inBatch, ok⟩ | ⟨delivered, done⟩
  · exact appliedIn_of_batch reached given written inBatch sound ok
  · exact (settled.acked entry delivered sound done).snoc event

end

end

theorem Settled.step {after : Queue} (settled : Settled cfg start events queue)
    (inv : QueueInv queue) (reached : run (Nodeinfo.step cfg) start events = some queue)
    (met : KeepsOrder cfg queue event) (moves : Moves cfg queue event after) :
    Settled cfg start (events ++ [event]) after := by
  cases moves with
  | enqueues phase fresh => exact (settled.snoc event).enqueue inv fresh phase _
  | stays phase db =>
    obtain ⟨drained, acked⟩ := settled.snoc event
    exact ⟨drained, acked⟩
  | reclaims env claimed phase batch =>
    rw [KeepsOrder, batch] at met
    have taken := inv.claimed claimed
    refine ⟨fun entry mem sound passed => settled.batch reached batch inv taken mem sound met
      passed, fun entry mem sound done => ?_⟩
    by_cases waits : entry ∈ queue.pending
    · have acked := not_not.mp fun kept => done (mem_filter.mpr ⟨waits, decide_eq_true kept⟩)
      exact appliedIn_of_acked reached batch inv taken (mem_of_mem_take mem) sound acked
    · exact (settled.acked entry mem sound waits).snoc event
  | reads env count batch =>
    rw [KeepsOrder, batch] at met
    have taken := nextEntries_sublist queue count
    refine ⟨fun entry mem sound passed => settled.batch reached batch inv taken mem sound met
      passed, fun entry mem sound done => ?_⟩
    by_cases waits : entry ∈ queue.pending ++ nextEntries queue count
    · have acked := not_not.mp fun kept => done (mem_filter.mpr ⟨waits, decide_eq_true kept⟩)
      exact appliedIn_of_acked reached batch inv taken (mem_of_mem_take mem) sound acked
    · have earlier : entry ∈ queue.stream.take queue.delivered := by
        change entry ∈ queue.stream.take (queue.delivered + (nextEntries queue count).length) at mem
        rw [take_add, nextEntries_eq_take] at mem
        exact (mem_append.mp mem).resolve_right fun next => waits (mem_append_right _ next)
      exact (settled.acked entry earlier sound fun old =>
        waits (mem_append_left _ old)).snoc event

end

theorem settled_of_runs {db : DB} {events : List Event} {queue : Queue}
    (runs : Runs (step cfg) (KeepsOrder cfg) { db } events queue) :
    QueueInv queue ∧ Settled cfg { db } events queue := by
  induction runs with
  | nil => exact ⟨QueueInv.initial db, nofun, nofun⟩
  | snoc before met taken ih =>
    have moves := moves_of_step taken
    exact ⟨ih.1.step moves, ih.2.step ih.1 before.run_eq met moves⟩

/-- A block that moves one unit. -/
def paying (number : UInt64) (hash : Hash) : ZKBlock :=
  { blockNumber := number
    blockHash := hash
    coinbaseAddr := some 3
    zkvmAddr := some 4
    transactions :=
      [{ hash := hash + 16, fromAddr := some 1, toAddr := some 2, value := some 1 }] }

/-- A database with two blocks that are not applied. -/
def twoBlocks : DB :=
  { blocks := fun number =>
      if number = 1 then some (paying 1 1) else if number = 2 then some (paying 2 2) else none }

/-- The queue entry of a block. -/
def blockEntry (id : String) (number : UInt64) (hash : Hash) : StreamEntry :=
  { id, payload := .blockRecon (some [{ blockNumber := number, blockHash := some hash }]) }

/-- Both blocks are enqueued and read in one batch. -/
def bothInOneBatch (env : BatchEnv) : List Event :=
  [.enqueue (blockEntry "1700000000000-0" 1 1), .enqueue (blockEntry "1700000000001-0" 2 2),
    .start true, .autoClaim {} [] false, .readGroup env 100]

/-- An account record is read, fails and is reclaimed after a restart, before the two
blocks are read. -/
def retriedRecord : List Event :=
  [.enqueue ⟨"1699999999999-0", .accounts (some [some { address := 1, balance := "5" }])⟩,
    .enqueue (blockEntry "1700000000000-0" 1 1), .enqueue (blockEntry "1700000000001-0" 2 2),
    .start true, .autoClaim {} [] false, .readGroup { connOk := false } 1, .goOffline, .start true,
    .autoClaim {} ["1699999999999-0"] false, .readGroup {} 100]

end Jmdn.Nodeinfo
