import Jmdn.DBOPs.ReconGroups
import Jmdn.FastsyncV2.Runs

/-!
# What the applied anchor says

The anchor claims that the blocks up to it are applied.  A pass makes the claim
true for its range once the queue is empty, if everything stored below the range
is applied already.  It stays true as long as nothing unapplied is stored under a
number that is claimed.
-/

namespace Jmdn.FastsyncV2

open Config DBOPs List

variable {before after middle : Node} {upTo : UInt64} {contents : Hash → List Hash}
  {ref : BlockReconRef}

def Applied (db : DB) (block : ZKBlock) : Prop :=
  ∀ hash ∈ txHashes block, db.txApplied hash = true

/-- The stored blocks above the seed and up to a number are applied. -/
def Covered (node : Node) (upTo : UInt64) : Prop :=
  ∀ number block, node.seed < number → number ≤ upTo → node.db.blocks number = some block →
    Applied node.db block

/-- The same, except for blocks that wait in the queue. -/
def Handed (node : Node) (upTo : UInt64) : Prop :=
  ∀ number block, node.seed < number → number ≤ upTo → node.db.blocks number = some block →
    Applied node.db block ∨
      { blockNumber := number, blockHash := block.blockHash } ∈ node.queue.flatten

theorem Handed.covered {node : Node} (handed : Handed node upTo) (empty : node.queue = []) :
    Covered node upTo := by
  intro number block above below stored
  rcases handed number block above below stored with applied | waits
  · exact applied
  · simp [empty] at waits

/-! ## Steps that store nothing -/

/-- Nothing was stored, no marker was lost, and what left the queue is applied. -/
structure Grows (before after : Node) : Prop where
  seed : before.seed ≤ after.seed
  blocks : after.db.blocks = before.db.blocks
  kept : ∀ hash, before.db.txApplied hash = true → after.db.txApplied hash = true
  queue : ∀ number block, before.db.blocks number = some block →
    { blockNumber := number, blockHash := block.blockHash } ∈ before.queue.flatten →
    Applied after.db block ∨
      { blockNumber := number, blockHash := block.blockHash } ∈ after.queue.flatten

theorem Grows.applied (grows : Grows before after) {block : ZKBlock}
    (applied : Applied before.db block) : Applied after.db block :=
  fun hash listed => grows.kept hash (applied hash listed)

theorem Grows.trans (first : Grows before middle) (second : Grows middle after) :
    Grows before after where
  seed := by
    have one := first.seed
    have two := second.seed
    grind
  blocks := second.blocks.trans first.blocks
  kept hash applied := second.kept hash (first.kept hash applied)
  queue number block stored waits := by
    rcases first.queue number block stored waits with applied | still
    · exact .inl (second.applied applied)
    · exact second.queue number block (by rw [first.blocks, stored]) still

theorem Handed.grow (grows : Grows before after) (handed : Handed before upTo) :
    Handed after upTo := by
  intro number block above below stored
  rw [grows.blocks] at stored
  have higher := grows.seed
  rcases handed number block (by grind) below stored with applied | waits
  · exact .inl (grows.applied applied)
  · exact grows.queue number block stored waits

theorem Covered.grow (grows : Grows before after) (covered : Covered before upTo) :
    Covered after upTo := by
  intro number block above below stored
  rw [grows.blocks] at stored
  have higher := grows.seed
  exact grows.applied (covered number block (by grind) below stored)

/-- What holds of a node between any two steps.  `contents` gives the transaction
hashes under each block hash. -/
structure NodeInv (contents : Hash → List Hash) (node : Node) : Prop where
  keyed : Keyed node.db.blocks
  marked : ∀ blockHash, node.db.blockProcessed.isApplied blockHash = true →
    ∀ hash ∈ contents blockHash, node.db.txApplied hash = true
  unset : node.db.appliedAnchor = none → node.seed = 0
  covered : Covered node node.anchor

/-- A step of the node alone. -/
structure Advances (contents : Hash → List Hash) (before after : Node) : Prop where
  grows : Grows before after
  inv : NodeInv contents after
  anchor : before.anchor ≤ after.anchor

theorem Advances.trans (first : Advances contents before middle)
    (second : Advances contents middle after) :
    Advances contents before after where
  grows := first.grows.trans second.grows
  inv := second.inv
  anchor := by
    have one := first.anchor
    have two := second.anchor
    grind

/-- A step that only moves the block markers or the session. -/
theorem NodeInv.unchanged (inv : NodeInv contents before) (db : after.db = before.db)
    (queue : after.queue = before.queue) (seed : after.seed = before.seed) :
    Advances contents before after := by
  have anchor : after.anchor = before.anchor := by rw [Node.anchor, db, Node.anchor]
  have grows : Grows before after :=
    ⟨by grind, by rw [db], by simp [db], fun _ _ _ waits => .inr (by rwa [queue])⟩
  exact ⟨grows, ⟨by rw [db]; exact inv.keyed, by rw [db]; exact inv.marked,
    by rw [db, seed]; exact inv.unset, by rw [anchor]; exact inv.covered.grow grows⟩,
    by grind⟩

/-- A step that applies transactions and takes only applied blocks out of the
queue. -/
theorem NodeInv.marks (inv : NodeInv contents before) (only : OnlyMarks before.db after.db)
    (seed : after.seed = before.seed)
    (queue : ∀ number block, before.db.blocks number = some block →
      { blockNumber := number, blockHash := block.blockHash } ∈ before.queue.flatten →
      Applied after.db block ∨
        { blockNumber := number, blockHash := block.blockHash } ∈ after.queue.flatten) :
    Advances contents before after := by
  have grows : Grows before after := ⟨by grind, by rw [only.others], only.kept, queue⟩
  have stored : after.db.appliedAnchor = before.db.appliedAnchor := by rw [only.others]
  have anchor : after.anchor = before.anchor := by rw [Node.anchor, stored, Node.anchor]
  refine ⟨grows, ⟨?_, ?_, ?_, ?_⟩, by grind⟩
  · rw [grows.blocks]
    exact inv.keyed
  · intro blockHash marked hash listed
    rw [only.others] at marked
    exact only.kept hash (inv.marked blockHash marked hash listed)
  · rw [stored, seed]
    exact inv.unset
  · rw [anchor]
    exact inv.covered.grow grows

section

variable {contents : Hash → List Hash} {env : SyncEnv} {node : Node}

/-! ## Applying handed-over blocks -/

/-- The stored block a reference names is applied. -/
def RefApplied (blocks : UInt64 → Option ZKBlock) (db : DB) (ref : BlockReconRef) : Prop :=
  ∀ block, blocks ref.blockNumber = some block → Applied db block

/-- A block that was applied stays applied while the rest of its list is. -/
theorem refApplied_cons {recon : ReconEnv} {rest : List BlockReconRef} {db after : DB}
    (done : (applyBlockRecon recon ref.blockNumber (some ref.blockHash) db).1 = .ok ())
    (later : OnlyMarks (applyBlockRecon recon ref.blockNumber (some ref.blockHash) db).2 after)
    (applied : ∀ other ∈ rest, RefApplied
      (applyBlockRecon recon ref.blockNumber (some ref.blockHash) db).2.blocks after other) :
    ∀ other ∈ ref :: rest, RefApplied db.blocks after other := by
  have blocks : (applyBlockRecon recon ref.blockNumber (some ref.blockHash) db).2.blocks =
      db.blocks := by rw [(applyBlockRecon_onlyMarks _ _ _ db).others]
  intro other listed
  rcases mem_cons.mp listed with rfl | inRest
  · intro block stored hash inBlock
    exact later.kept hash ((marked_of_applyBlockRecon stored done).2 hash inBlock)
  · rw [← blocks]
    exact applied other inRest

theorem applyBlockReconsDirect_applies (refs : List BlockReconRef) (db : DB) :
    OnlyMarks db (applyBlockReconsDirect env refs db).2 ∧
      ((applyBlockReconsDirect env refs db).1 = [] →
        ∀ ref ∈ refs, RefApplied db.blocks (applyBlockReconsDirect env refs db).2 ref) := by
  induction refs generalizing db with
  | nil => exact ⟨.refl db, by simp⟩
  | cons ref rest ih =>
    have only := applyBlockRecon_onlyMarks (env.direct ref) ref.blockNumber (some ref.blockHash) db
    obtain ⟨later, applies⟩ := ih
      (applyBlockRecon (env.direct ref) ref.blockNumber (some ref.blockHash) db).2
    unfold applyBlockReconsDirect
    dsimp only
    split
    · next done =>
      exact ⟨only.trans later, fun noneFailed => refApplied_cons done later (applies noneFailed)⟩
    · exact ⟨only.trans later, nofun⟩

theorem applyEntry_applies (recon : BlockReconRef → ReconEnv) (entry : List BlockReconRef)
    (db : DB) :
    OnlyMarks db (applyEntry recon entry db).2 ∧
      ((applyEntry recon entry db).1 = true →
        ∀ ref ∈ entry, RefApplied db.blocks (applyEntry recon entry db).2 ref) := by
  induction entry generalizing db with
  | nil => exact ⟨.refl db, by simp⟩
  | cons ref rest ih =>
    have only := applyBlockRecon_onlyMarks (recon ref) ref.blockNumber (some ref.blockHash) db
    obtain ⟨later, applies⟩ := ih
      (applyBlockRecon (recon ref) ref.blockNumber (some ref.blockHash) db).2
    unfold applyEntry
    dsimp only
    split
    · next done =>
      exact ⟨only.trans later, fun allDone => refApplied_cons done later (applies allDone)⟩
    · exact ⟨only, nofun⟩

/-- An entry that is applied refers to stored blocks of the given hashes. -/
theorem stored_of_applyEntry {recon : BlockReconRef → ReconEnv} {entry : List BlockReconRef}
    {db : DB} (done : (applyEntry recon entry db).1 = true) :
    ∀ ref ∈ entry, ∃ block, db.blocks ref.blockNumber = some block ∧
      block.blockHash = ref.blockHash := by
  induction entry generalizing db with
  | nil => exact nofun
  | cons first rest ih =>
    unfold applyEntry at done
    dsimp only at done
    split at done
    · next applied =>
      have blocks := congrArg DB.blocks (applyBlockRecon_onlyMarks (recon first) first.blockNumber
        (some first.blockHash) db).others
      intro ref listed
      rcases mem_cons.mp listed with rfl | later
      · cases stored : db.blocks ref.blockNumber with
        | none =>
          rw [applyBlockRecon, applyBlockReconWithin, stored] at applied
          cases applied
        | some block => exact ⟨block, rfl, (marked_of_applyBlockRecon stored applied).1⟩
      · obtain ⟨block, stored, same⟩ := ih done ref later
        exact ⟨block, blocks ▸ stored, same⟩
    · cases done

theorem mem_enqueued {chunkList : List (List BlockReconRef)} (all : unqueued env chunkList = [])
    {chunk : List BlockReconRef} (listed : chunk ∈ chunkList) (mem : ref ∈ chunk) :
    ref ∈ (enqueued env chunkList).flatten := by
  obtain ⟨position, within, rfl⟩ := mem_iff_getElem.mp listed
  have indexed : (chunkList[position], position) ∈ chunkList.zipIdx := by
    rw [mk_mem_zipIdx_iff_getElem?, List.getElem?_eq_getElem within]
  refine mem_flatten.mpr ⟨_, mem_map.mpr ⟨_, mem_filter.mpr ⟨indexed, ?_⟩, rfl⟩,
    mem⟩
  by_contra refused
  have lost : ref ∈ unqueued env chunkList :=
    mem_flatMap.mpr ⟨_, mem_filter.mpr ⟨indexed, by simpa using refused⟩, mem⟩
  simp [all] at lost

/-- A block that the filter leaves out is applied. -/
theorem applied_or_outstanding {db : DB} {blocks : List ZKBlock} {block : ZKBlock}
    (listed : block ∈ blocks) :
    Applied db block ∨
      { blockNumber := block.blockNumber, blockHash := block.blockHash } ∈
        outstanding db blocks := by
  by_cases applied : Applied db block
  · exact .inl applied
  obtain ⟨hash, inBlock, unmarked⟩ : ∃ hash ∈ txHashes block, db.txApplied hash ≠ true := by
    simpa [Applied] using applied
  refine .inr (mem_map.mpr ⟨block, mem_filter.mpr ⟨listed, ?_⟩, rfl⟩)
  refine any_eq_true.mpr ⟨hash, inBlock, decide_eq_true fun found => ?_⟩
  exact unmarked (mem_filterProcessedTxMarkers.mp found).2

theorem capAnchorTarget_le (target tip : UInt64) : capAnchorTarget target tip ≤ target := by
  unfold capAnchorTarget
  split <;> grind

theorem Handed.mono {less : UInt64} (handed : Handed node upTo) (below : less ≤ upTo) :
    Handed node less :=
  fun number block above within => handed number block above (by grind)

section

variable (inv : NodeInv contents node)
include inv

/-- The drain worker takes only applied entries out of the queue. -/
theorem advances_drain (recon : BlockReconRef → ReconEnv)
    (ack : Bool) (index : Nat) : Advances contents node (drain node recon ack index) := by
  unfold drain
  split
  · exact inv.unchanged rfl rfl rfl
  next entry found =>
  obtain ⟨only, applies⟩ := applyEntry_applies recon entry node.db
  refine inv.marks only rfl fun number block stored waits => ?_
  dsimp only
  split
  · next done =>
    obtain ⟨other, inQueue, inOther⟩ := mem_flatten.mp waits
    by_cases same : other = entry
    · subst same
      rw [Bool.and_eq_true] at done
      exact .inl (applies done.1 _ inOther block stored)
    refine .inr (mem_flatten.mpr ⟨other, ?_, inOther⟩)
    obtain ⟨position, within, rfl⟩ := mem_iff_getElem.mp inQueue
    refine mem_eraseIdx_iff_getElem.mpr ⟨position, within, ?_, rfl⟩
    rintro rfl
    rw [List.getElem?_eq_getElem within] at found
    exact same (Option.some.inj found)
  · exact .inr waits

/-! ## Handing over a range -/

/-- A reference that did not fail waits in the queue or was applied at once. -/
theorem advances_enqueueBlockRecons (refs : List BlockReconRef) :
    Advances contents node (enqueueBlockRecons env node refs).2 ∧
      ((enqueueBlockRecons env node refs).1 = [] → ∀ ref ∈ refs,
        RefApplied node.db.blocks (enqueueBlockRecons env node refs).2.db ref ∨
          ref ∈ (enqueueBlockRecons env node refs).2.queue.flatten) := by
  unfold enqueueBlockRecons
  split
  · next none =>
    exact ⟨inv.unchanged rfl rfl rfl, fun _ ref listed => by simp [none] at listed⟩
  split
  · refine ⟨inv.marks (.refl node.db) rfl fun _ _ _ waits => ?_, fun all ref listed => ?_⟩
    · rw [flatten_append]
      exact .inr (mem_append_left _ waits)
    · obtain ⟨chunk, inChunks, mem⟩ :=
        (mem_chunks (by decide : 0 < maxRecordsPerMessage)).mpr listed
      rw [flatten_append]
      exact .inr (mem_append_right _ (mem_enqueued all inChunks mem))
  · obtain ⟨only, applies⟩ := @applyBlockReconsDirect_applies env refs node.db
    exact ⟨inv.marks only rfl fun _ _ _ waits => .inr waits,
      fun all ref listed => .inl (applies all ref listed)⟩

/-- A hand-over without failures leaves no block of its range behind. -/
theorem advances_reconcileBlocksLocally (fromBlock toBlock : UInt64) :
    Advances contents node (reconcileBlocksLocally env node fromBlock toBlock).2 ∧
      ((reconcileBlocksLocally env node fromBlock toBlock).1.failed = false →
        ∀ number block, fromBlock ≤ number → number ≤ toBlock →
          node.db.blocks number = some block →
          Applied (reconcileBlocksLocally env node fromBlock toBlock).2.db block ∨
            { blockNumber := number, blockHash := block.blockHash } ∈
              (reconcileBlocksLocally env node fromBlock toBlock).2.queue.flatten) := by
  unfold reconcileBlocksLocally
  split
  · exact ⟨inv.unchanged rfl rfl rfl, nofun⟩
  next blocks scanned =>
  split
  · obtain ⟨advances, enqueues⟩ :=
      @advances_enqueueBlockRecons contents env node inv (outstanding node.db blocks)
    refine ⟨advances, fun succeeded number block above below stored => ?_⟩
    have listed : block ∈ blocks := by
      unfold scan at scanned
      split at scanned
      · cases scanned
        exact mem_filterMap.mpr ⟨number, mem_blockNumbers_iff.mpr ⟨above, below⟩, stored⟩
      · cases scanned
    have keyed := inv.keyed number block stored
    rcases @applied_or_outstanding node.db blocks block listed with applied | waits
    · exact .inl (advances.grows.applied applied)
    rw [keyed] at waits
    rcases enqueues (by simpa using succeeded) _ waits with applied | queued
    · exact .inl (applied block stored)
    · exact .inr queued
  · exact ⟨inv.unchanged rfl rfl rfl, nofun⟩

/-! ## A whole pass -/

/-- Seeding moves the start of the range together with the anchor. -/
theorem advances_seedFromLegacy :
    Advances contents node (seedFromLegacy env node) := by
  unfold seedFromLegacy
  dsimp only
  split
  · next seeded =>
    obtain ⟨absent, -⟩ := Bool.and_eq_true_iff.mp seeded.2
    rw [Option.isNone_iff_eq_none] at absent
    have zero : node.anchor = 0 := by simp [Node.anchor, absent]
    have start := inv.unset absent
    refine ⟨⟨by grind, rfl, fun _ applied => applied, fun _ _ _ waits => .inr waits⟩,
      ⟨inv.keyed, inv.marked, nofun, fun number block above below => ?_⟩, by grind⟩
    simp only [Node.anchor, Option.getD_some] at below
    grind
  · exact inv.unchanged rfl rfl rfl

/-- The stored blocks between the anchor and the first block of a range are
applied. -/
def Reaches (node : Node) (first : UInt64) : Prop :=
  ∀ number block, node.anchor < number → number < first → node.db.blocks number = some block →
    Applied node.db block

/-- Below the range that a pass works on, everything is applied already. -/
theorem applied_below_range {fromBlock toBlock : UInt64}
    (reaches : Reaches node fromBlock) {number : UInt64} {block : ZKBlock}
    (above : (seedFromLegacy env node).seed < number)
    (below : number < (effectiveReconRange env node fromBlock toBlock).1)
    (stored : (seedFromLegacy env node).db.blocks number = some block) :
    Applied (seedFromLegacy env node).db block := by
  have seeded := @advances_seedFromLegacy contents env node inv
  by_cases within : number ≤ (seedFromLegacy env node).anchor
  · exact seeded.inv.covered number block above within stored
  have read : reconAnchor env node ≤ (seedFromLegacy env node).anchor := by
    unfold reconAnchor
    split <;> grind
  have first : number < fromBlock := by
    have known := seeded.anchor
    simp only [effectiveReconRange] at below
    grind
  rw [seeded.grows.blocks] at stored
  have known := seeded.anchor
  exact seeded.grows.applied (reaches number block (by grind) first stored)

/-- A pass that was skipped or went through has handed over everything up to the
end of its range. -/
theorem advances_reconPass (fromBlock toBlock : UInt64) :
    Advances contents node (reconPass env fromBlock toBlock node).2 ∧
      (Reaches node fromBlock →
        ((reconPass env fromBlock toBlock node).1.elim true Pass.clean) = true →
        Handed (reconPass env fromBlock toBlock node).2 toBlock) := by
  have seeded := @advances_seedFromLegacy contents env node inv
  unfold reconPass
  dsimp only
  split
  · next skipped =>
    refine ⟨seeded, fun reaches _ number block above below stored => .inl ?_⟩
    simp only [effectiveReconRange, decide_eq_true_eq] at skipped
    refine @applied_below_range _ _ _ inv _ toBlock reaches _ _ above ?_ stored
    simp only [effectiveReconRange]
    grind
  · obtain ⟨advances, hands⟩ := @advances_reconcileBlocksLocally contents env _ seeded.inv
      (effectiveReconRange env node fromBlock toBlock).1 toBlock
    refine ⟨seeded.trans advances, fun reaches clean number block above below stored => ?_⟩
    have succeeded := (Bool.and_eq_true_iff.mp clean).1
    rw [advances.grows.blocks] at stored
    by_cases covered : number < (effectiveReconRange env node fromBlock toBlock).1
    · have higher := advances.grows.seed
      exact .inl (advances.grows.applied
        (applied_below_range inv reaches (by grind) covered stored))
    · exact hands (by simpa using succeeded) number block (by grind) below stored

/-! ## Advancing the anchor -/

/-- The anchor may move up to a number that is covered. -/
theorem NodeInv.raise {value : UInt64}
    (higher : node.anchor ≤ value) (covered : Covered node value) :
    Advances contents node { node with db := { node.db with appliedAnchor := some value } } :=
  ⟨⟨by grind, rfl, fun _ applied => applied, fun _ _ _ waits => .inr waits⟩,
    ⟨inv.keyed, inv.marked, nofun, covered⟩, higher⟩

/-- An empty queue turns what was handed over into what is applied. -/
theorem advances_markReconComplete {toBlock : UInt64}
    (handed : Handed node toBlock) :
    Advances contents node (markReconComplete env node toBlock).2 := by
  have same : Advances contents node node := inv.unchanged rfl rfl rfl
  unfold markReconComplete
  dsimp only
  split
  · next drained =>
    have covered := (handed.mono (capAnchorTarget_le toBlock (trueLocalHead env node))).covered
      drained.1
    have moves := advanceAnchor_stored env.anchorWriteOk node.db.appliedAnchor
      (capAnchorTarget toBlock (trueLocalHead env node)) false
    split
    · exact same
    next anchor moved stored outcome =>
    rw [← advanceAppliedAnchorTo, outcome] at moves
    rcases moves with rfl | ⟨higher, rfl⟩
    · exact same
    · have lower : node.anchor < capAnchorTarget toBlock (trueLocalHead env node) := higher
      exact inv.raise (by grind) covered
  · exact same

/-- A pass moves the anchor only if its hand-over went through. -/
theorem advances_advanceReconAnchorIfProven {pass : Pass}
    (handed : pass.clean = true → Handed node pass.toBlock) :
    Advances contents node
      (advanceReconAnchorIfProven env node pass.handover pass.fromBlock pass.toBlock).2 := by
  unfold advanceReconAnchorIfProven
  dsimp only
  split
  · exact inv.unchanged rfl rfl rfl
  split
  · next proven =>
    have clean : pass.clean = true := (Bool.and_eq_true_iff.mp proven).1
    exact advances_markReconComplete inv
      ((handed clean).mono (capAnchorTarget_le pass.toBlock (trueLocalHead env node)))
  · exact inv.unchanged rfl rfl rfl

/-! ## Markers and sessions -/

theorem advances_updateLatestBlockMonotonic (ok : Bool) (blockNumber : UInt64) :
    Advances contents node (updateLatestBlockMonotonic node ok blockNumber) := by
  unfold updateLatestBlockMonotonic
  split <;> exact inv.unchanged rfl rfl rfl

theorem advances_ratchet (anchor : UInt64) (rounds : Nat) :
    Advances contents node (ratchet env anchor rounds node) := by
  induction rounds generalizing node with
  | zero => exact inv.unchanged rfl rfl rfl
  | succ rounds ih =>
    have moved : ∀ target, Advances contents node { node with latestBlock := target } :=
      fun target => inv.unchanged rfl rfl rfl
    rw [ratchet]
    split
    · exact inv.unchanged rfl rfl rfl
    next head found =>
    generalize (if anchor < head then anchor else head) = target
    dsimp only
    split
    · exact inv.unchanged rfl rfl rfl
    · split
      · exact moved target
      · exact (moved target).trans (ih (moved target).inv)

theorem advances_endSyncSession :
    Advances contents node (endSyncSession env node) := by
  have ended : ∀ session, Advances contents node { node with session } :=
    fun session => inv.unchanged rfl rfl rfl
  unfold endSyncSession
  dsimp only
  split
  · exact ended _
  · exact (ended _).trans (advances_ratchet (ended _).inv _ _)

end

end

end Jmdn.FastsyncV2
