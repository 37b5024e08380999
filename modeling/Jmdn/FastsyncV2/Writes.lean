import Jmdn.BlockProcessing.Outcome
import Jmdn.FastsyncV2.Anchor

/-!
# Steps that store blocks

`WriteHeaders`, `WriteData` and the live path put blocks into the database.  What
the anchor says survives when each stored block is applied, or lies outside the
numbers in question.
-/

namespace Jmdn.FastsyncV2

open Jmdn.BlockProcessing (processBlockTransactions Processes processes)
open Config DBOPs Go

variable {db : DB}

/-- Only blocks were written, under their numbers, and all of them are `fresh`. -/
structure Wrote (fresh : ZKBlock → Prop) (before after : DB) : Prop where
  others : after = { before with blocks := after.blocks }
  blocks : ∀ number block, after.blocks number = some block →
    before.blocks number = some block ∨ block.blockNumber = number ∧ fresh block

section

variable {fresh : ZKBlock → Prop} {before after middle : DB}

theorem Wrote.refl (db : DB) : Wrote fresh db db := ⟨rfl, fun _ _ stored => .inl stored⟩

theorem Wrote.trans (first : Wrote fresh before middle) (second : Wrote fresh middle after) :
    Wrote fresh before after where
  others := by rw [second.others, first.others]
  blocks number block stored := by
    rcases second.blocks number block stored with earlier | written
    · exact first.blocks number block earlier
    · exact .inr written

theorem wrote_putBlock {block : ZKBlock} (new : fresh block) (db : DB) :
    Wrote fresh db (putBlock db block) := by
  refine ⟨rfl, fun number other stored => ?_⟩
  by_cases same : number = block.blockNumber
  · subst same
    obtain rfl : block = other := by simpa [putBlock] using stored
    exact .inr ⟨rfl, new⟩
  · exact .inl (by simpa [putBlock, same] using stored)

theorem Wrote.keyed (wrote : Wrote fresh before after) (keyed : Keyed before.blocks) :
    Keyed after.blocks := by
  intro number block stored
  rcases wrote.blocks number block stored with earlier | written
  · exact keyed number block earlier
  · exact written.1

/-- A loop of writes, each of which may rely on what is stored being keyed. -/
theorem wrote_foldl {α : Type} {write : DB → α → DB} {items : List α}
    (one : ∀ db, Keyed db.blocks → ∀ item ∈ items, Wrote fresh db (write db item))
    (keyed : Keyed db.blocks) :
    Wrote fresh db (items.foldl write db) := by
  induction items generalizing db with
  | nil => exact .refl db
  | cons item rest ih =>
    have first := one db keyed item List.mem_cons_self
    exact first.trans (ih (fun db keyed other listed =>
      one db keyed other (List.mem_cons_of_mem _ listed)) (first.keyed keyed))

@[simp]
theorem txHashes_skeleton (header : ZKBlock) : txHashes (skeleton header) = [] := rfl

/-- The number and the transactions of a written block are those of its item. -/
theorem wrote_data (items : List NonHeaders) (keyed : Keyed db.blocks) :
    Wrote (fun block => ∃ item ∈ items, block.blockNumber = item.blockNumber ∧
        block.transactions = item.transactions) db
      (items.foldl putData db) :=
  wrote_foldl (fun db keyed item listed => wrote_putBlock ⟨item, listed, by
      rw [mergeData_blockNumber]
      cases stored : db.blocks item.blockNumber with
      | none => rfl
      | some block => exact keyed _ _ stored, rfl⟩ db) keyed

end

/-! ## Nodes that store -/

/-- A step of a node that only stores blocks and moves block markers. -/
structure Stores (fresh : ZKBlock → Prop) (before after : Node) : Prop where
  wrote : Wrote fresh before.db after.db
  queue : after.queue = before.queue
  seed : after.seed = before.seed

/-- Storing a block keeps what is known up to a number. -/
def Harmless (node : Node) (upTo : UInt64) (block : ZKBlock) : Prop :=
  Applied node.db block ∨ block.blockNumber ≤ node.seed ∨ upTo < block.blockNumber

section

variable {contents : Hash → List Hash} {fresh : ZKBlock → Prop} {before after : Node}

section

variable (stores : Stores fresh before after)
include stores

theorem Stores.applied {block : ZKBlock} :
    Applied after.db block ↔ Applied before.db block := by
  rw [stores.wrote.others]
  rfl

theorem Stores.anchor : after.anchor = before.anchor := by
  rw [Node.anchor, stores.wrote.others, Node.anchor]

/-- A block in the range is an old one or an applied one. -/
theorem Stores.cases {upTo : UInt64}
    (harmless : ∀ block, fresh block → Harmless before upTo block) {number : UInt64}
    {block : ZKBlock} (above : before.seed < number) (below : number ≤ upTo)
    (stored : after.db.blocks number = some block) :
    before.db.blocks number = some block ∨ Applied before.db block := by
  rcases stores.wrote.blocks number block stored with earlier | ⟨rfl, new⟩
  · exact .inl earlier
  rcases harmless block new with applied | low | high
  · exact .inr applied
  · grind
  · grind

end

theorem Handed.stores {upTo : UInt64} (handed : Handed before upTo)
    (stores : Stores fresh before after)
    (harmless : ∀ block, fresh block → Harmless before upTo block) : Handed after upTo := by
  intro number block above below stored
  rw [stores.seed] at above
  rw [stores.applied, stores.queue]
  rcases stores.cases harmless above below stored with earlier | applied
  · exact handed number block above below earlier
  · exact .inl applied

theorem NodeInv.stores (inv : NodeInv contents before) (stores : Stores fresh before after)
    (harmless : ∀ block, fresh block → Harmless before before.anchor block) :
    NodeInv contents after where
  keyed := stores.wrote.keyed inv.keyed
  marked := by
    rw [stores.wrote.others]
    exact inv.marked
  unset := by
    rw [stores.seed, stores.wrote.others]
    exact inv.unset
  covered number block above below stored := by
    rw [stores.seed] at above
    rw [stores.anchor] at below
    rw [stores.applied]
    rcases stores.cases harmless above below stored with earlier | applied
    · exact inv.covered number block above below earlier
    · exact applied

theorem stores_writeHeaders {node : Node} (keyed : Keyed node.db.blocks) (headers : List ZKBlock)
    (completed : Bool) :
    Stores (fun block => txHashes block = []) node (writeHeaders node headers completed) := by
  have wrote : Wrote (fun block => txHashes block = []) node.db
      (headers.foldl (fun db header => putBlock db (skeleton header)) node.db) :=
    wrote_foldl (fun db _ header _ => wrote_putBlock (txHashes_skeleton header) db) keyed
  unfold writeHeaders
  cases headers with
  | nil => exact ⟨wrote, rfl, rfl⟩
  | cons first rest => cases completed <;> exact ⟨wrote, rfl, rfl⟩

theorem stores_updateLatestBlockMonotonic {node : Node} (stores : Stores fresh before node)
    (ok : Bool) (blockNumber : UInt64) :
    Stores fresh before (updateLatestBlockMonotonic node ok blockNumber) := by
  cases ok <;> exact ⟨stores.wrote, stores.queue, stores.seed⟩

theorem stores_writeData {node : Node} (keyed : Keyed node.db.blocks) (data : List NonHeaders)
    (completed latestOk : Bool) :
    Stores (fun block => ∃ item ∈ data, block.blockNumber = item.blockNumber ∧
      block.transactions = item.transactions) node (writeData node data completed latestOk) := by
  have written : Stores _ node { node with db := data.foldl putData node.db } :=
    ⟨wrote_data data keyed, rfl, rfl⟩
  unfold writeData
  cases data with
  | nil => exact written
  | cons first rest =>
    cases completed with
    | false => exact written
    | true =>
      change Stores _ node (noteWritten _ latestOk _)
      unfold noteWritten
      split
      · exact stores_updateLatestBlockMonotonic written latestOk _
      · exact ⟨written.wrote, rfl, rfl⟩

end

/-! ## The live path -/

/-- What a live block has to meet: its hash fixes its transactions, and if it is
the next one after the anchor, then the anchor is not the largest number and the
block has the unapplied transactions of a block that is already stored there. -/
structure LiveFits (contents : Hash → List Hash) (node : Node) (block : ZKBlock) : Prop where
  content : txHashes block = contents block.blockHash
  next : block.blockNumber = node.anchor + 1 → node.anchor < block.blockNumber
  stored : block.blockNumber = node.anchor + 1 → ∀ other,
    node.db.blocks block.blockNumber = some other →
    ∀ hash ∈ txHashes other, hash ∈ txHashes block ∨ node.db.txApplied hash = true

section

variable {contents : Hash → List Hash} {node : Node} {block : ZKBlock}
  (inv : NodeInv contents node) (fits : LiveFits contents node block)
  {env : BlockProcessing.Env} {result : BlockProcessing.BlockResult}
  (call : Processes env block node.db result db)
include inv fits call

theorem applied_of_live (done : result = .nil) : Applied db block := by
  intro hash listed
  rcases call.marked done with before | marked
  · exact call.kept hash (inv.marked _ before hash (fits.content ▸ listed))
  · exact marked hash listed

/-- The contiguous rule moves the anchor over the block that was just applied. -/
theorem advances_live : Advances contents node { node with db } := by
  have grows : Grows node { node with db } :=
    ⟨by grind, call.blocks, call.kept, fun _ _ _ waits => .inr waits⟩
  have keyed : Keyed db.blocks := by
    rw [call.blocks]
    exact inv.keyed
  have marked : ∀ blockHash, db.blockProcessed.isApplied blockHash = true →
      ∀ hash ∈ contents blockHash, db.txApplied hash = true := by
    intro blockHash applied hash listed
    rcases call.blockMarked blockHash applied with before | ⟨done, rfl⟩
    · exact call.kept hash (inv.marked blockHash before hash listed)
    · exact applied_of_live inv fits call done hash (fits.content ▸ listed)
  have moves : db.appliedAnchor = node.db.appliedAnchor ∨ result = .nil ∧
      block.blockNumber = node.anchor + 1 ∧ db.appliedAnchor = some block.blockNumber := by
    rcases call.anchor with same | ⟨done, written⟩
    · exact .inl same
    rcases advanceAnchor_stored env.anchorOk node.db.appliedAnchor block.blockNumber true with
      same | ⟨next, moved⟩
    · exact .inl (written.trans same)
    · exact .inr ⟨done, next, written.trans moved⟩
  rcases moves with same | ⟨done, next, moved⟩
  · have anchor : Node.anchor { node with db } = node.anchor := by simp [Node.anchor, same]
    exact ⟨grows, ⟨keyed, marked, by rw [same]; exact inv.unset,
      by rw [anchor]; exact inv.covered.grow grows⟩, by grind⟩
  have anchor : Node.anchor { node with db } = block.blockNumber := by simp [Node.anchor, moved]
  have higher := fits.next next
  refine ⟨grows, ⟨keyed, marked, by simp [moved], ?_⟩, by grind⟩
  intro number other above below stored
  rw [anchor] at below
  by_cases earlier : number ≤ node.anchor
  · exact inv.covered.grow grows number other above earlier stored
  have last : number = block.blockNumber := by grind
  subst last
  intro hash listed
  rcases fits.stored next other (by rw [← call.blocks]; exact stored) hash listed with
    carried | before
  · exact applied_of_live inv fits call done hash carried
  · exact call.kept hash before

end

end Jmdn.FastsyncV2
