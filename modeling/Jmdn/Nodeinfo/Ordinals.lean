import Jmdn.BlockProcessing.OrdinalFloor
import Jmdn.DBOPs.ArtOrdinal
import Jmdn.FastsyncV2.Runs
import Jmdn.Nodeinfo.Transport

/-!
# Identity ordinals over the history of a chain

Nodes take turns as the sequencer of one chain.  A node that has all blocks up to
the tip enriches a block on its own database; the chain takes one of the blocks
that were enriched at its height.  Every node obtains the blocks in any order,
each by live application or by sync.  A block is kept with the ordinals that were
handed out for it.
-/

namespace Jmdn.Nodeinfo

open BlockProcessing Config DBOPs FastsyncV2 Go Transition

variable {latestOk : Bool} {block : ZKBlock} {node : Node}

/-- How a node came by a block: applied live, found marked as processed by a live
delivery, or synced. -/
inductive Delivery where
  | live
  | marked
  | sync
  deriving DecidableEq, Repr

/-- A node with the blocks of the chain it has, by their place. -/
structure Peer where
  node : Node
  counted : readARTOrdinalNext node.db ≤ artOrdinalMax
  obtained : Nat → Option Delivery := fun _ => none

/-- A block as the sequencer stamped it, with the ordinals it assigns. -/
structure Sealed where
  block : ZKBlock
  fresh : List AccountNonce

/-- The chain, the blocks enriched so far with the height they were built on, and
all nodes. -/
structure History where
  chain : List Sealed := []
  drafts : List (Nat × Sealed) := []
  peers : Nat → Peer

inductive HistoryAction where
  | enrich (peer : Nat) (env : EnrichEnv) (block : ZKBlock)
  | adopt (draft : Nat)
  | live (peer index : Nat) (env : BlockProcessing.Env) (order : MapOrder Address)
      (storeOk latestOk : Bool)
  | sync (peer index : Nat) (env : ReconEnv) (latestOk : Bool)

/-- A live application is kept in memory of the node whatever comes later. -/
def noteDelivery (obtained : Nat → Option Delivery) (index : Nat) (delivery : Delivery) :
    Nat → Option Delivery :=
  Function.update obtained index
    (if delivery = .live then some .live else (obtained index).or (some delivery))

/-- A synced block: header and data are written, then its effects applied. -/
def syncNode (env : ReconEnv) (latestOk : Bool) (block : ZKBlock) (node : Node) :
    Except ReconError Unit × Node :=
  let written := syncBlock latestOk block node
  let outcome := applyBlockRecon env block.blockNumber (some block.blockHash) written.db
  (outcome.1, { written with db := outcome.2 })

/-! ## The counter of a node -/

theorem applyLive_artOrdinalNext (env : BlockProcessing.Env) (order : MapOrder Address)
    (block : ZKBlock) (storeOk latestOk : Bool) (node : Node) :
    (applyLive env order block storeOk latestOk node).db.artOrdinalNext =
      (processBlockTransactions env order block node.db).2.artOrdinalNext := by
  unfold applyLive
  dsimp only
  split
  · cases latestOk <;> rfl
  · rfl

theorem syncNode_artOrdinalNext (env : ReconEnv) (latestOk : Bool) (block : ZKBlock)
    (node : Node) :
    (syncNode env latestOk block node).2.db.artOrdinalNext = node.db.artOrdinalNext := by
  unfold syncNode
  dsimp only
  rw [(applyBlockRecon_onlyMarks _ _ _ _).others]
  unfold syncBlock writeData
  dsimp only [List.foldl_cons, List.foldl_nil]
  rw [if_pos rfl]
  unfold noteWritten
  split
  · cases latestOk <;> rfl
  · rfl

theorem applyLive_counted {env : BlockProcessing.Env} {order : MapOrder Address} {storeOk : Bool}
    (counted : readARTOrdinalNext node.db ≤ artOrdinalMax) :
    readARTOrdinalNext (applyLive env order block storeOk latestOk node).db ≤ artOrdinalMax := by
  rw [readARTOrdinalNext_congr
    (applyLive_artOrdinalNext env order block storeOk latestOk node)]
  cases marked : node.db.blockProcessed.isApplied block.blockHash with
  | true =>
    rw [readARTOrdinalNext_congr
      (processBlockTransactions_artOrdinalNext_marked marked)]
    exact counted
  | false =>
    rw [readARTOrdinalNext_congr
      (processBlockTransactions_artOrdinalNext marked)]
    unfold bumpCarriedOrdinals
    split
    · exact bumpARTOrdinalFloor_counted env.ordinalOk _ counted
    · exact counted

theorem syncNode_counted {env : ReconEnv} (counted : readARTOrdinalNext node.db ≤ artOrdinalMax) :
    readARTOrdinalNext (syncNode env latestOk block node).2.db ≤ artOrdinalMax := by
  rw [readARTOrdinalNext_congr (syncNode_artOrdinalNext env latestOk block node)]
  exact counted

/-! ## Steps -/

namespace Peer

/-- The next ordinal of the node. -/
def counter (peer : Peer) : UInt64 :=
  readARTOrdinalNext peer.node.db

/-- The node as the sequencer of the next block. -/
def sequencer (peer : Peer) : Sequencer where
  db := peer.node.db
  counted := peer.counted

/-- The node has the first `height` blocks of the chain. -/
def upTo (peer : Peer) (height : Nat) : Bool :=
  (List.range height).all fun index => (peer.obtained index).isSome

/-- The node after an enrichment. -/
def reserve (peer : Peer) (after : Sequencer) : Peer where
  node := { peer.node with db := after.db }
  counted := after.counted
  obtained := peer.obtained

/-- How a live delivery goes: a block that is marked is not looked at. -/
def liveDelivery (peer : Peer) (block : ZKBlock) : Delivery :=
  if peer.node.db.blockProcessed.isApplied block.blockHash then .marked else .live

/-- Apply the block at a place of the chain live.  The node has the block when
the call returns no error. -/
def applyLive (peer : Peer) (index : Nat) (block : ZKBlock) (env : BlockProcessing.Env)
    (order : MapOrder Address) (storeOk latestOk : Bool) : Peer where
  node := FastsyncV2.applyLive env order block storeOk latestOk peer.node
  counted := applyLive_counted peer.counted
  obtained :=
    if (processBlockTransactions env order block peer.node.db).1 = .nil then
      noteDelivery peer.obtained index (peer.liveDelivery block)
    else peer.obtained

/-- Sync the block at a place of the chain. -/
def applySync (peer : Peer) (index : Nat) (block : ZKBlock) (env : ReconEnv)
    (latestOk : Bool) : Peer where
  node := (syncNode env latestOk block peer.node).2
  counted := syncNode_counted peer.counted
  obtained :=
    match (syncNode env latestOk block peer.node).1 with
    | .ok () => noteDelivery peer.obtained index .sync
    | .error _ => peer.obtained

end Peer

namespace History

/-- Change one node. -/
def setPeer (history : History) (id : Nat) (peer : Peer) : History :=
  { history with peers := Function.update history.peers id peer }

/-- `EnrichBlockAccountNonces` on a node; an error leaves everything as it was. -/
def enrich (history : History) (id : Nat) (env : EnrichEnv) (block : ZKBlock) : History :=
  match enrichBlockAccountNonces env (history.peers id).sequencer block with
  | .error _ => history
  | .ok (stamped, after) =>
    { history.setPeer id ((history.peers id).reserve after) with
      drafts := history.drafts ++ [(history.chain.length,
        { block := stamped
          fresh := freshOrdinals (history.peers id).node.db.accounts stamped })] }

end History

/-- One step of the history.  Database calls succeed, so the floor is written. -/
def historyStep : Step History HistoryAction := fun history action =>
  match action with
  | .enrich id env block =>
    if (history.peers id).upTo history.chain.length then some (history.enrich id env block)
    else none
  | .adopt draft => do
      let candidate ← history.drafts[draft]?
      if candidate.1 = history.chain.length then
        some { history with chain := history.chain ++ [candidate.2] }
      else none
  | .live id index env order storeOk latestOk => do
      let sealedBlock ← history.chain[index]?
      if env.ordinalOk then
        some (history.setPeer id ((history.peers id).applyLive index sealedBlock.block env order
          storeOk latestOk))
      else none
  | .sync id index env latestOk => do
      let sealedBlock ← history.chain[index]?
      some (history.setPeer id ((history.peers id).applySync index sealedBlock.block env latestOk))

end Jmdn.Nodeinfo
