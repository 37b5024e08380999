import Jmdn.Nodeinfo.BatchLoop

/-!
# The fingerprint of the stored chain

`internal/merkle`: the root over the leaves of all heights, built from scratch by
`BuildLocalMerkleRoot` and incrementally by `Fingerprinter`, which caches the leaves
and the last root.  The tree library is a function `root` of the ordered leaves
whose calls may fail.
-/

namespace Jmdn.Merkle

open Config DBOPs FastsyncV2 List Nodeinfo Transition

/-- `Result`. -/
structure Result where
  root : Hash := 0
  head : UInt64 := 0
  total : UInt64 := 0
  deriving DecidableEq, Repr

/-! ## The chain -/

/-- What a fingerprint reads: a leaf for every height, and the head. -/
structure Chain where
  leaf : UInt64 → Hash
  head : UInt64

/-- The leaves of a range of heights. -/
def Chain.leaves (chain : Chain) (start end_ : UInt64) : List Hash :=
  (blockNumbers start end_).map chain.leaf

theorem Chain.length_leaves (chain : Chain) (start end_ : UInt64) :
    (chain.leaves start end_).length = end_.toNat + 1 - start.toNat := by
  rw [leaves, length_map, length_blockNumbers]

theorem Chain.leaves_self (chain : Chain) (height : UInt64) :
    chain.leaves height height = [chain.leaf height] := by
  rw [leaves, blockNumbers_self, map_singleton]

theorem Chain.leaves_append (chain : Chain) {middle end_ : UInt64} (below : middle < end_) :
    chain.leaves 0 middle ++ chain.leaves (middle + 1) end_ = chain.leaves 0 end_ := by
  rw [leaves, leaves, leaves, ← map_append,
    ← blockNumbers_append (UInt64.le_iff_toNat_le.mpr (Nat.zero_le _)) below]

theorem Chain.getElem?_leaves (chain : Chain) (height : UInt64) :
    (chain.leaves 0 height)[height.toNat]? = some (chain.leaf height) := by
  have last : (blockNumbers 0 height)[height.toNat]? = some height := by
    rw [blockNumbers, List.getElem?_map, List.getElem?_range (by simp)]
    simp
  rw [leaves, List.getElem?_map, last, Option.map_some]

/-- The leaf of a position: the zero hash for a gap. -/
def positionLeaf (sha256 : List UInt8 → Hash) (position : Option ZKBlock) : Hash :=
  position.elim 0 (hashBlock sha256)

/-- The chain that a node has stored. -/
def chainOf (sha256 : List UInt8 → Hash) (store : BlockStore) (head : UInt64) : Chain where
  leaf height := (store.blocks height).elim 0 (leaf sha256)
  head := head

theorem map_positionLeaf (sha256 : List UInt8 → Hash) (store : BlockStore)
    (head start end_ : UInt64) :
    (store.positions start end_).map (positionLeaf sha256) =
      (chainOf sha256 store head).leaves start end_ := by
  rw [BlockStore.positions, map_map, Chain.leaves]
  refine map_congr_left fun height _ => ?_
  simp only [Function.comp_apply, positionLeaf, chainOf]
  cases store.blocks height <;> rfl

/-- The result of a rebuild over the whole chain. -/
def rebuild (root : List Hash → Hash) (chain : Chain) : Result :=
  if chain.head = 0 then {}
  else { root := root (chain.leaves 0 chain.head), head := chain.head, total := chain.head + 1 }

/-! ## Reading and building -/

/-- `defaultBatchSize`. -/
def defaultBatchSize : Nat := 1000

/-- The pushes of `rootFromLeaves`: batches of the leaves with their first height. -/
def pushes (leaves : List Hash) : List (UInt64 × List Hash) :=
  (chunks defaultBatchSize leaves).zipIdx.map fun chunk =>
    (UInt64.ofNat (chunk.2 * defaultBatchSize), chunk.1)

/-- The tree over what has been pushed, if no call of the library fails. -/
def buildTree (root : List Hash → Hash) (ok : Bool) (pushed : List (UInt64 × List Hash)) :
    Option Hash :=
  if ok then some (root (pushed.flatMap Prod.snd)) else none

/-- `rootFromLeaves`. -/
def rootFromLeaves (root : List Hash → Hash) (ok : Bool) (leaves : List Hash) : Option Hash :=
  buildTree root ok (pushes leaves)

theorem flatMap_pushes (leaves : List Hash) : (pushes leaves).flatMap Prod.snd = leaves := by
  have chunked : (pushes leaves).map Prod.snd = chunks defaultBatchSize leaves := by
    rw [pushes, map_map]
    exact zipIdx_map_fst 0 _
  rw [flatMap_def, chunked, flatten_chunks (by decide)]

/-- `scanLeaves` returns the given leaves or, without, an error. -/
def ScanLeaves (sha256 : List UInt8 → Hash) (store : BlockStore) (env : ScanCalls)
    (start end_ : UInt64) (result : Option (List Hash)) : Prop :=
  ∃ calls, Returns (batchRound store.blocks env fun leaves batch =>
      leaves ++ batch.map (positionLeaf sha256))
    { iter := newBlockIterator start end_ 1000, acc := [] } (result, calls)

/-- The body of the loop of `BuildLocalMerkleRoot`: the number of blocks processed, and
what has been pushed. -/
def pushBatch (sha256 : List UInt8 → Hash) (state : UInt64 × List (UInt64 × List Hash))
    (batch : List (Option ZKBlock)) : UInt64 × List (UInt64 × List Hash) :=
  (state.1 + UInt64.ofNat batch.length,
    state.2 ++ [(state.1, batch.map (positionLeaf sha256))])

/-- `BuildLocalMerkleRoot` returns the given result or, without, an error. -/
def BuildLocalMerkleRoot (sha256 : List UInt8 → Hash) (root : List Hash → Hash)
    (store : BlockStore) (head : UInt64) (env : ScanCalls) (builderOk : Bool)
    (result : Option Result) : Prop :=
  if head = 0 then result = some {}
  else ∃ built calls, Returns (batchRound store.blocks env (pushBatch sha256))
      { iter := newBlockIterator 0 head 1000, acc := (0, []) } (built, calls) ∧
    result = built.bind fun state =>
      (buildTree root builderOk state.2).map fun root => { root, head, total := state.1 }

/-! ## The incremental fingerprint -/

/-- `Fingerprinter`, without its lifetime counters. -/
structure Fingerprinter where
  leaves : List Hash := []
  head : UInt64 := 0
  ready : Bool := false
  lastRoot : Hash := 0
  sinceFullRebuild : Int := 0
  fullRebuildEvery : Int := 0

namespace Fingerprinter

/-- `reset`. -/
def reset (f : Fingerprinter) : Fingerprinter :=
  { fullRebuildEvery := f.fullRebuildEvery }

/-- The counter that every call advances. -/
def count (f : Fingerprinter) : Fingerprinter :=
  { f with sinceFullRebuild := f.sinceFullRebuild + 1 }

/-- `forceFull`. -/
def forceFull (f : Fingerprinter) : Bool :=
  f.fullRebuildEvery > 0 && f.sinceFullRebuild ≥ f.fullRebuildEvery

/-- `cacheUsable`. -/
def cacheUsable (f : Fingerprinter) (head : UInt64) : Bool :=
  f.ready && !f.forceFull && head ≥ f.head && UInt64.ofNat f.leaves.length == f.head + 1

/-- The comparison of the head's leaf with the cached one. -/
def tipUnchanged (f : Fingerprinter) (tip : List Hash) : Bool :=
  tip.length == 1 && tip.head? == f.leaves[f.head.toNat]?

/-- What a call comes to before it builds the tree: a return, or leaves to build from. -/
inductive Gathered
  | returns (result : Option Result) (f : Fingerprinter)
  | leaves (f : Fingerprinter)

/-- `fullScan`. -/
def fullScan (scan : UInt64 → UInt64 → Option (List Hash)) (head : UInt64) (f : Fingerprinter) :
    Gathered :=
  match scan 0 head with
  | none => .returns none f
  | some leaves => .leaves { f with leaves, head, ready := true, sinceFullRebuild := 0 }

/-- `compute` up to `finalize`. -/
def gather (scan : UInt64 → UInt64 → Option (List Hash)) (head : UInt64) (f : Fingerprinter) :
    Gathered :=
  if head = 0 then .returns (some {}) f.reset
  else
    let f := f.count
    if f.cacheUsable head then
      match scan f.head f.head with
      | none => .returns none f
      | some tip =>
        if f.tipUnchanged tip then
          if head = f.head then
            .returns (some { root := f.lastRoot, head := f.head,
                             total := UInt64.ofNat f.leaves.length }) f
          else
            match scan (f.head + 1) head with
            | none => .returns none f
            | some newLeaves => .leaves { f with leaves := f.leaves ++ newLeaves, head }
        -- a rewrite at or below the cached head
        else f.fullScan scan head
    else f.fullScan scan head

/-- `finalize`: the cached root is written only when the tree was built. -/
def finalize (root : List Hash → Hash) (builderOk : Bool) (head : UInt64) (f : Fingerprinter) :
    Option Result × Fingerprinter :=
  match rootFromLeaves root builderOk f.leaves with
  | none => (none, f)
  | some built =>
    (some { root := built, head, total := UInt64.ofNat f.leaves.length },
      { f with lastRoot := built })

/-- `compute`. -/
def compute (root : List Hash → Hash) (scan : UInt64 → UInt64 → Option (List Hash))
    (builderOk : Bool) (head : UInt64) (f : Fingerprinter) : Option Result × Fingerprinter :=
  match f.gather scan head with
  | .returns result f => (result, f)
  | .leaves f => f.finalize root builderOk head

end Fingerprinter

/-! ## What the scans and the rebuild return -/

section

variable {sha256 : List UInt8 → Hash} {store : BlockStore} {env : ScanCalls} {head : UInt64}

theorem foldl_leaves (batches : List (List (Option ZKBlock))) (leaves : List Hash) :
    batches.foldl (fun leaves batch => leaves ++ batch.map (positionLeaf sha256)) leaves =
      leaves ++ batches.flatten.map (positionLeaf sha256) := by
  induction batches generalizing leaves with
  | nil => simp
  | cons batch rest ih =>
    rw [foldl_cons, ih, flatten_cons, map_append, append_assoc]

theorem foldl_pushBatch (batches : List (List (Option ZKBlock)))
    (state : UInt64 × List (UInt64 × List Hash)) :
    (batches.foldl (pushBatch sha256) state).1 =
        state.1 + UInt64.ofNat batches.flatten.length ∧
      (batches.foldl (pushBatch sha256) state).2.flatMap Prod.snd =
        state.2.flatMap Prod.snd ++ batches.flatten.map (positionLeaf sha256) := by
  induction batches generalizing state with
  | nil => simp
  | cons batch rest ih =>
    obtain ⟨processed, pushed⟩ := ih (pushBatch sha256 state batch)
    rw [foldl_cons, processed, pushed, flatten_cons, length_append,
      UInt64.ofNat_add, map_append]
    refine ⟨UInt64.add_assoc _ _ _, ?_⟩
    rw [pushBatch, flatMap_append, flatMap_singleton, append_assoc]

/-- What a loop over a range with batches of 1000 has gathered when it returns. -/
theorem gathered_eq {σ : Type} {body : σ → List (Option ZKBlock) → σ} {acc gathered : σ}
    {start end_ : UInt64} (ordered : start ≤ end_) {calls : Nat}
    (returns : Returns (batchRound store.blocks env body)
      { iter := newBlockIterator start end_ 1000, acc } (some gathered, calls)) :
    ∃ batches : List (List (Option ZKBlock)), batches.flatten = store.positions start end_ ∧
      gathered = batches.foldl body acc := by
  have pos : (1 : Int64) ≤ 1000 := by decide
  obtain ⟨least, -⟩ := toNat_batchsize pos
  have answered := returns_answering returns
  rw [returns_batchLoop_iff ⟨fun _ => rfl, fun _ => rfl⟩ pos ordered] at answered
  split at answered
  · cases answered
  · obtain ⟨-, result⟩ := answered
    exact ⟨_, store.flatten_batches least ordered, Option.some.inj (Prod.mk.inj result).1⟩

/-- A scan that returns no error returns the leaves of its range. -/
theorem scanLeaves_eq {start end_ : UInt64} (ordered : start ≤ end_) {leaves : List Hash}
    (scanned : ScanLeaves sha256 store env start end_ (some leaves)) :
    leaves = (chainOf sha256 store head).leaves start end_ := by
  obtain ⟨calls, returns⟩ := scanned
  obtain ⟨batches, whole, rfl⟩ := gathered_eq ordered returns
  rw [foldl_leaves, nil_append, whole, map_positionLeaf sha256 store head]

/-- A rebuild that returns no error returns the root, head and total of the chain. -/
theorem buildLocalMerkleRoot_eq {root : List Hash → Hash} {builderOk : Bool} {result : Result}
    (built : BuildLocalMerkleRoot sha256 root store head env builderOk (some result)) :
    result = rebuild root (chainOf sha256 store head) := by
  have headOf : (chainOf sha256 store head).head = head := rfl
  rw [rebuild, headOf]
  unfold BuildLocalMerkleRoot at built
  split_ifs at built ⊢
  · exact Option.some.inj built
  obtain ⟨gathered, calls, returns, bound⟩ := built
  obtain ⟨state, rfl, tree⟩ := Option.bind_eq_some_iff.mp bound.symm
  obtain ⟨batches, whole, rfl⟩ := gathered_eq (UInt64.le_iff_toNat_le.mpr (Nat.zero_le _)) returns
  obtain ⟨processed, pushed⟩ := @foldl_pushBatch sha256 batches (0, [])
  rw [buildTree] at tree
  split at tree
  · rw [Option.map_some, pushed, processed, whole, map_positionLeaf sha256 store head,
      length_positions, flatMap_nil, nil_append, UInt64.zero_add] at tree
    rw [← Option.some.inj tree, UInt64.toNat_zero, Nat.sub_zero, UInt64.ofNat_add,
      UInt64.ofNat_toNat]
    rfl
  · cases tree

/-- Where no call fails and the last batch has room, a rebuild returns the root, head and
total of the stored chain and nothing else. -/
theorem buildLocalMerkleRoot_iff (root : List Hash → Hash) (result : Result)
    (answers : env.Answers) (room : head.toNat + 1000 ≤ 2 ^ 64) :
    BuildLocalMerkleRoot sha256 root store head env true (some result) ↔
      result = rebuild root (chainOf sha256 store head) := by
  have returns : ∃ built, BuildLocalMerkleRoot sha256 root store head env true (some built) := by
    unfold BuildLocalMerkleRoot
    split
    · exact ⟨_, rfl⟩
    have first : 0 ≤ head := UInt64.le_iff_toNat_le.mpr (Nat.zero_le _)
    have last := (@lastWindow_spec 0 head (1000 : Int64).toUInt64 (by decide) first).lower
    have size : (1000 : Int64).toUInt64.toNat = 1000 := by decide
    have fits : ¬2 ^ 64 < (lastWindow 0 head (1000 : Int64).toUInt64).toNat +
        (1000 : Int64).toUInt64.toNat := by
      rw [UInt64.le_iff_toNat_le] at last
      omega
    have loop := @returns_batchLoop_iff _ store env answers (pushBatch sha256) (0, []) 0 head 1000
      (by decide) first
    simp only [if_neg fits] at loop
    exact ⟨_, _, _, loop.mpr ⟨by omega, rfl⟩, rfl⟩
  obtain ⟨built, returned⟩ := returns
  refine ⟨buildLocalMerkleRoot_eq, ?_⟩
  rintro rfl
  rwa [← buildLocalMerkleRoot_eq returned]

/-- A rebuild over a chain with gaps. -/
theorem buildLocalMerkleRoot_gaps :
    BuildLocalMerkleRoot (fun _ => 7) (·.headD 0) oneBlock 2 {} true
      (some (rebuild (·.headD 0) (chainOf (fun _ => 7) oneBlock 2))) :=
  (buildLocalMerkleRoot_iff _ _ ⟨fun _ => rfl, fun _ => rfl⟩ (by decide)).mpr rfl

end

end Jmdn.Merkle
