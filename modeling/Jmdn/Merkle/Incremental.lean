import Jmdn.Merkle.Fingerprint

/-!
# Incremental fingerprints against rebuilds

Runs of calls of `Fingerprinter.compute` on a chain that changes between them.  The
cached leaves are written before the tree is built and the cached root after it, so
a call whose build fails leaves a root behind that does not belong to the leaves.
-/

namespace Jmdn.Merkle

open Config Transition

/-- What a call meets: which ranges can be read, and whether the tree is built. -/
structure Call where
  scanOk : UInt64 → UInt64 → Bool := fun _ _ => true
  builderOk : Bool := true

/-- A scan of the chain. -/
def Chain.scan (chain : Chain) (ok : UInt64 → UInt64 → Bool) (start end_ : UInt64) :
    Option (List Hash) :=
  if ok start end_ then some (chain.leaves start end_) else none

/-- A chain with its fingerprinter.  `unbuilt` is history: the last leaves that were read
have not been built into a tree. -/
structure Watched where
  chain : Chain
  cache : Fingerprinter
  unbuilt : Bool := false

/-- What happens to it. -/
inductive Event
  | changes (chain : Chain)
  | calls (call : Call)

section

variable (root : List Hash → Hash)

/-- The fingerprint a call returns. -/
def Watched.computed (state : Watched) (call : Call) : Option Result × Fingerprinter :=
  state.cache.compute root (state.chain.scan call.scanOk) call.builderOk state.chain.head

/-- One event. -/
def Watched.step : Step Watched Event := fun state event =>
  match event with
  | .changes chain => some { state with chain }
  | .calls call => some
      { chain := state.chain
        cache := (state.computed root call).2
        unbuilt :=
          match state.cache.gather (state.chain.scan call.scanOk) state.chain.head with
          | .returns _ _ => state.unbuilt
          | .leaves _ => !call.builderOk }

end

/-! ## Conditions -/

/-- The tip check can see what happened to the chain: it still has the cached leaves, or
it is shorter than they are, or another leaf stands at their head. -/
def Fingerprinter.Sees (f : Fingerprinter) (chain : Chain) : Prop :=
  f.ready = true → f.leaves = chain.leaves 0 f.head ∨ chain.head < f.head ∨
    f.leaves[f.head.toNat]? ≠ some (chain.leaf f.head)

/-- The next call returns the cached root. -/
def Fingerprinter.Serves (f : Fingerprinter) (chain : Chain) : Prop :=
  f.count.cacheUsable chain.head = true ∧ chain.head = f.head ∧
    f.leaves[f.head.toNat]? = some (chain.leaf f.head)

/-- The tip check sees every change, and the cached root is not served while its leaves
are unbuilt. -/
def Watched.Guarded (state : Watched) : Event → Prop
  | .changes chain => state.cache.Sees chain
  | .calls _ => state.unbuilt = true → ¬ state.cache.Serves state.chain

/-- The appends, rewrites of the leaf at the cached head and cuts below it, of a chain
that has the cached leaves. -/
theorem sees_of_change {f : Fingerprinter} {before after : Chain}
    (cached : f.leaves = before.leaves 0 f.head) (inside : f.head ≤ before.head)
    (change : (∀ height ≤ before.head, after.leaf height = before.leaf height) ∨
      after.leaf f.head ≠ before.leaf f.head ∨ after.head < f.head) : f.Sees after := by
  intro _
  rcases change with appended | rewritten | cut
  · left
    rw [cached, Chain.leaves, Chain.leaves]
    refine List.map_congr_left fun height mem => (appended height ?_).symm
    exact UInt64.le_trans (FastsyncV2.mem_blockNumbers_iff.mp mem).2 inside
  · right
    right
    rw [cached, before.getElem?_leaves]
    exact fun same => rewritten (Option.some.inj same).symm
  · exact .inr (.inl cut)

/-! ## One call -/

section

variable {root : List Hash → Hash} {chain : Chain} {f : Fingerprinter}
  {ok : UInt64 → UInt64 → Bool}

/-- What a call comes to before it builds the tree. -/
inductive Outcome (chain : Chain) (f : Fingerprinter) : Fingerprinter.Gathered → Prop
  | empty : chain.head = 0 → Outcome chain f (.returns (some {}) f.reset)
  | failed : Outcome chain f (.returns none f.count)
  | served : chain.head ≠ 0 → f.Serves chain → f.leaves = chain.leaves 0 chain.head →
      Outcome chain f (.returns
        (some { root := f.lastRoot, head := chain.head, total := UInt64.ofNat f.leaves.length })
        f.count)
  | read {read : Fingerprinter} : chain.head ≠ 0 → read.ready = true → read.head = chain.head →
      read.leaves = chain.leaves 0 chain.head → Outcome chain f (.leaves read)

theorem fullScan_outcome (some_ : chain.head ≠ 0) :
    Outcome chain f (f.count.fullScan (chain.scan ok) chain.head) := by
  rw [Fingerprinter.fullScan, Chain.scan]
  cases ok 0 chain.head with
  | false => exact Outcome.failed
  | true => exact Outcome.read some_ rfl rfl rfl

theorem tipUnchanged_iff :
    f.count.tipUnchanged [chain.leaf f.head] = true ↔
      f.leaves[f.head.toNat]? = some (chain.leaf f.head) := by
  rw [Fingerprinter.tipUnchanged, List.length_singleton, beq_self_eq_true, Bool.true_and,
    beq_iff_eq, List.head?_cons]
  exact eq_comm

theorem gather_outcome (sees : f.Sees chain) :
    Outcome chain f (f.gather (chain.scan ok) chain.head) := by
  have fields : f.count.head = f.head := rfl
  unfold Fingerprinter.gather
  split
  · exact Outcome.empty ‹_›
  next empty =>
  dsimp only
  split
  swap
  · exact fullScan_outcome empty
  next usable =>
  rw [fields, Chain.scan]
  cases ok f.head f.head with
  | false => exact Outcome.failed
  | true =>
    rw [if_pos rfl, chain.leaves_self]
    dsimp only
    by_cases unchanged : f.leaves[f.head.toNat]? = some (chain.leaf f.head)
    swap
    · rw [if_neg (mt tipUnchanged_iff.mp unchanged)]
      exact fullScan_outcome empty
    rw [if_pos (tipUnchanged_iff.mpr unchanged)]
    have conditions := usable
    simp only [Fingerprinter.cacheUsable, Bool.and_eq_true, decide_eq_true_eq] at conditions
    obtain ⟨⟨⟨ready, -⟩, reaches⟩, -⟩ := conditions
    have cached : f.leaves = chain.leaves 0 f.head := by
      rcases sees ready with same | shorter | different
      · exact same
      · exact absurd reaches (UInt64.not_le.mpr shorter)
      · exact absurd unchanged different
    split_ifs with still
    · have served := @Outcome.served chain f empty ⟨usable, still, unchanged⟩ (still ▸ cached)
      rw [still] at served
      exact served
    · rw [Chain.scan]
      cases ok (f.head + 1) chain.head with
      | false => exact Outcome.failed
      | true =>
        have below : f.head < chain.head :=
          UInt64.lt_of_le_of_ne reaches fun same => still same.symm
        refine Outcome.read empty ready rfl ?_
        have appended : f.leaves ++ chain.leaves (f.head + 1) chain.head =
            chain.leaves 0 chain.head := by
          rw [cached, chain.leaves_append below]
        exact appended

theorem finalize_eq (builderOk : Bool) (head : UInt64) :
    f.finalize root builderOk head =
      if builderOk then
        (some { root := root f.leaves, head, total := UInt64.ofNat f.leaves.length },
          { f with lastRoot := root f.leaves })
      else (none, f) := by
  rw [Fingerprinter.finalize, rootFromLeaves, buildTree, flatMap_pushes]
  cases builderOk <;> rfl

theorem total_eq : UInt64.ofNat (chain.leaves 0 chain.head).length = chain.head + 1 := by
  rw [chain.length_leaves, UInt64.toNat_zero, Nat.sub_zero, UInt64.ofNat_add, UInt64.ofNat_toNat]
  rfl

theorem rebuild_eq (some_ : chain.head ≠ 0) {leaves : List Hash}
    (all : leaves = chain.leaves 0 chain.head) :
    rebuild root chain =
      { root := root leaves, head := chain.head, total := UInt64.ofNat leaves.length } := by
  rw [rebuild, if_neg some_, all, total_eq]

end

/-! ## Runs -/

section

variable {root : List Hash → Hash} {state : Watched} {call : Call}

/-- The tip check sees the chain, and the cached root belongs to the cached leaves once
they are built. -/
structure Kept (root : List Hash → Hash) (state : Watched) : Prop where
  sees : state.cache.Sees state.chain
  built : state.cache.ready = true → state.unbuilt = false →
    state.cache.lastRoot = root state.cache.leaves

theorem kept_start (chain : Chain) (fullRebuildEvery : Int) :
    Kept root { chain, cache := { fullRebuildEvery } } where
  sees := by
    rintro ⟨⟩
  built := by
    rintro ⟨⟩

/-- A call that returns no error returns the result of a rebuild. -/
theorem Kept.computed_eq (kept : Kept root state) (guarded : state.Guarded (.calls call))
    {result : Result} (returned : (state.computed root call).1 = some result) :
    result = rebuild root state.chain := by
  have outcome := @gather_outcome state.chain state.cache call.scanOk kept.sees
  unfold Watched.computed Fingerprinter.compute at returned
  generalize state.cache.gather (state.chain.scan call.scanOk) state.chain.head = gathered
    at outcome returned
  cases outcome with
  | empty none_ =>
    rw [← Option.some.inj returned, rebuild, if_pos none_]
  | failed => cases returned
  | served some_ serves all =>
    have ready : state.cache.ready = true := by
      have conditions := serves.1
      simp only [Fingerprinter.cacheUsable, Bool.and_eq_true] at conditions
      exact conditions.1.1.1
    have built : state.unbuilt = false := by
      rw [← Bool.not_eq_true]
      exact fun unbuilt => guarded unbuilt serves
    rw [← Option.some.inj returned, rebuild_eq some_ all, kept.built ready built]
  | read some_ ready head all =>
    dsimp only at returned
    rw [finalize_eq] at returned
    cases builds : call.builderOk with
    | false =>
      rw [builds] at returned
      cases returned
    | true =>
      rw [builds] at returned
      rw [← Option.some.inj returned, rebuild_eq some_ all]

theorem Kept.after_call (kept : Kept root state) {after : Watched}
    (taken : Watched.step root state (.calls call) = some after) : Kept root after := by
  have outcome := @gather_outcome state.chain state.cache call.scanOk kept.sees
  unfold Watched.step Watched.computed Fingerprinter.compute at taken
  dsimp only at taken
  rw [← Option.some.inj taken]
  clear taken
  generalize state.cache.gather (state.chain.scan call.scanOk) state.chain.head = gathered
    at outcome
  cases outcome with
  | empty _ => exact ⟨by rintro ⟨⟩, by rintro ⟨⟩⟩
  | failed => exact ⟨kept.sees, kept.built⟩
  | served _ _ _ => exact ⟨kept.sees, kept.built⟩
  | read some_ ready head all =>
    have sees : ∀ f : Fingerprinter, f.head = state.chain.head →
        f.leaves = state.chain.leaves 0 state.chain.head → f.Sees state.chain := by
      intro f same leaves _
      left
      rw [same, leaves]
    dsimp only
    rw [finalize_eq]
    cases builds : call.builderOk with
    | false =>
      refine ⟨sees _ head all, ?_⟩
      rintro - ⟨⟩
    | true => exact ⟨sees _ head all, fun _ _ => rfl⟩

/-- In every run in which the tip check sees each change of the chain and the cached
root is not asked for while its leaves are unbuilt, a call that returns no error returns
what a rebuild over the chain gives, whatever calls failed before. -/
theorem incremental_matches_rebuild {chain : Chain} {fullRebuildEvery : Int} {events : List Event}
    (runs : Runs (Watched.step root) Watched.Guarded
      { chain, cache := { fullRebuildEvery } } events state)
    (guarded : state.Guarded (.calls call)) {result : Result}
    (returned : (state.computed root call).1 = some result) :
    result = rebuild root state.chain := by
  refine Kept.computed_eq ?_ guarded returned
  refine runs.invariant (kept_start chain fullRebuildEvery) ?_
  intro before event after kept condition taken
  cases event with
  | changes chain =>
    cases taken
    exact ⟨condition, kept.built⟩
  | calls call => exact kept.after_call taken

end

/-! ## A failed build and a tip that comes back -/

/-- The chain with the given leaves. -/
def listed (leaves : List Nat) : Chain where
  leaf height := BitVec.ofNat 256 (leaves.getD height.toNat 0)
  head := UInt64.ofNat (leaves.length - 1)

/-- A root that tells the leaves: they are its decimal digits. -/
def digits (leaves : List Hash) : Hash :=
  leaves.foldl (fun number leaf => 10 * number + leaf) 0

/-- A fingerprinter with the default cadence before its first call. -/
def cold (chain : Chain) : Watched :=
  { chain, cache := { fullRebuildEvery := 20 } }

/-- A test of the conditions for the changes that append. -/
def guardedTest (state : Watched) : Event → Bool
  | .changes chain => state.cache.leaves == chain.leaves 0 state.cache.head
  | .calls _ => !state.unbuilt

theorem guarded_of_test (state : Watched) (event : Event)
    (passed : guardedTest state event = true) : state.Guarded event := by
  cases event with
  | changes chain => exact fun _ => Or.inl (beq_iff_eq.mp passed)
  | calls call =>
    intro unbuilt
    rw [guardedTest, unbuilt] at passed
    cases passed

/-- An appended block before a call that folds it in. -/
def appended : Watched where
  chain := listed [5, 6, 7]
  cache :=
    { leaves := [5, 6], head := 1, ready := true, lastRoot := 56, sinceFullRebuild := 1,
      fullRebuildEvery := 20 }

/-- An appended block is folded in after a call whose scan failed. -/
theorem appended_block_recomputed :
    (appended.computed digits {}).1 = some { root := 567, head := 2, total := 3 } ∧
      { root := 567, head := 2, total := 3 } = rebuild digits appended.chain := by
  have runs : Runs (Watched.step digits) Watched.Guarded (cold (listed [5, 6]))
      [.calls {}, .changes (listed [5, 6, 7]), .calls { scanOk := fun _ _ => false }] appended :=
    runs_of_runIf guarded_of_test rfl
  have returned : (appended.computed digits {}).1 =
      some { root := 567, head := 2, total := 3 } := by
    decide +kernel
  have guarded : Watched.Guarded appended (.calls {}) := guarded_of_test appended (.calls {}) rfl
  exact ⟨returned, incremental_matches_rebuild runs guarded returned⟩

/-- A block is appended and the build of its tree fails: the next call returns the root
of the shorter chain with the new head.  A rewrite that is followed by a failed scan and
a second one that brings the cached head's leaf back: the next call returns the root of
the first chain. -/
theorem failed_build_leaves_stale_root :
    (∃ state, run (Watched.step digits) (cold (listed [5, 6]))
        [.calls {}, .changes (listed [5, 6, 7]), .calls { builderOk := false }] = some state ∧
      (state.computed digits {}).1 = some { root := 56, head := 2, total := 3 } ∧
      rebuild digits state.chain = { root := 567, head := 2, total := 3 }) ∧
    ∃ state, run (Watched.step digits) (cold (listed [5, 6, 7]))
        [.calls {}, .changes (listed [5, 8, 9]), .calls { scanOk := fun _ _ => false },
          .changes (listed [5, 8, 7])] = some state ∧
      (state.computed digits {}).1 = some { root := 567, head := 2, total := 3 } ∧
      rebuild digits state.chain = { root := 587, head := 2, total := 3 } :=
  ⟨⟨_, rfl, by decide +kernel, by decide +kernel⟩, ⟨_, rfl, by decide +kernel, by decide +kernel⟩⟩

end Jmdn.Merkle
