import Jmdn.Crdt.VectorClock

/-!
# Sets and counters

`applySetOp` of `MemoryStore.go` on the sets of `crdt.go`, and `Merge` of its
counters.  An operation on a set may bring a clock.  One without is stamped by the
set, above every clock it has stored, and so decides about its element.
-/

namespace Jmdn.Crdt

open VectorClock

/-- `Increment`. -/
def VectorClock.increment (vc : VectorClock) (nodeID : String) : VectorClock :=
  vc.insert nodeID (match vc.lookup nodeID with
    | some current => current + 1
    | none => 1)

abbrev Clocks := Finmap fun _ : String => VectorClock

structure LWWSet where
  adds : Clocks := ∅
  removes : Clocks := ∅
  timestamp : VectorClock := ∅

/-- The fields of an `Op` on a set. -/
structure SetOp where
  nodeID : String
  element : String
  isAdd : Bool
  ts : VectorClock := ∅

namespace LWWSet

variable {set : LWWSet} {clocks : Clocks} {bound : String → WithBot Timestamp}

/-- `applySetOp`. -/
def applySetOp (visit : RangeOrder) (set : LWWSet) (op : SetOp) : LWWSet :=
  let ts := if op.ts.keys = ∅ then set.timestamp.increment op.nodeID else op.ts
  let timestamp := merge visit set.timestamp ts
  if op.isAdd then { set with adds := set.adds.insert op.element ts, timestamp }
  else { set with removes := set.removes.insert op.element ts, timestamp }

/-- `Contains`; a removal wins on a tie. -/
def contains (visit : RangeOrder) (set : LWWSet) (element : String) : Bool :=
  match set.adds.lookup element, set.removes.lookup element with
  | none, _ => false
  | some _, none => true
  | some addTS, some rmTS => compare visit addTS rmTS > 0

/-- `GetElements`. -/
def getElements (visit : RangeOrder) (set : LWWSet) : List String :=
  ((visit.order set.adds.keys).filter (set.contains visit)).mergeSort

/-- The set after operations, each with the order its loop ran in. -/
def replay (history : List (RangeOrder × SetOp)) : LWWSet :=
  history.foldl (fun set op => applySetOp op.1 set op.2) {}

def UpTo (clocks : Clocks) (bound : String → WithBot Timestamp) : Prop :=
  ∀ element, ∀ clock ∈ clocks.lookup element, time clock ≤ bound

theorem UpTo.sup (upTo : UpTo clocks bound) (ts : VectorClock) : UpTo clocks (bound ⊔ time ts) :=
  fun element clock stored => le_sup_of_le_left (upTo element clock stored)

theorem UpTo.insert (upTo : UpTo clocks bound) (element : String) (ts : VectorClock) :
    UpTo (clocks.insert element ts) (bound ⊔ time ts) := by
  intro other clock stored
  by_cases same : other = element
  · rw [same, Finmap.lookup_insert] at stored
    cases stored
    exact le_sup_right
  · rw [Finmap.lookup_insert_of_ne _ same] at stored
    exact upTo.sup ts other clock stored

/-- The set's own clock is above those it stored. -/
structure Stamped (set : LWWSet) : Prop where
  adds : UpTo set.adds (time set.timestamp)
  removes : UpTo set.removes (time set.timestamp)

theorem Stamped.applySetOp (stamped : Stamped set) (visit : RangeOrder) (op : SetOp) :
    Stamped (applySetOp visit set op) := by
  unfold LWWSet.applySetOp
  dsimp only
  split <;> constructor <;> dsimp only <;> rw [time_merge]
  · exact stamped.adds.insert op.element _
  · exact stamped.removes.sup _
  · exact stamped.adds.sup _
  · exact stamped.removes.insert op.element _

theorem stamped_replay (history : List (RangeOrder × SetOp)) : Stamped (replay history) := by
  induction history using List.reverseRecOn with
  | nil => constructor <;> exact fun _ _ stored => nomatch stored
  | append_singleton earlier last ih =>
    rw [replay, List.foldl_append]
    exact ih.applySetOp last.1 last.2

theorem time_lt_increment {vc : VectorClock} {node : String}
    (unwrapped : ∀ count ∈ vc.lookup node, count < count + 1) :
    time vc < time (vc.increment node) := by
  have here : time vc node < time (vc.increment node) node := by
    unfold increment time
    rw [Finmap.lookup_insert]
    cases found : vc.lookup node with
    | none => exact WithBot.bot_lt_coe _
    | some count => exact WithBot.coe_lt_coe.mpr (unwrapped count found)
  refine Pi.lt_def.mpr ⟨fun other => ?_, node, here⟩
  by_cases same : other = node
  · rw [same]
    exact here.le
  · exact le_of_eq (Finmap.lookup_insert_of_ne vc same).symm

theorem mem_getElements (visit : RangeOrder) (set : LWWSet) (element : String) :
    element ∈ set.getElements visit ↔ ∃ addTS ∈ set.adds.lookup element,
      ∀ rmTS ∈ set.removes.lookup element, time rmTS < time addTS := by
  rw [getElements, List.mem_mergeSort, List.mem_filter, visit.mem_order, Finmap.mem_keys,
    ← Finmap.lookup_isSome, contains]
  cases set.adds.lookup element with
  | none => simp
  | some addTS =>
    cases set.removes.lookup element with
    | none => simp
    | some rmTS =>
      dsimp only
      rw [compare_eq]
      split_ifs with less greater
      · simp [less.not_gt]
      all_goals simp [greater]

/-- After any operations, one that brings no clock decides whether its element is
shown and leaves the others as they were, unless the counter of its node wraps. -/
theorem unstamped_op_decides (visit visit' visit'' : RangeOrder)
    (history : List (RangeOrder × SetOp)) (nodeID element other : String) (isAdd : Bool)
    (unwrapped : ∀ count ∈ (replay history).timestamp.lookup nodeID, count < count + 1) :
    other ∈ (applySetOp visit (replay history) ⟨nodeID, element, isAdd, ∅⟩).getElements visit' ↔
      if other = element then isAdd = true else other ∈ (replay history).getElements visit'' := by
  have stamped := stamped_replay history
  have above := time_lt_increment unwrapped
  rw [mem_getElements, mem_getElements, applySetOp]
  by_cases same : other = element
  · subst same
    cases isAdd with
    | true => simpa using fun rmTS removed => (stamped.removes _ rmTS removed).trans_lt above
    | false =>
      simpa using fun addTS added => ((stamped.adds _ addTS added).trans above.le).not_gt
  · cases isAdd <;> simp [same, Finmap.lookup_insert_of_ne _ same]

noncomputable def anyOrder : RangeOrder := ⟨Finset.toList, Finset.mem_toList⟩

/-- A vote that a peer removed is shown again once it is added here. -/
theorem removed_vote_shown_again :
    "vote" ∈ (applySetOp anyOrder
      (replay [(anyOrder, ⟨"b", "vote", false, Finmap.singleton "b" 7⟩)])
      ⟨"a", "vote", true, ∅⟩).getElements anyOrder := by
  refine (unstamped_op_decides anyOrder anyOrder anyOrder _ "a" "vote" "vote" true ?_).mpr rfl
  have unknown : time (merge anyOrder ∅ (Finmap.singleton "b" 7)) "a" = ⊥ := by
    rw [time_merge]
    rfl
  intro count stored
  exact nomatch stored.symm.trans unknown

end LWWSet

/-! ## Counters -/

structure Counter where
  key : String
  counters : VectorClock := ∅
  timestamp : VectorClock := ∅

/-- `Merge` of a counter; its loops are those of a clock's. -/
def Counter.merge (visit : RangeOrder) (c other : Counter) : Except String Counter :=
  if c.key ≠ other.key then .error "cannot merge counters with different keys"
  else .ok
    { key := c.key
      counters := VectorClock.merge visit c.counters other.counters
      timestamp := VectorClock.merge visit c.timestamp other.timestamp }

/-- Merging counters is idempotent, commutative and associative, in whatever order the
loops run, so nodes that merge the same counters agree. -/
theorem Counter.counterMerge_laws (a b c : Counter) (v w v' w' : RangeOrder) :
    a.merge v a = .ok a ∧ a.merge v b = b.merge w a ∧
      (a.merge v b).bind (merge w · c) = (b.merge v' c).bind (merge w' a) := by
  have idem : ∀ (v : RangeOrder) (x : VectorClock), VectorClock.merge v x x = x := fun v x =>
    time_injective (by rw [time_merge, sup_idem])
  have comm : ∀ x y, VectorClock.merge v x y = VectorClock.merge w y x := fun x y =>
    time_injective (by rw [time_merge, time_merge, sup_comm])
  have assoc : ∀ x y z, VectorClock.merge w (VectorClock.merge v x y) z =
      VectorClock.merge w' x (VectorClock.merge v' y z) := fun x y z =>
    time_injective (by simp only [time_merge, sup_assoc])
  unfold Counter.merge
  refine ⟨by simp [idem], ?_, ?_⟩
  · by_cases same : a.key = b.key
    · simp [same, comm]
    · simp [same, Ne.symm same]
  · by_cases first : a.key = b.key <;> by_cases second : b.key = c.key <;>
      simp_all [Except.bind]

end Jmdn.Crdt
