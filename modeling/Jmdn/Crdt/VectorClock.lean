import Mathlib.Data.Finmap
import Mathlib.Order.Fin.Basic
import Mathlib.Order.WithBot

/-!
# Vector clocks

`Compare` and `Merge` of `crdt.go`.  A clock is a function from nodes to
timestamps with a bottom for the nodes it does not have.  `Compare` decides the
pointwise order of these functions and `Merge` is its supremum, in whatever order
the loops visit the nodes.
-/

namespace Jmdn.Crdt

variable {nodes : List String}

abbrev Timestamp := Fin (2 ^ 64)

abbrev VectorClock := Finmap fun _ : String => Timestamp

/-- An order in which `range` visits the keys of a map. -/
structure RangeOrder where
  order : Finset String → List String
  mem_order : ∀ {keys : Finset String} {key : String}, key ∈ order keys ↔ key ∈ keys

/-- The flags of `Compare`. -/
structure Flags where
  less : Bool := false
  greater : Bool := false
  equal : Bool := true

namespace VectorClock

open Function List

/-- One round of `Compare`. -/
def compareAt (vc other : VectorClock) (flags : Flags) (node : String) : Flags :=
  match vc.lookup node, other.lookup node with
  | none, _ => { flags with less := true, equal := false }
  | some _, none => { flags with greater := true, equal := false }
  | some ourTS, some otherTS =>
    if ourTS > otherTS then { flags with greater := true, equal := false }
    else if ourTS < otherTS then { flags with less := true, equal := false }
    else flags

/-- `Compare`. -/
def compare (visit : RangeOrder) (vc other : VectorClock) : Int :=
  let flags := (visit.order (vc.keys ∪ other.keys)).foldl (compareAt vc other) {}
  if flags.equal then 0
  else if flags.less && flags.greater then 0
  else if flags.greater then 1
  else -1

/-- One round of the second loop of `Merge`. -/
def mergeAt (other result : VectorClock) (node : String) : VectorClock :=
  match result.lookup node, other.lookup node with
  | _, none => result
  | none, some otherTS => result.insert node otherTS
  | some ourTS, some otherTS => if otherTS > ourTS then result.insert node otherTS else result

/-- `Merge`; the first loop copies the clock. -/
def merge (visit : RangeOrder) (vc other : VectorClock) : VectorClock :=
  (visit.order other.keys).foldl (mergeAt other) vc

/-- The timestamp of a node, below all others where the clock has none. -/
def time (vc : VectorClock) (node : String) : WithBot Timestamp :=
  vc.lookup node

variable {a b : VectorClock} {node : String}

theorem time_injective : Injective time :=
  fun _ _ same => Finmap.ext_lookup (congrFun same)

theorem time_eq_bot (absent : node ∉ a.keys) : time a node = ⊥ :=
  Finmap.lookup_eq_none.mpr (mt Finmap.mem_keys.mpr absent)

/-! ## Comparing -/

/-- A round at a node of either clock adds how its timestamps compare. -/
theorem compareAt_eq (listed : node ∈ a.keys ∪ b.keys) (flags : Flags) :
    compareAt a b flags node =
      { less := flags.less || decide (time a node < time b node)
        greater := flags.greater || decide (time b node < time a node)
        equal := flags.equal && decide (time a node = time b node) } := by
  have present : ¬(a.lookup node = none ∧ b.lookup node = none) := by
    rw [Finmap.lookup_eq_none, Finmap.lookup_eq_none, ← not_or, not_not]
    simpa [Finmap.mem_keys] using listed
  unfold compareAt time
  cases ours : a.lookup node with
  | none =>
    cases theirs : b.lookup node with
    | none => exact absurd ⟨ours, theirs⟩ present
    | some otherTS => simp [WithBot.none_eq_bot, WithBot.some_eq_coe]
  | some ourTS =>
    cases b.lookup node with
    | none => simp [WithBot.none_eq_bot, WithBot.some_eq_coe]
    | some otherTS =>
      rcases lt_trichotomy ourTS otherTS with less | rfl | greater
      · simp [WithBot.some_eq_coe, less, less.not_gt, less.ne]
      · simp [WithBot.some_eq_coe]
      · simp [WithBot.some_eq_coe, greater, greater.not_gt, greater.ne']

theorem foldl_compareAt (listed : ∀ node ∈ nodes, node ∈ a.keys ∪ b.keys) (flags : Flags) :
    nodes.foldl (compareAt a b) flags =
      { less := flags.less || nodes.any fun node => time a node < time b node
        greater := flags.greater || nodes.any fun node => time b node < time a node
        equal := flags.equal && nodes.all fun node => time a node = time b node } := by
  induction nodes generalizing flags with
  | nil => simp
  | cons node rest ih =>
    rw [forall_mem_cons] at listed
    rw [foldl_cons, compareAt_eq listed.1, ih listed.2, any_cons, any_cons,
      all_cons, Bool.or_assoc, Bool.or_assoc, Bool.and_assoc]

/-- The nodes of the clocks tell whether one is below the other. -/
theorem any_lt_iff (all : ∀ node ∈ b.keys, node ∈ nodes) :
    (nodes.any fun node => time a node < time b node) = true ↔ ¬time b ≤ time a := by
  simp only [any_eq_true, decide_eq_true_eq, Pi.le_def, not_forall, not_le]
  refine exists_congr fun node => and_iff_right_of_imp fun less => all node ?_
  by_contra absent
  rw [time_eq_bot absent] at less
  exact not_lt_bot less

open Classical in
/-- What `Compare` returns in terms of the order. -/
theorem compare_eq (visit : RangeOrder) (a b : VectorClock) :
    compare visit a b =
      if time a < time b then -1 else if time b < time a then 1 else 0 := by
  have all : ∀ node ∈ a.keys ∪ b.keys, node ∈ visit.order (a.keys ∪ b.keys) :=
    fun node => visit.mem_order.mpr
  have less := any_lt_iff (a := a) (b := b) fun node here =>
    all node (Finset.mem_union_right _ here)
  have greater := any_lt_iff (a := b) (b := a) fun node here =>
    all node (Finset.mem_union_left _ here)
  have equal : (visit.order (a.keys ∪ b.keys)).all (fun node => time a node = time b node) =
      true ↔ time a ≤ time b ∧ time b ≤ time a := by
    simp only [all_eq_true, decide_eq_true_eq, ← le_antisymm_iff, funext_iff]
    refine forall_congr' fun node => ⟨fun same => ?_, fun same _ => same⟩
    by_cases listed : node ∈ a.keys ∪ b.keys
    · exact same (all node listed)
    · rw [Finset.mem_union, not_or] at listed
      rw [time_eq_bot listed.1, time_eq_bot listed.2]
  unfold compare
  rw [foldl_compareAt fun node => visit.mem_order.mp]
  simp only [Bool.false_or, Bool.true_and, Bool.and_eq_true, less, greater, equal]
  by_cases up : time a ≤ time b <;> by_cases down : time b ≤ time a <;>
    simp [lt_iff_le_not_ge, up, down]

/-! ## Merging -/

theorem time_mergeAt (other result : VectorClock) (node : String) :
    time (mergeAt other result node) =
      update (time result) node (time result node ⊔ time other node) := by
  have inserted : ∀ value : Timestamp, time (result.insert node value) =
      update (time result) node value := by
    intro value
    funext key
    by_cases same : key = node
    · rw [same, update_self]
      exact Finmap.lookup_insert result
    · rw [update_of_ne same]
      exact Finmap.lookup_insert_of_ne result same
  unfold mergeAt
  cases theirs : other.lookup node with
  | none =>
    have bottom : time other node = ⊥ := theirs
    simp [bottom]
  | some otherTS =>
    have right : time other node = otherTS := theirs
    cases ours : result.lookup node with
    | none =>
      have left : time result node = ⊥ := ours
      simp [left, right, inserted]
    | some ourTS =>
      have left : time result node = ourTS := ours
      rcases lt_or_ge ourTS otherTS with later | earlier
      · simp [left, right, inserted, later, later.le]
      · rw [right, left, sup_eq_left.mpr (WithBot.coe_le_coe.mpr earlier), ← left,
          update_eq_self]
        simp [earlier.not_gt]

theorem foldl_mergeAt (other : VectorClock) (nodes : List String) (result : VectorClock)
    (key : String) :
    time (nodes.foldl (mergeAt other) result) key =
      if key ∈ nodes then time result key ⊔ time other key else time result key := by
  induction nodes generalizing result with
  | nil => rfl
  | cons node rest ih =>
    rw [foldl_cons, ih, time_mergeAt]
    by_cases same : key = node
    · subst same
      simp
    · simp [same]

theorem time_merge (visit : RangeOrder) (a b : VectorClock) :
    time (merge visit a b) = time a ⊔ time b := by
  funext key
  rw [merge, foldl_mergeAt]
  split
  · rfl
  · next absent => rw [Pi.sup_apply, time_eq_bot (mt visit.mem_order.mpr absent), sup_bot_eq]

/-- `Compare` decides the strict pointwise order, which is transitive, and is
antisymmetric, and `Merge` is the least upper bound, for all visiting orders. -/
theorem vectorClock_laws (a b c : VectorClock) (visit visit' visit'' : RangeOrder) :
    (compare visit a b = -1 ↔ time a ≤ time b ∧ a ≠ b) ∧
    compare visit b a = -compare visit' a b ∧
    (compare visit a b = -1 → compare visit' b c = -1 → compare visit'' a c = -1) ∧
    time a ≤ time (merge visit a b) ∧ time b ≤ time (merge visit a b) ∧
    ∀ clock, time a ≤ time clock → time b ≤ time clock → time (merge visit a b) ≤ time clock := by
  have strict : ∀ (visit : RangeOrder) (a b : VectorClock),
      compare visit a b = -1 ↔ time a < time b := by
    intro visit a b
    rw [compare_eq]
    split_ifs with up down <;> simp [up]
  rw [strict, strict, strict, time_merge, compare_eq, compare_eq]
  refine ⟨?_, ?_, lt_trans, le_sup_left, le_sup_right, fun clock => sup_le⟩
  · rw [lt_iff_le_and_ne, time_injective.ne_iff]
  · split_ifs with up down
    · exact absurd down up.not_gt
    all_goals rfl

end VectorClock

end Jmdn.Crdt
