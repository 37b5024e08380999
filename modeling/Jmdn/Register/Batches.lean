import Mathlib.Data.List.MinMax

/-!
# Batches of writes and changes

A stream of items for one register: records, which are written by a
last-writer-wins rule, and changes, which are applied to whatever is stored.  A
batch writes its records first, in groups of which only the newest record is
written, and then applies its changes.  So a batch reorders its items and drops
records; the results here say when it leaves what the items leave in their order.
-/

namespace Jmdn.Register

open List

variable {σ ρ τ : Type} [LinearOrder τ]

variable {record best : ρ} {first list rest : List ρ}

/-- The first record of the greatest time. -/
def newest (time : ρ → τ) : List ρ → Option ρ
  | [] => none
  | record :: rest =>
    match newest time rest with
    | none => some record
    | some best => if time record < time best then some best else some record

/-- An item of a stream. -/
inductive Item (σ ρ : Type) where
  | record (record : ρ)
  | change (change : σ → σ)

/-- The records of a stream. -/
def records : List (Item σ ρ) → List ρ :=
  List.filterMap fun
    | .record record => some record
    | .change _ => none

/-- The changes of a stream. -/
def changes : List (Item σ ρ) → List (σ → σ) :=
  List.filterMap fun
    | .record _ => none
    | .change change => some change

/-- Apply changes in order. -/
def applyChanges (stored : σ) (list : List (σ → σ)) : σ :=
  list.foldl (fun current change => change current) stored

section

variable (write : σ → ρ → σ) (time : ρ → τ)

/-- Write the newest record of a group. -/
def writeNewest (stored : σ) (group : List ρ) : σ :=
  (newest time group).elim stored (write stored)

/-- One batch: the newest record of each group, then the changes. -/
def applyBatch (stored : σ) (batch : List (List ρ) × List (Item σ ρ)) : σ :=
  applyChanges (batch.1.foldl (writeNewest write time) stored) (changes batch.2)

/-- The items one at a time, in their order. -/
def inOrder (stored : σ) (items : List (Item σ ρ)) : σ :=
  items.foldl (fun current item =>
    match item with
    | .record record => write current record
    | .change change => change current) stored

/-- No record changes a fixed store, nor what the changes before it leave. -/
def Unmoved (base : σ) : σ → List (Item σ ρ) → Prop
  | _, [] => True
  | current, .record record :: rest =>
    (write base record = base ∧ write current record = current) ∧ Unmoved base current rest
  | current, .change change :: rest => Unmoved base (change current) rest

instance Unmoved.decidable [DecidableEq σ] (write : σ → ρ → σ) (base : σ) :
    ∀ current items, Decidable (Unmoved write base current items)
  | _, [] => isTrue trivial
  | current, .record _ :: rest =>
    @instDecidableAnd _ _ inferInstance (Unmoved.decidable write base current rest)
  | current, .change change :: rest => Unmoved.decidable write base (change current) rest

/-- The records behind the first change are unmoved. -/
def InPlace : σ → List (Item σ ρ) → Prop
  | _, [] => True
  | stored, .record record :: rest => InPlace (write stored record) rest
  | stored, .change change :: rest => Unmoved write stored (change stored) rest

instance InPlace.decidable [DecidableEq σ] (write : σ → ρ → σ) :
    ∀ stored items, Decidable (InPlace write stored items)
  | _, [] => isTrue trivial
  | stored, .record record :: rest => InPlace.decidable write (write stored record) rest
  | stored, .change change :: rest => Unmoved.decidable write stored (change stored) rest

variable (covers : σ → ρ → ρ → Prop)

/-- The records of a group before its newest one, each at its turn, change nothing or are
covered by the newest one, and those after it change nothing that it leaves. -/
def Kept : σ → List ρ → Prop
  | _, [] => True
  | stored, record :: rest =>
    match newest time rest with
    | none => True
    | some best =>
      if time record < time best then
        (write stored record = stored ∨ covers stored record best) ∧ Kept (write stored record) rest
      else ∀ other ∈ rest, write (write stored record) other = write stored record

/-- This holds for each group, on what the groups before it leave. -/
def AllKept : σ → List (List ρ) → Prop
  | _, [] => True
  | stored, group :: rest =>
    Kept write time covers stored group ∧ AllKept (writeNewest write time stored group) rest

section

variable [DecidableEq σ] [∀ stored record last, Decidable (covers stored record last)]

instance Kept.decidable : ∀ stored list, Decidable (Kept write time covers stored list)
  | _, [] => isTrue trivial
  | stored, record :: rest => by
    have := Kept.decidable (write stored record) rest
    rw [Kept]
    split <;> infer_instance

instance AllKept.decidable : ∀ stored groups, Decidable (AllKept write time covers stored groups)
  | _, [] => isTrue trivial
  | stored, group :: rest => @instDecidableAnd _ _ inferInstance
      (AllKept.decidable (writeNewest write time stored group) rest)

end

end

/-! ## The newest record -/

section

variable {time : ρ → τ}

theorem newest_eq_argmax (time : ρ → τ) (list : List ρ) : newest time list = list.argmax time := by
  induction list with
  | nil => rfl
  | cons record rest ih =>
    rw [newest, ih, argmax_cons]
    cases rest.argmax time <;> rfl

theorem newest_eq_none : newest time list = none ↔ list = [] := by
  rw [newest_eq_argmax, argmax_eq_none]

theorem mem_of_newest (found : newest time list = some best) : best ∈ list :=
  argmax_mem ((newest_eq_argmax time list).symm.trans found)

theorem le_newest (found : newest time list = some best) :
    ∀ record ∈ list, time record ≤ time best := fun _ mem =>
  le_of_mem_argmax mem ((newest_eq_argmax time list).symm.trans found)

/-- Records before a newer one do not matter. -/
theorem newest_append_cons (older : ∀ other ∈ first, time other < time record) :
    newest time (first ++ record :: rest) = newest time (record :: rest) := by
  induction first with
  | nil => rfl
  | cons head tail ih =>
    rw [cons_append, newest,
      ih fun other mem => older other (mem_cons_of_mem _ mem)]
    cases found : newest time (record :: rest) with
    | none => cases newest_eq_none.mp found
    | some best =>
      have later := le_newest found record mem_cons_self
      exact if_pos ((older head mem_cons_self).trans_le later)

/-- A record that is not newer than the one before it does not matter. -/
theorem newest_cons_cons {first second : ρ} (rest : List ρ) (older : time second ≤ time first) :
    newest time (first :: second :: rest) = newest time (first :: rest) := by
  rw [newest, newest, newest]
  cases newest time rest with
  | none => exact if_neg (not_lt.mpr older)
  | some best =>
    dsimp only
    by_cases later : time second < time best
    · rw [if_pos later]
    · rw [if_neg later]
      have most := (not_lt.mp later).trans older
      exact (if_neg (not_lt.mpr older)).trans (if_neg (not_lt.mpr most)).symm

end

/-! ## Items in order -/

theorem records_append (first second : List (Item σ ρ)) :
    records (first ++ second) = records first ++ records second :=
  filterMap_append

theorem changes_append (first second : List (Item σ ρ)) :
    changes (first ++ second) = changes first ++ changes second :=
  filterMap_append

theorem records_map_record (list : List ρ) :
    records (list.map (Item.record : ρ → Item σ ρ)) = list := by
  rw [records, filterMap_map]
  exact filterMap_some

theorem records_map_change (list : List (σ → σ)) :
    records (list.map (Item.change : _ → Item σ ρ)) = [] := by
  rw [records, filterMap_map]
  exact filterMap_eq_nil_iff.mpr fun _ _ => rfl

theorem changes_map_record (list : List ρ) :
    changes (list.map (Item.record : ρ → Item σ ρ)) = [] := by
  rw [changes, filterMap_map]
  exact filterMap_eq_nil_iff.mpr fun _ _ => rfl

theorem changes_map_change (list : List (σ → σ)) :
    changes (list.map (Item.change : _ → Item σ ρ)) = list := by
  rw [changes, filterMap_map]
  exact filterMap_some

theorem applyChanges_append (stored : σ) (first second : List (σ → σ)) :
    applyChanges stored (first ++ second) = applyChanges (applyChanges stored first) second :=
  foldl_append

section

variable {write : σ → ρ → σ} {time : ρ → τ} {stored base current : σ} {items : List (Item σ ρ)}

theorem inOrder_append (first second : List (Item σ ρ)) :
    inOrder write stored (first ++ second) = inOrder write (inOrder write stored first) second :=
  foldl_append

/-- Records that change nothing can be left out. -/
theorem foldl_eq_self (unchanged : ∀ record ∈ list, write stored record = stored) :
    list.foldl write stored = stored := by
  induction list with
  | nil => rfl
  | cons record rest ih =>
    rw [foldl_cons, unchanged record mem_cons_self]
    exact ih fun other mem => unchanged other (mem_cons_of_mem _ mem)

theorem unmoved_of_records_eq_nil (none : records items = []) :
    Unmoved write base current items := by
  induction items generalizing current with
  | nil => trivial
  | cons item rest ih =>
    cases item with
    | record record => cases none
    | change change => exact @ih (change current) none

theorem inPlace_of_records_eq_nil (none : records items = []) : InPlace write stored items := by
  cases items with
  | nil => trivial
  | cons item rest =>
    cases item with
    | record record => cases none
    | change change => exact unmoved_of_records_eq_nil none

theorem Unmoved.records (unmoved : Unmoved write base current items) :
    ∀ record ∈ records items, write base record = base := by
  induction items generalizing current with
  | nil => exact nofun
  | cons item rest ih =>
    cases item with
    | record record =>
      intro other mem
      rcases mem_cons.mp mem with rfl | later
      · exact unmoved.1.1
      · exact ih unmoved.2 other later
    | change change => exact @ih (change current) unmoved

theorem Unmoved.inOrder_eq (unmoved : Unmoved write base current items) :
    inOrder write current items = applyChanges current (changes items) := by
  induction items generalizing current with
  | nil => rfl
  | cons item rest ih =>
    cases item with
    | record record =>
      have same : inOrder write current (.record record :: rest) =
          inOrder write (write current record) rest := rfl
      rw [same, unmoved.1.2]
      exact ih unmoved.2
    | change change => exact @ih (change current) unmoved

theorem InPlace.inOrder_eq (inPlace : InPlace write stored items) :
    applyChanges ((records items).foldl write stored) (changes items) =
      inOrder write stored items := by
  induction items generalizing stored with
  | nil => rfl
  | cons item rest ih =>
    cases item with
    | record record => exact ih inPlace
    | change change =>
      have same : (Register.records rest).foldl write stored = stored := foldl_eq_self inPlace.records
      exact (congrArg (applyChanges · _) same).trans (Unmoved.inOrder_eq inPlace).symm

section

variable {covers : σ → ρ → ρ → Prop} {groups : List (List ρ)}

theorem allKept_of_flatten_eq_nil (none : groups.flatten = []) :
    AllKept write time covers stored groups := by
  induction groups generalizing stored with
  | nil => trivial
  | cons group rest ih =>
    rw [flatten_cons, append_eq_nil_iff] at none
    rw [none.1]
    exact ⟨trivial, ih none.2⟩

variable (sound : ∀ {stored record last}, time record < time last → covers stored record last →
  write (write stored record) last = write stored last)
include sound

theorem Kept.writeNewest_eq (kept : Kept write time covers stored list) :
    writeNewest write time stored list = list.foldl write stored := by
  induction list generalizing stored with
  | nil => rfl
  | cons record rest ih =>
    rw [Kept] at kept
    rw [writeNewest, newest, foldl_cons]
    cases found : newest time rest with
    | none =>
      rw [newest_eq_none.mp found]
      rfl
    | some best =>
      rw [found] at kept
      dsimp only at kept ⊢
      split_ifs at kept ⊢ with older
      · have later := ih kept.2
        rw [writeNewest, found, Option.elim_some] at later
        rw [Option.elim_some, ← later]
        rcases kept.1 with same | covered
        · rw [same]
        · exact (sound older covered).symm
      · exact (foldl_eq_self kept).symm

theorem AllKept.foldl_eq (kept : AllKept write time covers stored groups) :
    groups.foldl (writeNewest write time) stored = groups.flatten.foldl write stored := by
  induction groups generalizing stored with
  | nil => rfl
  | cons group rest ih =>
    rw [foldl_cons, flatten_cons, foldl_append, ih kept.2, kept.1.writeNewest_eq sound]

/-- A batch whose groups miss no dropped record and whose records behind its first change
move nothing leaves what its items leave in their order. -/
theorem applyBatch_eq_inOrder (whole : groups.flatten = records items)
    (kept : AllKept write time covers stored groups) (inPlace : InPlace write stored items) :
    applyBatch write time stored (groups, items) = inOrder write stored items := by
  rw [← inPlace.inOrder_eq, ← whole, ← kept.foldl_eq sound]
  rfl

end

end

end Jmdn.Register
