import Jmdn.Transition.Run

/-!
# Locks in a table

`acquireBlockApplyLock` and `getTransactionLock` find a lock object under a hash,
or make one, and lock it after they have left the table.  The two differ in when
the entry is deleted: a block's lock counts its users and goes with the last of
them, a transaction's lock goes with each of them, and before that with
`cleanupProcessingMarkers`, which `processTransaction` calls inside the locked
section.
-/

namespace Jmdn.BlockProcessing.Locks

open Function List Transition

/-- A lock object: the hash it was made for, and its number among all objects. -/
abbrev Lock := String × Nat

/-- Where a call with a lock object stands: before locking it, inside, between
unlocking it and its last visit to the table, and after that. -/
inductive Stage where
  | waiting
  | holding
  | releasing
  | left
  deriving DecidableEq

/-- The table, the counts and mutexes of the objects, how many objects were made,
and the object and stage of each call. -/
structure State where
  table : String → Option Nat := fun _ => none
  refs : Lock → Int := fun _ => 0
  locked : Lock → Bool := fun _ => false
  objects : Nat := 0
  calls : List (Lock × Stage) := []

inductive Action where
  | find (hash : String)
  | lock (call : Nat)
  | unlock (call : Nat)
  | leave (call : Nat)

variable {stage : Stage} {action : Action}

/-- One step.  `deletes` tells whether a call that leaves deletes the entry, from
the count of the object without it. -/
def step (deletes : Int → Bool) : Step State Action
  | state, .find hash =>
    let lock : Lock := (hash, (state.table hash).getD state.objects)
    some { state with
      table := update state.table hash (some lock.2)
      refs := update state.refs lock (state.refs lock + 1)
      objects := if (state.table hash).isSome then state.objects else state.objects + 1
      calls := state.calls ++ [(lock, .waiting)] }
  | state, .lock call =>
    match state.calls[call]? with
    | some (lock, .waiting) =>
      if state.locked lock then none
      else
        some { state with
          locked := update state.locked lock true
          calls := state.calls.set call (lock, .holding) }
    | _ => none
  | state, .unlock call =>
    match state.calls[call]? with
    | some (lock, .holding) =>
      some { state with
        locked := update state.locked lock false
        calls := state.calls.set call (lock, .releasing) }
    | _ => none
  | state, .leave call =>
    match state.calls[call]? with
    | some (lock, .releasing) =>
      some { state with
        refs := update state.refs lock (state.refs lock - 1)
        table := if deletes (state.refs lock - 1) then update state.table lock.1 none
          else state.table
        calls := state.calls.set call (lock, .left) }
    | _ => none

/-- `acquireBlockApplyLock` and the release it returns. -/
def blockApplyStep : Step State Action :=
  step (· = 0)

/-- What is done with the locks of transactions: the calls that take them, and
`cleanupProcessingMarkers` in the locked section of such a call or, from
`ProcessBlockTransactions`, outside of it. -/
inductive TransactionAction where
  | use (action : Action)
  | cleanupProcessingMarkers (hash : String)

/-- `getTransactionLock` and `cleanupTransactionLock`, which looks at no count. -/
def transactionStep : Step State TransactionAction
  | state, .use action => step (fun _ => true) state action
  | state, .cleanupProcessingMarkers hash =>
    some { state with table := update state.table hash none }

/-- A call that uses the object. -/
def uses (lock : Lock) (call : Lock × Stage) : Bool :=
  call.1 = lock && call.2 ≠ .left

/-- Every object in use is in the table, all its users are counted, and the one
inside has locked it. -/
structure Counted (state : State) : Prop where
  found : ∀ {lock : Lock}, state.calls.countP (uses lock) ≠ 0 ↔ state.table lock.1 = some lock.2
  counts : ∀ lock, state.refs lock = state.calls.countP (uses lock)
  locked : ∀ {call : Nat} {lock : Lock}, state.calls[call]? = some (lock, .holding) →
    state.locked lock = true
  alone : ∀ {call other : Nat} {lock : Lock}, state.calls[call]? = some (lock, .holding) →
    state.calls[other]? = some (lock, .holding) → call = other

variable {state after : State} {call : Nat} {lock : Lock}

/-- A call in the next stage uses its object until it has left. -/
theorem countP_set_uses {calls : List (Lock × Stage)} {next : Stage}
    (here : calls[call]? = some (lock, stage)) (present : stage ≠ .left) (other : Lock) :
    ((calls.set call (lock, next)).countP (uses other) : Int) =
      calls.countP (uses other) - if lock = other ∧ next = .left then 1 else 0 := by
  obtain ⟨inside, got⟩ := List.getElem?_eq_some_iff.mp here
  have pos : lock = other → 0 < calls.countP (uses other) := fun same =>
    countP_pos_iff.mpr ⟨_, mem_of_getElem? here, by simp [uses, same, present]⟩
  rw [countP_set inside, got]
  simp only [uses]
  grind

theorem counted_step (counted : Counted state) (taken : blockApplyStep state action = some after) :
    Counted after := by
  have found := @counted.found
  have counts := counted.counts
  have locked := @counted.locked
  have alone := @counted.alone
  cases action with
  | find hash =>
    simp only [blockApplyStep, step] at taken
    cases taken
    generalize given : (state.table hash).getD state.objects = number
    have added : ∀ lock, (state.calls ++ [((hash, number), Stage.waiting)]).countP (uses lock) =
        state.calls.countP (uses lock) + if lock = (hash, number) then 1 else 0 := by
      intro lock
      simp [countP_append, countP_cons, uses, eq_comm]
    constructor
    all_goals
      simp only [update_apply, added]
      grind
  | lock call =>
    simp only [blockApplyStep, step] at taken
    split at taken
    · split at taken
      · cases taken
      next lock here free =>
      cases taken
      have same := @countP_set_uses _ _ _ _ .holding here nofun
      constructor
      all_goals
        simp only [update_apply]
        grind
    · cases taken
  | unlock call =>
    simp only [blockApplyStep, step] at taken
    split at taken
    · next lock here =>
      cases taken
      have same := @countP_set_uses _ _ _ _ .releasing here nofun
      constructor
      all_goals
        simp only [update_apply]
        grind
    · cases taken
  | leave call =>
    simp only [blockApplyStep, step, decide_eq_true_eq] at taken
    split at taken
    · next lock here =>
      cases taken
      have fewer := @countP_set_uses _ _ _ _ .left here nofun
      constructor
      all_goals
        simp only [update_apply]
        grind
    · cases taken

theorem counted_initial : Counted {} where
  found := by simp
  counts _ := rfl
  locked := by simp
  alone := by simp

section

variable {actions : List Action} {other number number' : Nat} {hash : String}

theorem Counted.entry (counted : Counted state) (here : state.calls[call]? = some (lock, stage))
    (present : stage ≠ .left) :
    state.table lock.1 = some lock.2 := by
  apply counted.found.mp
  apply Nat.pos_iff_ne_zero.mp
  exact countP_pos_iff.mpr ⟨_, mem_of_getElem? here, by simp [uses, present]⟩

theorem Counted.same (counted : Counted state) {stage' : Stage}
    (here : state.calls[call]? = some ((hash, number), stage))
    (there : state.calls[other]? = some ((hash, number'), stage')) (present : stage ≠ .left)
    (present' : stage' ≠ .left) : number = number' :=
  Option.some.inj ((counted.entry here present).symm.trans (counted.entry there present'))

theorem Counted.exclusive (counted : Counted state)
    (here : state.calls[call]? = some ((hash, number), .holding))
    (there : state.calls[other]? = some ((hash, number'), .holding)) : call = other := by
  obtain rfl := counted.same here there nofun nofun
  exact counted.alone here there

/-- With block locks at most one call is inside for a hash, all that use an object
for it use the same, and without one of them the table has no entry. -/
theorem blockApplyLock_exclusive
    (runs : Runs blockApplyStep (fun _ _ => True) {} actions state) :
    (∀ (call other : Nat) hash number number',
      state.calls[call]? = some ((hash, number), .holding) →
      state.calls[other]? = some ((hash, number'), .holding) → call = other) ∧
    (∀ (call other : Nat) hash number number' stage stage',
      state.calls[call]? = some ((hash, number), stage) →
      state.calls[other]? = some ((hash, number'), stage') → stage ≠ .left → stage' ≠ .left →
      number = number') ∧
    ∀ hash, (∀ number stage, ((hash, number), stage) ∈ state.calls → stage = .left) →
      state.table hash = none := by
  have counted : Counted state := runs.invariant counted_initial
    fun _ _ _ counted _ taken => counted_step counted taken
  refine ⟨fun _ _ _ _ _ => counted.exclusive, fun _ _ _ _ _ _ _ => counted.same, ?_⟩
  intro hash unused
  by_contra present
  obtain ⟨number, entry⟩ := Option.ne_none_iff_exists'.mp present
  have used : state.calls.countP (uses (hash, number)) ≠ 0 := counted.found.mpr entry
  obtain ⟨⟨_, stage⟩, listed, user⟩ := countP_pos_iff.mp (Nat.pos_of_ne_zero used)
  simp only [uses, ne_eq, Bool.and_eq_true, decide_eq_true_eq] at user
  exact user.2 (unused number stage (user.1 ▸ listed))

/-- Two calls that ask for the lock of one block. -/
theorem blockApplyLock_waits : ∃ state,
    run blockApplyStep {} [.find "b", .find "b", .lock 0] = some state ∧
    state.calls = [(("b", 0), .holding), (("b", 0), .waiting)] ∧
    ∀ other number, state.calls[other]? = some (("b", number), .holding) → other = 0 := by
  have runs := runs_of_run (show run blockApplyStep {} [.find "b", .find "b", .lock 0] =
    some _ from rfl)
  refine ⟨_, rfl, rfl, fun other number there => ?_⟩
  exact (blockApplyLock_exclusive runs).1 other 0 "b" number 0 there rfl

/-- After the mutex is unlocked the entry stays until the last visit to the table. -/
theorem released_entry_stays : ∃ state,
    run blockApplyStep {} [.find "b", .lock 0, .unlock 0] = some state ∧
    state.calls = [(("b", 0), .releasing)] ∧ state.table "b" = some 0 :=
  ⟨_, rfl, rfl, rfl⟩

end

/-! ## Transaction locks -/

/-- Between `getTransactionLock` and the unlocking. -/
def Stage.within (stage : Stage) : Bool :=
  stage = .waiting || stage = .holding

/-- A call that finds no entry for a hash finds no other one that waits for a lock
of the hash or is inside. -/
def findsFree (state : State) : TransactionAction → Bool
  | .use (.find hash) =>
    (state.table hash).isSome || state.calls.all fun call => call.1.1 ≠ hash || !call.2.within
  | _ => true

/-- All that wait for a lock of a hash or are inside have one object, the one in the
table if there is an entry, and the one inside has locked it. -/
structure Shared (state : State) : Prop where
  entry : ∀ {call : Nat} {lock : Lock} {stage : Stage} {number : Nat},
    state.calls[call]? = some (lock, stage) → stage.within →
    state.table lock.1 = some number → number = lock.2
  same : ∀ {call other : Nat} {hash : String} {number number' : Nat} {stage stage' : Stage},
    state.calls[call]? = some ((hash, number), stage) → stage.within →
    state.calls[other]? = some ((hash, number'), stage') → stage'.within → number = number'
  locked : ∀ {call : Nat} {lock : Lock}, state.calls[call]? = some (lock, .holding) →
    state.locked lock = true
  alone : ∀ {call other : Nat} {lock : Lock}, state.calls[call]? = some (lock, .holding) →
    state.calls[other]? = some (lock, .holding) → call = other

theorem findsFree_of_none {hash : String} (absent : state.table hash = none)
    (free : findsFree state (.use (.find hash))) :
    ∀ call ∈ state.calls, call.1.1 = hash → call.2.within = false := by
  intro call listed named
  have apart := List.all_eq_true.mp ((Bool.or_eq_true_iff.mp free).resolve_left
    (by simp [absent])) call listed
  simpa [named] using apart

theorem shared_find {hash : String} (shared : Shared state)
    (free : findsFree state (.use (.find hash)))
    (taken : transactionStep state (.use (.find hash)) = some after) : Shared after := by
  simp only [transactionStep, step] at taken
  cases taken
  have entry := @shared.entry
  have same := @shared.same
  have locked := @shared.locked
  have alone := @shared.alone
  have alike : ∀ {call : Nat} {number : Nat} {stage : Stage},
      state.calls[call]? = some ((hash, number), stage) → stage.within →
        number = (state.table hash).getD state.objects := by
    intro call number stage here inside
    cases found : state.table hash with
    | none =>
      have apart := (findsFree_of_none found free) _ (mem_of_getElem? here) rfl
      rw [inside] at apart
      cases apart
    | some current => exact (entry here inside found).symm
  constructor
  all_goals
    simp only [update_apply]
    grind

theorem shared_step {action : TransactionAction} (shared : Shared state)
    (free : findsFree state action) (taken : transactionStep state action = some after) :
    Shared after := by
  have entry := @shared.entry
  have same := @shared.same
  have locked := @shared.locked
  have alone := @shared.alone
  cases action with
  | use action =>
    cases action with
    | find hash => exact shared_find shared free taken
    | lock call | unlock call | leave call =>
      simp only [transactionStep, step] at taken
      split at taken
      all_goals
        try split at taken
      all_goals
        cases taken
      all_goals
        constructor
      all_goals
        simp only [update_apply]
        grind [Stage.within]
  | cleanupProcessingMarkers hash =>
    cases taken
    refine ⟨fun {_ lock _ _} here inside found => ?_, same, locked, alone⟩
    dsimp only at here found
    by_cases named : lock.1 = hash
    · rw [named, update_self] at found
      cases found
    · rw [update_of_ne named] at found
      exact entry here inside found

/-- With transaction locks at most one call is inside for a hash, when none makes a
lock while another one waits for a lock of the hash or is inside. -/
theorem transactionLock_exclusive {actions : List TransactionAction} {other number number' : Nat}
    {hash : String} (runs : Runs transactionStep (findsFree · ·) {} actions state)
    (here : state.calls[call]? = some ((hash, number), .holding))
    (there : state.calls[other]? = some ((hash, number'), .holding)) : call = other := by
  have initial : Shared {} := ⟨by simp, by simp, by simp, by simp⟩
  have shared : Shared state := runs.invariant initial
    fun _ _ _ shared free taken => shared_step shared free taken
  obtain rfl := shared.same here rfl there rfl
  exact shared.alone here there

/-- Two calls share a lock; the first one cleans up inside and leaves, the second
one gets in, and a third one that comes after it makes another lock. -/
theorem transactionLock_one_by_one : ∃ state,
    run transactionStep {} [.use (.find "t"), .use (.find "t"), .use (.lock 0),
      .cleanupProcessingMarkers "t", .use (.unlock 0), .use (.leave 0), .use (.lock 1),
      .use (.unlock 1), .use (.find "t"), .use (.lock 2)] = some state ∧
    state.calls = [(("t", 0), .left), (("t", 0), .releasing), (("t", 1), .holding)] ∧
    ∀ other number, state.calls[other]? = some (("t", number), .holding) → other = 2 := by
  have runs := runs_of_runIf (fun _ _ passed => passed)
    (show runIf transactionStep findsFree {} [.use (.find "t"), .use (.find "t"),
      .use (.lock 0), .cleanupProcessingMarkers "t", .use (.unlock 0), .use (.leave 0),
      .use (.lock 1), .use (.unlock 1), .use (.find "t"), .use (.lock 2)] = some _ from rfl)
  exact ⟨_, rfl, rfl, fun other number there => transactionLock_exclusive runs there rfl⟩

/-- The second of two calls waits for a lock that the first removes from the table,
and a third one makes another lock; and a call that comes after the cleanup inside
the section of another one makes its own lock at once. -/
theorem transactionLock_shared :
    (∃ state, run transactionStep {} [.use (.find "t"), .use (.find "t"), .use (.lock 0),
        .use (.unlock 0), .use (.leave 0), .use (.lock 1), .use (.find "t"),
        .use (.lock 2)] = some state ∧
      state.calls = [(("t", 0), .left), (("t", 0), .holding), (("t", 1), .holding)]) ∧
    ∃ state, run transactionStep {} [.use (.find "t"), .use (.lock 0),
        .cleanupProcessingMarkers "t", .use (.find "t"), .use (.lock 1)] = some state ∧
      state.calls = [(("t", 0), .holding), (("t", 1), .holding)] :=
  ⟨⟨_, rfl, rfl⟩, ⟨_, rfl, rfl⟩⟩

end Jmdn.BlockProcessing.Locks
