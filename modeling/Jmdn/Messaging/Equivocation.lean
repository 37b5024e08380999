import Jmdn.Go.Json
import Jmdn.Messaging.Rejection
import Jmdn.Transition.Run

/-!
# Equivocation detection

`checkEquivocation` of `messaging/consensus_hardening.go` over the production
store of `DB_OPs/equivocation.go`.  The first hash seen at a height is kept in
memory and durably.  The durable record is written as raw text, since `toBytes`
passes a string through, and read back with `json.Unmarshal`.
-/

namespace Jmdn.Messaging

open Config Go Transition

variable {height : UInt64} {hash : Hash}

/-- `common.Hash.Hex`. -/
def hashHex (hash : Hash) : String :=
  "0x" ++ @hexEncode 64 hash

/-- How a durable write ends.  A store that refuses the write makes `SafeCreate`
log through a connection it was not given, which panics. -/
inductive WriteOutcome where
  | written
  | noConnection
  | panicked
  deriving DecidableEq, Repr

/-- The store behaviour met by one call. -/
structure StoreIO where
  readOk : Bool := true
  write : WriteOutcome := .written
  deriving DecidableEq, Repr

/-- The in-memory map, and the bytes under the `equivocation_height:` keys. -/
structure EquivocationState where
  seenHeights : UInt64 → Option String := fun _ => none
  durable : UInt64 → Option String := fun _ => none

inductive EquivocationResult where
  | nil
  | reject (rejection : BlockRejection)
  | panicked
  deriving DecidableEq, Repr

/-- `GetEquivocationHash`: an error, nothing stored, or the stored hash. -/
def getEquivocationHash (io : StoreIO) (durable : UInt64 → Option String) (height : UInt64) :
    Except Unit (Option String) :=
  if io.readOk then
    match durable height with
    | none => .ok none
    | some value =>
      match unmarshalString value with
      | none => .error ()
      | some hashHex => .ok (some hashHex)
  else .error ()

/-- `RecordEquivocationHash`. -/
def recordEquivocationHash (io : StoreIO) (durable : UInt64 → Option String) (height : UInt64)
    (hashHex : String) : UInt64 → Option String :=
  match io.write with
  | .written => Function.update durable height (some hashHex)
  | _ => durable

/-- The tail of `checkEquivocation`: a first sighting is recorded in memory and
durably. -/
def recordSighting (io : StoreIO) (state : EquivocationState) (number : UInt64)
    (hashHex : String) : EquivocationResult × EquivocationState :=
  (if io.write = .panicked then .panicked else .nil,
    { seenHeights := Function.update state.seenHeights number (some hashHex)
      durable := recordEquivocationHash io state.durable number hashHex })

/-- `checkEquivocation`. -/
def checkEquivocation (io : StoreIO) (state : EquivocationState) (number : UInt64)
    (hashHex : String) : EquivocationResult × EquivocationState :=
  match state.seenHeights number with
  | some previous =>
    if previous ≠ hashHex then
      (.reject (.equivocation number previous hashHex false), state)
    else (.nil, state)
  | none =>
    match getEquivocationHash io state.durable number with
    | .ok (some previous) =>
      let warmed :=
        { state with seenHeights := Function.update state.seenHeights number (some previous) }
      if previous ≠ hashHex then
        (.reject (.equivocation number previous hashHex true), warmed)
      else (.nil, warmed)
    | _ => recordSighting io state number hashHex

/-! ## Runs of the detector -/

/-- A validated block is sighted, or the process restarts. -/
inductive EquivocationEvent where
  | sighting (io : StoreIO) (height : UInt64) (hash : Hash)
  | restart
  deriving DecidableEq, Repr

variable {event : EquivocationEvent} {after : EquivocationState} {io : StoreIO}

/-- One event; a restart empties the memory and keeps the store. -/
def equivocationStep : Step EquivocationState EquivocationEvent := fun state event =>
  match event with
  | .sighting io height hash => some (checkEquivocation io state height (hashHex hash)).2
  | .restart => some { state with seenHeights := fun _ => none }

/-- The hash a durable read yields; a failed read yields none. -/
def durableHit (io : StoreIO) (state : EquivocationState) (height : UInt64) : Option String :=
  match getEquivocationHash io state.durable height with
  | .ok found => found
  | .error _ => none

/-- The durable record an event writes successfully. -/
def recordedBy (state : EquivocationState) : EquivocationEvent → Option (UInt64 × Hash)
  | .restart => none
  | .sighting io height hash =>
    if state.seenHeights height = none ∧ durableHit io state height = none ∧
        io.write = .written then
      some (height, hash)
    else none

/-- A sighting that finds no memory of its height, but a durable record that it
cannot read, carries the recorded hash. -/
def SightingSafe (state : EquivocationState) : EquivocationEvent → Prop
  | .restart => True
  | .sighting io height hash =>
    state.seenHeights height = none → ∀ value, state.durable height = some value →
      getEquivocationHash io state.durable height = .error () → value = hashHex hash

theorem hashHex_injective : Function.Injective hashHex := by
  intro first second same
  have texts : ("0x" ++ @hexEncode 64 first).toList = ("0x" ++ @hexEncode 64 second).toList :=
    congrArg String.toList same
  rw [String.toList_append, String.toList_append] at texts
  exact hexEncode_injective (String.toList_injective (List.append_cancel_left texts))

/-- A record written as raw text is no JSON string. -/
theorem unmarshalString_hashHex (hash : Hash) : unmarshalString (hashHex hash) = none := by
  have front : (hashHex hash).toList = '0' :: 'x' :: (@hexEncode 64 hash).toList := by
    rw [hashHex, String.toList_append]
    rfl
  have kept : (hashHex hash).toList.dropWhile isJsonBlank = (hashHex hash).toList := by
    rw [front]
    rfl
  rw [unmarshalString, kept, front]
  rfl

theorem getEquivocationHash_raw (io : StoreIO) {durable : UInt64 → Option String}
    (stored : durable height = some (hashHex hash)) :
    getEquivocationHash io durable height = .error () := by
  unfold getEquivocationHash
  rw [stored]
  dsimp only
  rw [unmarshalString_hashHex]
  split <;> rfl

/-- What a kept record looks like: the raw text in the store, and nothing else
in memory. -/
def RecordKept (height : UInt64) (hash : Hash) (state : EquivocationState) : Prop :=
  state.durable height = some (hashHex hash) ∧
    (state.seenHeights height = none ∨ state.seenHeights height = some (hashHex hash))

variable {state : EquivocationState}

theorem checkEquivocation_of_unseen {text : String} (memory : state.seenHeights height = none)
    (miss : durableHit io state height = none) :
    checkEquivocation io state height text = recordSighting io state height text := by
  unfold durableHit at miss
  unfold checkEquivocation
  rw [memory]
  split at miss
  · next found read => simp only [read, miss]
  · next cause read => simp only [read]

/-- A call touches the entries of its own height only. -/
theorem checkEquivocation_of_ne (io : StoreIO) (state : EquivocationState) (text : String)
    {other : UInt64} (different : other ≠ height) :
    (checkEquivocation io state height text).2.durable other = state.durable other ∧
      (checkEquivocation io state height text).2.seenHeights other = state.seenHeights other := by
  cases memory : state.seenHeights height with
  | some previous =>
    simp only [checkEquivocation, memory]
    split <;> exact ⟨rfl, rfl⟩
  | none =>
    cases hit : durableHit io state height with
    | none =>
      rw [checkEquivocation_of_unseen memory hit, recordSighting, recordEquivocationHash]
      refine ⟨?_, by simp [different]⟩
      cases io.write <;> simp [different]
    | some previous =>
      have read : getEquivocationHash io state.durable height = .ok (some previous) := by
        unfold durableHit at hit
        split at hit
        · next found read => rw [read, hit]
        · cases hit
      simp only [checkEquivocation, memory, read]
      split <;> exact ⟨rfl, by simp [different]⟩

theorem recordKept_of_recordedBy {before : EquivocationState}
    (recorded : recordedBy before event = some (height, hash))
    (taken : equivocationStep before event = some after) : RecordKept height hash after := by
  cases event with
  | restart => cases recorded
  | sighting io number found =>
    rw [recordedBy] at recorded
    split_ifs at recorded with fresh
    cases recorded
    cases taken
    rw [checkEquivocation_of_unseen fresh.1 fresh.2.1]
    exact ⟨by simp [recordSighting, recordEquivocationHash, fresh.2.2],
      .inr (by simp [recordSighting])⟩

/-- A kept record is met in one of two ways: the memory has it, or the durable
read fails and a safe sighting writes the same text again. -/
theorem checkEquivocation_of_kept {found : Hash} (kept : RecordKept height hash state)
    (safe : SightingSafe state (.sighting io height found)) :
    RecordKept height hash (checkEquivocation io state height (hashHex found)).2 ∧
      (found ≠ hash → (checkEquivocation io state height (hashHex found)).1 ≠ .nil) := by
  have unreadable := getEquivocationHash_raw io kept.1
  rcases kept.2 with memory | memory
  · have same : hashHex hash = hashHex found := safe memory _ kept.1 unreadable
    have miss : durableHit io state height = none := by simp only [durableHit, unreadable]
    rw [checkEquivocation_of_unseen memory miss, ← same]
    refine ⟨⟨?_, Or.inr (by simp [recordSighting])⟩, fun different =>
      absurd (hashHex_injective same).symm different⟩
    rw [recordSighting, recordEquivocationHash]
    cases io.write <;> simp [kept.1]
  · by_cases same : found = hash
    · subst same
      refine ⟨?_, fun different => absurd rfl different⟩
      simpa [checkEquivocation, memory] using kept
    · have different : hashHex hash ≠ hashHex found := fun equal =>
        same (hashHex_injective equal).symm
      refine ⟨?_, fun _ => ?_⟩
      · simpa [checkEquivocation, memory, different] using kept
      · simp [checkEquivocation, memory, different]

theorem recordKept_step (kept : RecordKept height hash state) (safe : SightingSafe state event)
    (taken : equivocationStep state event = some after) :
    RecordKept height hash after := by
  cases event with
  | restart =>
    cases taken
    exact ⟨kept.1, Or.inl rfl⟩
  | sighting io number found =>
    cases taken
    by_cases same : height = number
    · subst same
      exact (checkEquivocation_of_kept kept safe).1
    · obtain ⟨durable, memory⟩ := checkEquivocation_of_ne io state (hashHex found) same
      exact ⟨durable.trans kept.1, memory ▸ kept.2⟩

/-- Once a record was written, it stays, and no safe sighting of another hash at
its height is accepted, in every later state of a run of safe events. -/
theorem equivocation_record_kept {before after final : EquivocationState}
    {event : EquivocationEvent} {later : List EquivocationEvent} {height : UInt64} {hash : Hash}
    (recorded : recordedBy before event = some (height, hash))
    (taken : equivocationStep before event = some after)
    (runs : Runs equivocationStep SightingSafe after later final) :
    final.durable height = some (hashHex hash) ∧
      ∀ io other, other ≠ hash → SightingSafe final (.sighting io height other) →
        (checkEquivocation io final height (hashHex other)).1 ≠ .nil := by
  have kept : RecordKept height hash final :=
    runs.invariant (recordKept_of_recordedBy recorded taken) fun _ _ _ kept safe next =>
      recordKept_step kept safe next
  exact ⟨kept.1, fun io other different safe => (checkEquivocation_of_kept kept safe).2 different⟩

theorem equivocation_record_kept_over_restart :
    ∃ final, Runs equivocationStep SightingSafe
        (checkEquivocation {} {} 5 (hashHex 7)).2 [.restart, .sighting {} 5 7] final ∧
      final.durable 5 = some (hashHex 7) := by
  have runs : Runs equivocationStep SightingSafe (checkEquivocation {} {} 5 (hashHex 7)).2
      [.restart, .sighting {} 5 7] _ :=
    Runs.snoc (Runs.snoc Runs.nil trivial rfl) (by
      intro _ value stored _
      have written : (checkEquivocation {} {} 5 (hashHex 7)).2.durable 5 = some (hashHex 7) := by
        decide +kernel
      exact Option.some.inj (stored.symm.trans written)) rfl
  exact ⟨_, runs, (@equivocation_record_kept {} _ _ (.sighting {} 5 7) _ 5 7
    (by decide +kernel) rfl runs).1⟩

/-- A fork accepted after a restart: the record of the first block cannot be read
back, and the second block overwrites it. -/
theorem equivocation_accepted_after_restart :
    ∃ first restarted,
      equivocationStep {} (.sighting {} 5 7) = some first ∧
      recordedBy {} (.sighting {} 5 7) = some (5, 7) ∧
      equivocationStep first .restart = some restarted ∧
      (checkEquivocation {} restarted 5 (hashHex 8)).1 = .nil ∧
      (checkEquivocation {} restarted 5 (hashHex 8)).2.durable 5 = some (hashHex 8) ∧
      hashHex 8 ≠ hashHex 7 :=
  ⟨_, _, rfl, by decide +kernel, rfl, by decide +kernel, by decide +kernel, by decide +kernel⟩

end Jmdn.Messaging
