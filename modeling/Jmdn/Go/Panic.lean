import Mathlib.Algebra.Group.Nat.Defs
import Jmdn.Go.Errors

/-!
# Calls that may panic

A Go call that does not return a value returns an error or panics.  The panics
here are reads through a nil pointer and slices longer than the runtime can
allocate.
-/

namespace Jmdn.Go

variable {α β : Type}

inductive Fault where
  | nilDereference
  | lengthOutOfRange
  deriving DecidableEq, Repr

/-- Why a call did not return a value. -/
inductive Stop where
  | error (cause : String)
  | panicked (fault : Fault)
  deriving DecidableEq, Repr

theorem ok_bind (value : α) (next : α → Except Stop β) : ((.ok value) >>= next) = next value :=
  rfl

/-- The call ends in a panic. -/
def Panics (outcome : Except Stop α) : Prop :=
  ∃ fault, outcome = .error (.panicked fault)

/-- The call ends in an error that its caller gets. -/
def Reports (outcome : Except Stop α) : Prop :=
  ∃ cause, outcome = .error (.error cause)

@[simp]
theorem not_panics_ok (value : α) : ¬ Panics (.ok value) := by
  rintro ⟨fault, crashed⟩
  cases crashed

@[simp]
theorem not_panics_error (cause : String) : ¬ Panics (.error (.error cause) : Except Stop α) := by
  rintro ⟨fault, crashed⟩
  cases crashed

@[simp]
theorem panics_panicked (fault : Fault) : Panics (.error (.panicked fault) : Except Stop α) :=
  ⟨fault, rfl⟩

/-- A chain panics at its first link or after it. -/
theorem panics_bind_iff {first : Except Stop α} {next : α → Except Stop β} :
    Panics (first >>= next) ↔ Panics first ∨ ∃ value, first = .ok value ∧ Panics (next value) := by
  constructor
  · rintro ⟨fault, crashed⟩
    rcases bind_eq_error crashed with early | ⟨value, done, late⟩
    · exact .inl ⟨fault, early⟩
    · exact .inr ⟨value, done, fault, late⟩
  · rintro (⟨fault, rfl⟩ | ⟨value, rfl, late⟩)
    · exact ⟨fault, rfl⟩
    · exact late

/-- A call that returns, reports or panics, and that does not return when it
failed, reports every failure as soon as it does not panic. -/
theorem reports_of_not_panics {outcome : Except Stop α} {failed : Prop}
    (honest : ∀ value, outcome = .ok value → ¬ failed) (calm : ¬ Panics outcome)
    (failure : failed) : Reports outcome := by
  cases outcome with
  | ok value => exact absurd failure (honest value rfl)
  | error stop =>
    cases stop with
    | error cause => exact ⟨cause, rfl⟩
    | panicked fault => exact absurd (panics_panicked fault) calm

/-- `*pointer`. -/
def dereference : Option α → Except Stop α
  | none => .error (.panicked .nilDereference)
  | some value => .ok value

/-- What the runtime can allocate at once on a 64-bit machine. -/
structure Platform where
  maxAlloc : Nat
  addressable : maxAlloc < 2 ^ 63

/-- `make([]T, length)` for elements of `size` bytes, each set to `element`. -/
def makeSlice (platform : Platform) (size length : Nat) (element : α) :
    Except Stop (List α) :=
  if size * length ≤ platform.maxAlloc then
    .ok (List.replicate length element)
  else
    .error (.panicked .lengthOutOfRange)

theorem makeSlice_eq_ok_iff {platform : Platform} {size length : Nat} {element : α}
    {slice : List α} :
    makeSlice platform size length element = .ok slice ↔
      size * length ≤ platform.maxAlloc ∧ slice = List.replicate length element := by
  unfold makeSlice
  split
  · next fits => simp [fits, eq_comm]
  · next wide => simp [wide]

/-- Filling every place of a slice by one call that may panic. -/
theorem mapM_const_eq_ok_iff {places : List α} {call : Except Stop β} {filled : List β} :
    places.mapM (fun _ => call) = .ok filled ↔
      filled.length = places.length ∧ ∀ value ∈ filled, call = .ok value := by
  induction places generalizing filled with
  | nil =>
    simp only [List.mapM_nil, List.length_nil, List.length_eq_zero_iff]
    constructor
    · intro done
      cases done
      simp
    · rintro ⟨rfl, -⟩
      rfl
  | cons place rest ih =>
    rw [List.mapM_cons]
    constructor
    · intro done
      obtain ⟨value, first, done⟩ := bind_eq_ok done
      obtain ⟨values, others, done⟩ := bind_eq_ok done
      cases done
      obtain ⟨long, each⟩ := ih.mp others
      refine ⟨by simp [long], fun other mem => ?_⟩
      rcases List.mem_cons.mp mem with rfl | mem
      · exact first
      · exact each other mem
    · rintro ⟨long, each⟩
      cases filled with
      | nil => cases long
      | cons value values =>
        have first := each value (List.mem_cons_self ..)
        have others := ih.mpr ⟨Nat.succ.inj long, fun other mem =>
          each other (List.mem_cons_of_mem _ mem)⟩
        rw [others, first]
        rfl

end Jmdn.Go
