import Mathlib.Algebra.BigOperators.Group.List.Basic
import Mathlib.Algebra.Group.Pi.Basic
import Mathlib.Data.Set.Insert

/-!
# Effects on a ledger

A ledger assigns to each key the number its record denotes, or `none` where the
record cannot be read as a number; such a record counts as zero.  An effect is a
change per key.  `Adds` says that a write turned one ledger into another by
adding an effect, writing the keys of a given set and no others.
-/

namespace Jmdn.Ledger

variable {κ G : Type} [AddCommGroup G]

/-- The number held under a key. -/
def value (ledger : κ → Option G) (key : κ) : G :=
  (ledger key).getD 0

/-- `after` is `before` plus `delta`; exactly the touched keys were written. -/
structure Adds (before after : κ → Option G) (delta : κ → G) (touched : Set κ) : Prop where
  written : ∀ key ∈ touched, after key = some (value before key + delta key)
  kept : ∀ key ∉ touched, after key = before key
  idle : ∀ key ∉ touched, delta key = 0

namespace Adds

variable {before middle after : κ → Option G} {delta first second : κ → G}
variable {touched earlier later : Set κ}

theorem refl (ledger : κ → Option G) : Adds ledger ledger 0 ∅ where
  written := by simp
  kept _ _ := rfl
  idle _ _ := rfl

/-- The number under every key moves by the effect. -/
theorem value_eq (adds : Adds before after delta touched) (key : κ) :
    value after key = value before key + delta key := by
  by_cases mem : key ∈ touched
  · simp [value, adds.written key mem]
  · simp [value, adds.kept key mem, adds.idle key mem]

theorem trans (one : Adds before middle first earlier) (two : Adds middle after second later) :
    Adds before after (first + second) (earlier ∪ later) where
  written key mem := by
    by_cases last : key ∈ later
    · rw [two.written key last, one.value_eq, Pi.add_apply, add_assoc]
    · have only : key ∈ earlier := mem.resolve_right last
      rw [two.kept key last, one.written key only, Pi.add_apply, two.idle key last, add_zero]
  kept key absent := by
    rw [two.kept key fun mem => absent (.inr mem),
      one.kept key fun mem => absent (.inl mem)]
  idle key absent := by
    rw [Pi.add_apply, one.idle key fun mem => absent (.inl mem),
      two.idle key fun mem => absent (.inr mem), add_zero]

theorem single [DecidableEq κ] {key : κ} {change : G}
    (written : after key = some (value before key + change))
    (kept : ∀ other, other ≠ key → after other = before other) :
    Adds before after (Pi.single key change) {key} where
  written := by
    rintro other rfl
    rw [written, Pi.single_eq_same]
  kept := kept
  idle other absent := by
    have different : other ≠ key := by simpa using absent
    simp [different]

/-- Two writes of the same effect agree when every key either of them touches
could be read as a number before. -/
theorem agree {other : κ → Option G} (one : Adds before after delta earlier)
    (two : Adds before other delta later)
    (readable : ∀ key, key ∈ earlier ∨ key ∈ later → (before key).isSome) :
    after = other := by
  funext key
  -- a key only one of them writes keeps its number, since the effect there is zero
  have number : ∀ {touched : Set κ} {result : κ → Option G}, Adds before result delta touched →
      (before key).isSome → result key = some (value before key + delta key) := by
    intro touched result adds some
    by_cases mem : key ∈ touched
    · exact adds.written key mem
    · obtain ⟨held, stored⟩ := Option.isSome_iff_exists.mp some
      rw [adds.kept key mem, adds.idle key mem, add_zero, value, stored, Option.getD_some]
  by_cases mem : key ∈ earlier ∨ key ∈ later
  · rw [number one (readable key mem), number two (readable key mem)]
  · rw [one.kept key fun found => mem (.inl found),
      two.kept key fun found => mem (.inr found)]

/-- A readable key is unchanged exactly when the effect there is zero. -/
theorem eq_iff (adds : Adds before after delta touched) {key : κ}
    (readable : key ∈ touched → (before key).isSome) :
    after key = before key ↔ delta key = 0 := by
  by_cases mem : key ∈ touched
  · obtain ⟨held, stored⟩ := Option.isSome_iff_exists.mp (readable mem)
    rw [adds.written key mem, value, stored, Option.getD_some, Option.some.injEq,
      add_eq_left]
  · simp [adds.kept key mem, adds.idle key mem]

/-- An effect may be replaced by an equal one, and the touched set likewise. -/
theorem congr {changed : κ → G} {keys : Set κ} (adds : Adds before after delta touched)
    (sameDelta : delta = changed) (sameKeys : touched = keys) :
    Adds before after changed keys := by
  subst sameDelta sameKeys
  exact adds

end Adds

end Jmdn.Ledger
