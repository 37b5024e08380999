import Mathlib.Data.List.Basic

/-!
# Maximal runs

The maximal runs of consecutive numbers with a property, and a scan that lists
them: it keeps the runs that have ended and the start of a run that is still open.
-/

namespace Jmdn.Interval

/-- The numbers from `first` to `last` have the property, and the run can be extended
on neither side. -/
structure MaximalRun (property : Nat → Prop) (first last : Nat) : Prop where
  ordered : first ≤ last
  inside : ∀ number, first ≤ number → number ≤ last → property number
  before : first = 0 ∨ ¬ property (first - 1)
  after : ¬ property (last + 1)

/-- A list of all maximal runs, ascending and with a number between any two. -/
structure ListsRuns (property : Nat → Prop) (runs : List (Nat × Nat)) : Prop where
  all : ∀ run, run ∈ runs ↔ MaximalRun property run.1 run.2
  apart : runs.Pairwise fun one other => one.2 + 1 < other.1

/-- The run that reaches up to the cursor, if there is one. -/
def OpenRun (property : Nat → Prop) (cursor : Nat) : Option Nat → Prop
  | none => cursor = 0 ∨ ¬ property (cursor - 1)
  | some start => start < cursor ∧ (∀ number, start ≤ number → number < cursor → property number) ∧
      (start = 0 ∨ ¬ property (start - 1))

/-- The numbers below the cursor have been scanned. -/
structure Scanned (property : Nat → Prop) (cursor : Nat) (runs : List (Nat × Nat))
    (start : Option Nat) : Prop where
  ended : ∀ run, run ∈ runs ↔ MaximalRun property run.1 run.2 ∧ run.2 + 1 < cursor
  opened : OpenRun property cursor start
  apart : runs.Pairwise fun one other => one.2 + 1 < other.1

/-- The open run as an ended one. -/
def endedRun (start : Option Nat) (last : Nat) : List (Nat × Nat) :=
  start.elim [] fun first => [(first, last)]

namespace Scanned

variable {property : Nat → Prop} {cursor : Nat} {runs : List (Nat × Nat)} {start : Option Nat}

/-- Nothing has been scanned, and nothing lies below. -/
theorem empty (nothing : ∀ number < cursor, ¬ property number) :
    Scanned property cursor [] none := by
  refine ⟨fun run => ?_, ?_, List.Pairwise.nil⟩
  · refine iff_of_false List.not_mem_nil ?_
    rintro ⟨maximal, below⟩
    have order := maximal.ordered
    exact nothing run.1 (by omega) (maximal.inside run.1 (Nat.le_refl _) order)
  · rcases Nat.eq_zero_or_pos cursor with zero | pos
    · exact .inl zero
    · exact .inr (nothing (cursor - 1) (by omega))

section

variable (scanned : Scanned property cursor runs start)
include scanned

/-- A number with the property opens a run or extends the open one. -/
theorem extend (holds : property cursor) :
    Scanned property (cursor + 1) runs (start <|> some cursor) := by
  refine ⟨fun run => ?_, ?_, scanned.apart⟩
  · rw [scanned.ended run]
    refine and_congr_right fun maximal => ⟨fun below => by omega, fun below => ?_⟩
    have different : run.2 + 1 ≠ cursor := by
      intro same
      exact maximal.after (same ▸ holds)
    omega
  · cases start with
    | none =>
      refine ⟨Nat.lt_succ_self cursor, fun number above below => ?_, scanned.opened⟩
      have same : number = cursor := by omega
      exact same ▸ holds
    | some first =>
      obtain ⟨below, inside, before⟩ := scanned.opened
      refine ⟨by omega, fun number above upTo => ?_, before⟩
      rcases Nat.lt_succ_iff_lt_or_eq.mp upTo with less | same
      · exact inside number above less
      · exact same ▸ holds

theorem extend_to {target : Nat} (ahead : cursor < target)
    (holds : ∀ number, cursor ≤ number → number < target → property number) :
    Scanned property target runs (start <|> some cursor) := by
  induction target with
  | zero => exact absurd ahead (Nat.not_lt_zero cursor)
  | succ target ih =>
    rcases Nat.lt_succ_iff_lt_or_eq.mp ahead with before | rfl
    · have previous := ih before fun number above below =>
        holds number above (Nat.lt_succ_of_lt below)
      have next := previous.extend (holds target (Nat.le_of_lt before) (Nat.lt_succ_self target))
      have same : ((start <|> some cursor) <|> some target) = (start <|> some cursor) := by
        cases start <;> rfl
      rwa [same] at next
    · exact scanned.extend (holds cursor (Nat.le_refl _) (Nat.lt_succ_self cursor))

/-- Only the open run can end right below the cursor. -/
theorem mem_endedRun_iff (fails : ¬ property cursor) {run : Nat × Nat} :
    run ∈ endedRun start (cursor - 1) ↔
      MaximalRun property run.1 run.2 ∧ run.2 + 1 = cursor := by
  have opened := scanned.opened
  cases start with
  | none =>
    refine iff_of_false List.not_mem_nil ?_
    rintro ⟨maximal, rfl⟩
    rcases opened with zero | absent
    · exact absurd zero (Nat.succ_ne_zero _)
    · exact absent (maximal.inside run.2 maximal.ordered (Nat.le_refl _))
  | some first =>
    obtain ⟨below, inside, before⟩ := opened
    rw [endedRun, Option.elim_some, List.mem_singleton]
    constructor
    · rintro rfl
      have next : cursor - 1 + 1 = cursor := by omega
      refine ⟨⟨by omega, fun number above upTo => inside number above ?_, before, ?_⟩, next⟩
      · dsimp only at upTo
        omega
      · rwa [next]
    · rintro ⟨maximal, rfl⟩
      have same : run.1 = first := by
        have order := maximal.ordered
        have notLess : ¬ run.1 < first := by
          intro less
          rcases before with zero | absent
          · omega
          · exact absent (maximal.inside (first - 1) (by omega) (by omega))
        have notMore : ¬ first < run.1 := by
          intro less
          rcases maximal.before with zero | absent
          · omega
          · exact absent (inside (run.1 - 1) (by omega) (by omega))
        omega
      rw [← same]
      rfl

/-- A number without the property ends the open run. -/
theorem close (fails : ¬ property cursor) :
    Scanned property (cursor + 1) (runs ++ endedRun start (cursor - 1)) none := by
  refine ⟨fun run => ?_, Or.inr fails, ?_⟩
  · rw [List.mem_append, scanned.ended run, scanned.mem_endedRun_iff fails, ← and_or_left]
    exact and_congr_right fun _ => by omega
  · rw [List.pairwise_append]
    refine ⟨scanned.apart, ?_, fun one mem other last => ?_⟩
    · cases start with
      | none => exact List.Pairwise.nil
      | some first => exact List.pairwise_singleton _ _
    · obtain ⟨ended, below⟩ := (scanned.ended one).mp mem
      obtain ⟨maximal, reaches⟩ := (scanned.mem_endedRun_iff fails).mp last
      -- the number after an ended run lacks the property, so it is not in the last run
      have order := maximal.ordered
      by_contra touching
      exact ended.after (maximal.inside (one.2 + 1) (by omega) (by omega))

/-- The scan is complete once no number with the property is left. -/
theorem finish (nothing : ∀ number, cursor ≤ number → ¬ property number) :
    ListsRuns property (runs ++ endedRun start (cursor - 1)) := by
  have closed := scanned.close (nothing cursor (Nat.le_refl _))
  refine ⟨fun run => ?_, closed.apart⟩
  rw [closed.ended run]
  refine and_iff_left_of_imp fun maximal => ?_
  by_contra beyond
  exact nothing run.2 (by omega) (maximal.inside run.2 maximal.ordered (Nat.le_refl _))

end

end Scanned

end Jmdn.Interval
