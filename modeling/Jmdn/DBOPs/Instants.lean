import Jmdn.DBOPs.Restore

/-!
# Last writer wins across units

An `UpdatedAt` value stands for an instant in the unit its size tells.
`mergeAccountForWrite` compares the instants in `int64` nanoseconds, in which the
upper part of each band comes around.
-/

namespace Jmdn.DBOPs

open Config

variable {ts : Int64}

/-- The unit of an `UpdatedAt` value, in nanoseconds. -/
def unitNanos (ts : Int64) : Int64 :=
  if ts < 100000000000 then 1000000000
  else if ts < 100000000000000 then 1000000
  else if ts < 100000000000000000 then 1000
  else 1

/-- The instant an `UpdatedAt` value denotes, in nanoseconds. -/
def instant (ts : Int64) : Int := ts.toInt * (unitNanos ts).toInt

/-- How many times `int64` comes around on the way to an instant. -/
def turns (ts : Int64) : Int := (instant ts + 2 ^ 63) / 2 ^ 64

theorem normalizeUpdatedAtNanos_eq_mul (pos : 0 < ts) :
    normalizeUpdatedAtNanos ts = ts * unitNanos ts := by
  unfold normalizeUpdatedAtNanos unitNanos
  rw [if_neg (Int64.not_le.mpr pos)]
  split_ifs <;> simp

/-- The normalized value is the instant without the turns. -/
theorem toInt_normalizeUpdatedAtNanos (pos : 0 < ts) :
    (normalizeUpdatedAtNanos ts).toInt = instant ts - 2 ^ 64 * turns ts := by
  rw [normalizeUpdatedAtNanos_eq_mul pos, Int64.toInt_mul, Int.bmod_def]
  unfold turns instant
  split <;> omega

theorem mergeAccountForWrite_isSome_iff (addressHex : Address → String)
    (stored incoming : Account) :
    (mergeAccountForWrite addressHex (some stored) incoming).isSome ↔
      (normalizeUpdatedAtNanos stored.updatedAt).toInt <
          (normalizeUpdatedAtNanos incoming.updatedAt).toInt ∨
        (normalizeUpdatedAtNanos stored.updatedAt).toInt =
          (normalizeUpdatedAtNanos incoming.updatedAt).toInt ∧
        stored.balance ≠ incoming.balance := by
  simp only [mergeAccountForWrite, gt_iff_lt, Int64.lt_iff_toInt_lt, ← Int64.toInt_inj]
  split
  · next less => exact iff_of_false (by simp) (by omega)
  next notLess =>
  split
  · next tie =>
    apply iff_of_false (by simp)
    rintro (later | ⟨-, differ⟩)
    · omega
    · exact differ tie.2
  next noTie =>
  refine iff_of_true rfl ?_
  by_cases same : stored.balance = incoming.balance
  · exact .inl (lt_of_le_of_ne (Int.not_lt.mp notLess) fun equal => noTie ⟨equal, same⟩)
  · exact (Int.lt_or_eq_of_le (Int.not_lt.mp notLess)).imp_right (⟨·, same⟩)

/-- A later record is written and an earlier one is not exactly when the instants
are further apart than their turns; at equal distance the balances decide. -/
theorem merge_follows_instants_iff (addressHex : Address → String) {stored incoming : Account}
    (storedPositive : 0 < stored.updatedAt) (incomingPositive : 0 < incoming.updatedAt) :
    ((instant stored.updatedAt < instant incoming.updatedAt →
          (mergeAccountForWrite addressHex (some stored) incoming).isSome) ∧
        (instant incoming.updatedAt < instant stored.updatedAt →
          mergeAccountForWrite addressHex (some stored) incoming = none)) ↔
      let gap := instant incoming.updatedAt - instant stored.updatedAt
      let around := 2 ^ 64 * (turns incoming.updatedAt - turns stored.updatedAt)
      (0 < gap → around < gap ∨ around = gap ∧ stored.balance ≠ incoming.balance) ∧
        (gap < 0 → gap < around ∨ around = gap ∧ stored.balance = incoming.balance) := by
  rw [← Option.not_isSome_iff_eq_none, mergeAccountForWrite_isSome_iff,
    toInt_normalizeUpdatedAtNanos storedPositive, toInt_normalizeUpdatedAtNanos incomingPositive]
  dsimp only
  by_cases same : stored.balance = incoming.balance <;>
    simp only [same, ne_eq, not_true, not_false_iff, and_true, and_false, or_false] <;> omega

def writtenAt (ts : Int64) : Account := { updatedAt := ts }

/-- In the year 2286 seconds no longer fit: the record loses to one from 2255. -/
theorem later_record_loses :
    instant 9000000000 < instant 10000000000 ∧
      mergeAccountForWrite (fun _ => "") (some (writtenAt 9000000000)) (writtenAt 10000000000) =
        none := by
  decide

theorem later_milliseconds_written :
    (mergeAccountForWrite (fun _ => "") (some (writtenAt 1700000000))
      (writtenAt 1700000060000)).isSome :=
  ((merge_follows_instants_iff _ (by decide) (by decide)).mpr (by decide)).1 (by decide)

end Jmdn.DBOPs
