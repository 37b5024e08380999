import Mathlib.Data.List.MinMax

/-!
# Last-writer-wins registers

A register is filled by records that come one at a time.  A record has a time and
a tag.  An older record is dropped, and so is one of the same time and tag; any
other record is written.  A write takes the record's time, and its tag unless
that is blank and the stored one is not; a field of the register takes the
record's value when the record carries one, and otherwise stays.
-/

namespace Jmdn.Register

/-- How the records of a register are compared. -/
structure Feed (ρ τ κ : Type) where
  time : ρ → τ
  tag : ρ → κ
  blank : κ → Bool

/-- A field of the register: the value a first record gives it, and whether a
later record carries one. -/
structure Field (ρ α : Type) where
  initial : ρ → α
  carried : ρ → Bool

/-- The register as one of its fields sees it. -/
@[ext]
structure Cell (τ κ α : Type) where
  time : τ
  tag : κ
  value : α

variable {ρ τ κ α : Type}

namespace Feed

/-- A first record is written as it is. -/
def fresh (feed : Feed ρ τ κ) (field : Field ρ α) (record : ρ) : Cell τ κ α where
  time := feed.time record
  tag := feed.tag record
  value := field.initial record

/-- The tag after a write. -/
def mergedTag (feed : Feed ρ τ κ) (stored incoming : κ) : κ :=
  if feed.blank incoming && !feed.blank stored then stored else incoming

/-- Write a record over a stored one. -/
def write (feed : Feed ρ τ κ) (field : Field ρ α) (cell : Cell τ κ α) (record : ρ) :
    Cell τ κ α where
  time := feed.time record
  tag := feed.mergedTag cell.tag (feed.tag record)
  value := if field.carried record then field.initial record else cell.value

variable [LinearOrder τ]

/-- A record is dropped. -/
def Stale (feed : Feed ρ τ κ) (cell : Cell τ κ α) (record : ρ) : Prop :=
  feed.time record < cell.time ∨ (feed.time record = cell.time ∧ feed.tag record = cell.tag)

/-- A record no other one is newer than. -/
structure Latest (feed : Feed ρ τ κ) (records : List ρ) (record : ρ) : Prop where
  mem : record ∈ records
  newest : ∀ other ∈ records, feed.time other ≤ feed.time record

variable [DecidableEq κ]

instance (feed : Feed ρ τ κ) (cell : Cell τ κ α) (record : ρ) :
    Decidable (feed.Stale cell record) :=
  inferInstanceAs (Decidable (_ ∨ _))

/-- Take one more record. -/
def next (feed : Feed ρ τ κ) (field : Field ρ α) (cell : Cell τ κ α) (record : ρ) :
    Cell τ κ α :=
  if feed.Stale cell record then cell else feed.write field cell record

/-- The register after a nonempty sequence of records. -/
def after (feed : Feed ρ τ κ) (field : Field ρ α) (first : ρ) (rest : List ρ) : Cell τ κ α :=
  rest.foldl (feed.next field) (feed.fresh field first)

end Feed

variable {feed : Feed ρ τ κ} {field : Field ρ α} {cell : Cell τ κ α} {record : ρ}

theorem mergedTag_filled {stored incoming : κ} (filled : feed.blank incoming = false) :
    feed.mergedTag stored incoming = incoming := by
  simp [Feed.mergedTag, filled]

theorem mergedTag_kept {stored incoming : κ} (blank : feed.blank incoming = true)
    (filled : feed.blank stored = false) : feed.mergedTag stored incoming = stored := by
  simp [Feed.mergedTag, blank, filled]

theorem mergedTag_empty {stored incoming : κ} (blank : feed.blank stored = true) :
    feed.mergedTag stored incoming = incoming := by
  simp [Feed.mergedTag, blank]

/-- The tag after a write is one of the two, and the stored one only when the
record's is blank and it is not. -/
theorem mergedTag_cases (feed : Feed ρ τ κ) (stored incoming : κ) :
    feed.mergedTag stored incoming = incoming ∨
      (feed.mergedTag stored incoming = stored ∧ feed.blank incoming = true ∧
        feed.blank stored = false) := by
  cases blank : feed.blank incoming with
  | false => exact .inl (mergedTag_filled blank)
  | true =>
    cases filled : feed.blank stored with
    | false => exact .inr ⟨mergedTag_kept blank filled, rfl, rfl⟩
    | true => exact .inl (mergedTag_empty filled)

/-- A tag that is not blank is never replaced by a blank one. -/
theorem mergedTag_stays_filled {stored incoming : κ} (filled : feed.blank stored = false) :
    feed.blank (feed.mergedTag stored incoming) = false := by
  cases blank : feed.blank incoming with
  | false => rw [mergedTag_filled blank, blank]
  | true => rw [mergedTag_kept blank filled, filled]

theorem write_carried (carried : field.carried record = true) :
    (feed.write field cell record).value = field.initial record :=
  if_pos carried

theorem write_silent (silent : field.carried record = false) :
    (feed.write field cell record).value = cell.value := by
  simp [Feed.write, silent]

/-- A record that carries no other value leaves the value. -/
theorem write_harmless {value : α}
    (harmless : field.carried record = true → field.initial record = value)
    (held : cell.value = value) : (feed.write field cell record).value = value := by
  cases carried : field.carried record with
  | false => rw [write_silent carried, held]
  | true => rw [write_carried carried, harmless carried]

section

variable [LinearOrder τ]

/-- A written record is not older than the stored one. -/
theorem le_time_of_written (written : ¬feed.Stale cell record) :
    cell.time ≤ feed.time record :=
  le_of_not_gt fun older => written (.inl older)

theorem written_of_lt (newer : cell.time < feed.time record) : ¬feed.Stale cell record := by
  rintro (older | ⟨same, -⟩)
  · exact lt_asymm newer older
  · exact newer.ne same.symm

theorem written_of_tag (newer : cell.time ≤ feed.time record)
    (other : feed.tag record ≠ cell.tag) : ¬feed.Stale cell record := by
  rintro (older | ⟨-, same⟩)
  · exact newer.not_gt older
  · exact other same

theorem exists_latest (feed : Feed ρ τ κ) {records : List ρ} (some : records ≠ []) :
    ∃ record, feed.Latest records record := by
  obtain ⟨best, found⟩ := Option.ne_none_iff_exists'.mp
    (mt (List.argmax_eq_none (f := feed.time)).mp some)
  exact ⟨best, List.argmax_mem found, fun _ mem => List.le_of_mem_argmax mem found⟩

end

variable [LinearOrder τ] [DecidableEq κ]

theorem next_stale (stale : feed.Stale cell record) : feed.next field cell record = cell :=
  if_pos stale

theorem next_written (written : ¬feed.Stale cell record) :
    feed.next field cell record = feed.write field cell record :=
  if_neg written

theorem next_stays_filled (filled : feed.blank cell.tag = false) :
    feed.blank (feed.next field cell record).tag = false := by
  rw [Feed.next]
  split_ifs
  · exact filled
  · exact mergedTag_stays_filled filled

theorem time_le_next (feed : Feed ρ τ κ) (field : Field ρ α) (cell : Cell τ κ α) (record : ρ) :
    cell.time ≤ (feed.next field cell record).time := by
  rw [Feed.next]
  split_ifs with stale
  · exact le_rfl
  · exact le_time_of_written stale

/-- A record is never newer than the register that has taken it. -/
theorem record_time_le_next (feed : Feed ρ τ κ) (field : Field ρ α) (cell : Cell τ κ α)
    (record : ρ) : feed.time record ≤ (feed.next field cell record).time := by
  rw [Feed.next]
  split_ifs with stale
  · rcases stale with older | ⟨same, -⟩
    · exact older.le
    · exact same.le
  · exact le_rfl

/-- What every record preserves, with the records still to come in view, holds
at the end. -/
theorem foldl_next_induct (records : List ρ) {I : Cell τ κ α → List ρ → Prop}
    (step : ∀ cell record rest, record ∈ records → I cell (record :: rest) →
      I (feed.next field cell record) rest)
    {rest : List ρ} (known : ∀ record ∈ rest, record ∈ records)
    (start : I cell rest) : I (rest.foldl (feed.next field) cell) [] := by
  induction rest generalizing cell with
  | nil => exact start
  | cons record rest ih =>
    rw [List.foldl_cons]
    apply ih
    · intro other found
      exact known other (List.mem_cons_of_mem record found)
    · exact step cell record rest (known record List.mem_cons_self) start

end Jmdn.Register
