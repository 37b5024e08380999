import Jmdn.Register.Settled

/-!
# Orders that miss a value

The converse of the previous module: when every order of the records ends with
the same value, the records settle it.  A position is a register that some order
reaches, with the records still to come; any of these can come next.  Each part of
the condition is read off a position after which nothing is written, or nothing
that carries a value.
-/

namespace Jmdn.Register

open List

variable {ρ τ κ α : Type}

variable {cell : Cell τ κ α} {first filled record latest blank second : ρ} {rest left : List ρ}

section

theorem exists_order_first {records : List ρ} (found : first ∈ records) :
    ∃ rest, (first :: rest).Perm records := by
  obtain ⟨before, behind, rfl⟩ := append_of_mem found
  exact ⟨before ++ behind, perm_middle.symm⟩

theorem later {rest : List ρ} (order : rest.Perm (record :: left)) (coming : first ∈ rest)
    (distinct : first ≠ record) : first ∈ left := by
  rcases mem_cons.mp (order.mem_iff.mp coming) with same | coming
  · exact absurd same distinct
  · exact coming

end

variable [LinearOrder τ] [DecidableEq κ] {feed : Feed ρ τ κ} {field : Field ρ α}
  {records : List ρ} {value : α}

/-- A record that does not change a register of this tag at the latest time: it is
outdated, has the tag, or is blank and carries nothing. -/
abbrev Quiet (feed : Feed ρ τ κ) (field : Field ρ α) (records : List ρ) (tag : κ) (record : ρ) :
    Prop :=
  feed.Latest records record → feed.tag record ≠ tag →
    feed.blank (feed.tag record) = true ∧ feed.blank tag = false ∧ field.carried record = false

theorem foldl_unchanged (newest : feed.Latest records latest)
    (reached : cell.time = feed.time latest) (known : ∀ record ∈ rest, record ∈ records)
    (quiet : ∀ record ∈ rest, Quiet feed field records cell.tag record) :
    rest.foldl (feed.next field) cell = cell := by
  induction rest with
  | nil => rfl
  | cons record rest ih =>
    have unchanged : feed.next field cell record = cell := by
      rw [Feed.next]
      split_ifs with stale
      · rfl
      have newer := le_time_of_written stale
      rw [reached] at newer
      have last := latest_of_le newest (known record mem_cons_self) newer
      have same : feed.time record = cell.time :=
        (latest_time_eq newest last).trans reached.symm
      have other : feed.tag record ≠ cell.tag := fun tagged => stale (.inr ⟨same, tagged⟩)
      obtain ⟨blank, filled, silent⟩ := quiet record mem_cons_self last other
      ext
      · exact same
      · exact mergedTag_kept blank filled
      · exact write_silent silent
    rw [foldl_cons, unchanged]
    exact ih (fun other found => known other (mem_cons_of_mem record found))
      fun other found => quiet other (mem_cons_of_mem record found)

/-- A position that some order of the records passes: the register, and the records
to come. -/
def Reached (feed : Feed ρ τ κ) (field : Field ρ α) (records : List ρ) (cell : Cell τ κ α)
    (rest : List ρ) : Prop :=
  ∃ first taken, (first :: (taken ++ rest)).Perm records ∧ feed.after field first taken = cell

namespace Reached

theorem start (feed : Feed ρ τ κ) (field : Field ρ α) (found : first ∈ records) :
    ∃ rest, records.Perm (first :: rest) ∧
      Reached feed field records (feed.fresh field first) rest := by
  obtain ⟨rest, order⟩ := exists_order_first found
  exact ⟨rest, order.symm, first, [], order, rfl⟩

section

variable (reached : Reached feed field records cell rest)
include reached

theorem mem (coming : record ∈ rest) :
    record ∈ records := by
  obtain ⟨first, taken, order, -⟩ := reached
  exact order.mem_iff.mp (by simp [coming])

/-- Any list of the records to come can be taken next. -/
theorem append {l : List ρ} (order : (l ++ left).Perm rest) :
    Reached feed field records (l.foldl (feed.next field) cell) left := by
  obtain ⟨first, taken, whole, rfl⟩ := reached
  refine ⟨first, taken ++ l, ?_, foldl_append⟩
  rw [append_assoc]
  exact ((order.append_left taken).cons first).trans whole

theorem take (coming : record ∈ rest) :
    ∃ left, rest.Perm (record :: left) ∧
      Reached feed field records (feed.next field cell record) left := by
  obtain ⟨left, order⟩ := exists_order_first coming
  exact ⟨left, order.symm, reached.append (l := [record]) order⟩

/-- Any record to come can be the last one. -/
theorem last (coming : record ∈ rest) :
    ∃ others : List ρ, (∀ other ∈ others, other ∈ records) ∧
      Reached feed field records (others.foldl (feed.next field) cell) [record] := by
  obtain ⟨others, order⟩ := exists_order_first coming
  refine ⟨others, fun other found => ?_, ?_⟩
  · exact reached.mem (order.mem_iff.mp (mem_cons_of_mem record found))
  · exact reached.append ((perm_append_singleton record others).trans order)

theorem time_le (newest : feed.Latest records latest) : cell.time ≤ feed.time latest := by
  obtain ⟨first, taken, order, rfl⟩ := reached
  have known : ∀ record ∈ first :: (taken ++ rest), record ∈ records :=
    fun record => order.mem_iff.mp
  apply foldl_next_induct records (I := fun cell _ => cell.time ≤ feed.time latest)
  · intro cell record rest found bounded
    rw [Feed.next]
    split_ifs
    · exact bounded
    · exact newest.newest record found
  · exact fun record found => known record (by simp [found])
  · exact newest.newest first (known first mem_cons_self)

end

/-- What every order ends with holds at the last position. -/
theorem ends {P : Cell τ κ α → Prop} (reached : Reached feed field records cell [])
    (always : ∀ first rest, (first :: rest).Perm records → P (feed.after field first rest)) :
    P cell := by
  obtain ⟨first, taken, order, rfl⟩ := reached
  rw [append_nil] at order
  exact always first taken order

/-- A position at the latest time that the records to come do not change. -/
theorem value_of_quiet (reached : Reached feed field records cell rest)
    (ends : EndsWith feed field records value) (newest : feed.Latest records latest)
    (time : cell.time = feed.time latest)
    (quiet : ∀ record ∈ rest, Quiet feed field records cell.tag record) : cell.value = value := by
  have final := reached.append (l := rest) (by rw [append_nil])
  rw [foldl_unchanged newest time (fun record => reached.mem) quiet] at final
  exact final.ends (P := fun cell => cell.value = value) ends

/-- The records of a kind can all be taken next, when one after the other keeps an
invariant. -/
theorem drain {I : Cell τ κ α → List ρ → Prop} {K : ρ → Prop}
    (step : ∀ cell rest, Reached feed field records cell rest → I cell rest →
      (∃ record ∈ rest, K record) → ∃ record ∈ rest,
        ∀ left, rest.Perm (record :: left) → I (feed.next field cell record) left)
    (reached : Reached feed field records cell rest) (holds : I cell rest) :
    ∃ cell left, Reached feed field records cell left ∧ I cell left ∧
      ∀ record ∈ left, ¬K record := by
  induction count : rest.length using Nat.strongRecOn generalizing cell rest with
  | _ size ih =>
    by_cases more : ∃ record ∈ rest, K record
    · obtain ⟨record, coming, keeps⟩ := step cell rest reached holds more
      obtain ⟨left, order, next⟩ := reached.take coming
      have shorter : left.length < size := by
        rw [← count, order.length_eq]
        exact Nat.lt_succ_self _
      exact ih left.length shorter next (keeps left order) rfl
    · exact ⟨cell, rest, reached, holds, by simpa using more⟩

end Reached

/-- An outdated first record whose value the second leaves. -/
theorem initial_of_second (ends : EndsWith feed field records value) (found : first ∈ records)
    (latest : feed.Latest records second) (outdated : ¬feed.Latest records first)
    (silent : field.carried second = false) (quiet : ∀ record, Quiet feed field records
      (feed.mergedTag (feed.tag first) (feed.tag second)) record) :
    field.initial first = value := by
  have distinct : second ≠ first := by
    rintro rfl
    exact outdated latest
  obtain ⟨rest, order, started⟩ := Reached.start feed field found
  obtain ⟨left, -, reached⟩ := started.take (later order latest.mem distinct)
  rw [next_written (written_of_lt (time_lt_of_not_latest latest found outdated))] at reached
  rw [← reached.value_of_quiet ends latest rfl fun record _ => quiet record, write_silent silent]
  rfl

/-- One tag for all latest records. -/
theorem settles_of_one_tag (some : records ≠ []) (tags : feed.TagsSettle records)
    (one : ∀ first second, feed.Latest records first → feed.Latest records second →
      feed.tag first = feed.tag second)
    (ends : EndsWith feed field records value) : feed.Settles field records value := by
  have gives : ∀ record, feed.Latest records record → field.initial record = value := by
    intro record latest
    obtain ⟨rest, -, reached⟩ := Reached.start feed field latest.mem
    exact reached.value_of_quiet ends latest rfl fun other _ newest distinct =>
      absurd (one other record newest latest) distinct
  refine ⟨fun record latest _ => gives record latest, ?_⟩
  by_cases all : ∀ record, feed.Latest records record → field.carried record = true
  · obtain ⟨mem, latest⟩ := exists_latest feed some
    refine .alone mem ⟨latest, fun record newest _ => all record newest⟩ ?_
    intro filled record newest
    rw [one record mem newest latest]
    exact filled
  · push Not at all
    obtain ⟨silent, latest, quiet⟩ := all
    apply Feed.Secured.uniform
    intro record found
    by_cases newest : feed.Latest records record
    · exact gives record newest
    have merged : feed.mergedTag (feed.tag record) (feed.tag silent) = feed.tag silent := by
      rcases tags.filled with ⟨filled, other, isFilled⟩ | ⟨-, blank⟩
      · rw [one filled silent other latest] at isFilled
        exact mergedTag_filled isFilled
      · exact mergedTag_empty (blank record found)
    apply initial_of_second ends found latest newest (Bool.eq_false_iff.mpr quiet)
    intro other last distinct
    rw [merged] at distinct
    exact absurd (one other silent last latest) distinct

theorem foldl_stays_filled (filled : feed.blank cell.tag = false) (rest : List ρ) :
    feed.blank (rest.foldl (feed.next field) cell).tag = false := by
  induction rest generalizing cell with
  | nil => exact filled
  | cons record rest ih => exact ih (next_stays_filled filled)

theorem next_stays_blank (blank : feed.blank cell.tag = true)
    (isBlank : feed.blank (feed.tag record) = true) :
    feed.blank (feed.next field cell record).tag = true := by
  rw [Feed.next]
  split_ifs
  · exact blank
  · change feed.blank (feed.mergedTag cell.tag (feed.tag record)) = true
    rw [mergedTag_empty blank]
    exact isBlank

omit [LinearOrder τ] [DecidableEq κ] in
theorem tag_ne_of_blank {blank filled : κ} (isBlank : feed.blank blank = true)
    (isFilled : feed.blank filled = false) : blank ≠ filled := by
  rintro rfl
  rw [isFilled] at isBlank
  cases isBlank

/-- A filled latest record next to a blank one. -/
structure Mixed (feed : Feed ρ τ κ) (records : List ρ) (filled blank : ρ) : Prop where
  tags : feed.TagsSettle records
  latest : feed.Latest records filled
  isFilled : feed.blank (feed.tag filled) = false
  latestBlank : feed.Latest records blank
  isBlank : feed.blank (feed.tag blank) = true

omit [DecidableEq κ] in
/-- A blank record, or one without the tag of the filled latest ones, is another. -/
theorem Mixed.ne (mixed : Mixed feed records filled blank)
    (tagged : feed.tag record = feed.tag filled) : blank ≠ record := by
  rintro rfl
  exact tag_ne_of_blank mixed.isBlank mixed.isFilled tagged

/-- The last record of an order that starts with a filled latest record, when it
is a blank latest one, is written. -/
theorem blank_harmless (mixed : Mixed feed records filled blank)
    (ends : EndsWith feed field records value) (carried : field.carried blank = true) :
    field.initial blank = value := by
  obtain ⟨rest, order, started⟩ := Reached.start feed field mixed.latest.mem
  obtain ⟨others, -, before⟩ := started.last (later order mixed.latestBlank.mem (mixed.ne rfl))
  have stays : feed.blank (feed.after field filled others).tag = false :=
    foldl_stays_filled mixed.isFilled others
  have final := before.append (l := [blank]) (.refl _)
  rw [foldl_cons, foldl_nil, next_written (written_of_tag
    (before.time_le mixed.latestBlank) (tag_ne_of_blank mixed.isBlank stays))] at final
  rw [← write_carried carried]
  exact final.ends (P := fun cell => cell.value = value) ends

/-- After the blank latest records, taken in an order that keeps an invariant, a
filled latest record is written, and nothing after it. -/
theorem value_after_blanks {J : Cell τ κ α → List ρ → Prop} (tags : feed.TagsSettle records)
    (ends : EndsWith feed field records value) (latest : feed.Latest records filled)
    (isFilled : feed.blank (feed.tag filled) = false)
    (choose : ∀ cell rest, Reached feed field records cell rest → feed.blank cell.tag = true →
      J cell rest → (∃ record ∈ rest, feed.Latest records record ∧
        feed.blank (feed.tag record) = true) →
      ∃ record ∈ rest, feed.blank (feed.tag record) = true ∧
        ∀ left, rest.Perm (record :: left) → J (feed.next field cell record) left)
    (found : first ∈ records) (isBlank : feed.blank (feed.tag first) = true)
    (holds : ∀ rest, records.Perm (first :: rest) → J (feed.fresh field first) rest) :
    ∃ cell rest, J cell rest ∧ (feed.write field cell filled).value = value := by
  obtain ⟨rest, order, started⟩ := Reached.start feed field found
  have apart : ∀ record, feed.blank (feed.tag record) = true → filled ≠ record :=
    fun record blank same => tag_ne_of_blank blank isFilled (congrArg feed.tag same.symm)
  obtain ⟨cell, left, reached, ⟨blank, coming, kept⟩, drained⟩ := started.drain
    (I := fun cell rest => feed.blank cell.tag = true ∧ filled ∈ rest ∧ J cell rest)
    (K := fun record => feed.Latest records record ∧ feed.blank (feed.tag record) = true)
    (by
      rintro cell rest reached ⟨blank, coming, kept⟩ more
      obtain ⟨record, present, empty, keeps⟩ := choose cell rest reached blank kept more
      exact ⟨record, present, fun left order => ⟨next_stays_blank blank empty,
        later order coming (apart record empty), keeps left order⟩⟩)
    ⟨isBlank, later order latest.mem (apart first isBlank), holds rest order⟩
  refine ⟨cell, left, kept, ?_⟩
  obtain ⟨behind, remaining, written⟩ := reached.take coming
  rw [next_written (written_of_tag (reached.time_le latest)
    (tag_ne_of_blank blank isFilled).symm)] at written
  apply written.value_of_quiet ends latest rfl
  intro record found newest distinct
  change feed.tag record ≠ feed.mergedTag cell.tag (feed.tag filled) at distinct
  rw [mergedTag_filled isFilled] at distinct
  cases empty : feed.blank (feed.tag record) with
  | true =>
    exact absurd ⟨newest, empty⟩
      (drained record (remaining.mem_iff.mpr (mem_cons_of_mem filled found)))
  | false => exact absurd (tags.agree record filled newest latest empty isFilled) distinct

/-- A filled latest record right after the blank ones is written. -/
theorem filled_harmless (mixed : Mixed feed records filled blank)
    (ends : EndsWith feed field records value) (carried : field.carried filled = true) :
    field.initial filled = value := by
  obtain ⟨cell, -, -, final⟩ := value_after_blanks (J := fun _ _ => True) mixed.tags ends
    mixed.latest mixed.isFilled
    (fun _ _ _ _ _ ⟨record, coming, _, empty⟩ => ⟨record, coming, empty, fun _ _ => trivial⟩)
    mixed.latestBlank.mem mixed.isBlank fun _ _ => trivial
  rw [← final, write_carried carried]

/-- A position before which no value has come in: the blank latest records to come
have the tag already, or one of their tag that carries nothing comes too. -/
structure Quieted (feed : Feed ρ τ κ) (field : Field ρ α) (records : List ρ) (value : α)
    (cell : Cell τ κ α) (rest : List ρ) : Prop where
  held : cell.value = value
  silence : ∀ record ∈ rest, feed.Latest records record → feed.blank (feed.tag record) = true →
    (cell.time = feed.time record ∧ cell.tag = feed.tag record) ∨
      ∃ silent ∈ rest, feed.Latest records silent ∧ feed.tag silent = feed.tag record ∧
        field.carried silent = false

/-- The records of the register's tag go first, then one of another tag that carries
nothing. -/
theorem quieted_next (reached : Reached feed field records cell rest)
    (blank : feed.blank cell.tag = true) (quieted : Quieted feed field records value cell rest)
    (more : ∃ record ∈ rest, feed.Latest records record ∧ feed.blank (feed.tag record) = true) :
    ∃ record ∈ rest, feed.blank (feed.tag record) = true ∧ ∀ left, rest.Perm (record :: left) →
      Quieted feed field records value (feed.next field cell record) left := by
  obtain ⟨held, silence⟩ := quieted
  have remains : ∀ {record other : ρ} {left : List ρ}, rest.Perm (record :: left) →
      other ∈ left → other ∈ rest := fun order coming =>
    order.mem_iff.mpr (mem_cons_of_mem _ coming)
  by_cases current : ∃ record ∈ rest, feed.Latest records record ∧
      cell.time = feed.time record ∧ cell.tag = feed.tag record
  · obtain ⟨record, coming, latest, time, tagged⟩ := current
    refine ⟨record, coming, tagged ▸ blank, fun left order => ?_⟩
    rw [next_stale (.inr ⟨time.symm, tagged.symm⟩)]
    refine ⟨held, fun other present newest empty => ?_⟩
    rcases silence other (remains order present) newest empty with same | ⟨silent, comes, facts⟩
    · exact .inl same
    by_cases taken : silent = record
    · rw [← facts.2.1, taken, ← tagged, time]
      exact .inl ⟨latest_time_eq newest latest, rfl⟩
    · exact .inr ⟨silent, later order comes taken, facts⟩
  · obtain ⟨record, coming, newest, empty⟩ := more
    rcases silence record coming newest empty with same | ⟨silent, comes, latest, tagged, quiet⟩
    · exact absurd ⟨record, coming, newest, same⟩ current
    refine ⟨silent, comes, tagged ▸ empty, fun left order => ?_⟩
    have written : ¬feed.Stale cell silent := by
      rintro (older | ⟨time, tag⟩)
      · exact absurd older (reached.time_le latest).not_gt
      · exact current ⟨silent, comes, latest, time.symm, tag.symm⟩
    rw [next_written written]
    refine ⟨(write_silent quiet).trans held, fun other present last isBlank => ?_⟩
    by_cases shared : feed.tag other = feed.tag silent
    · exact .inl ⟨latest_time_eq last latest, (mergedTag_empty blank).trans shared.symm⟩
    rcases silence other (remains order present) last isBlank with same | ⟨found, comes, facts⟩
    · exact absurd ⟨other, remains order present, last, same⟩ current
    · refine .inr ⟨found, later order comes ?_, facts⟩
      rintro rfl
      exact shared facts.2.1.symm

/-- When no tag of the latest records is carried throughout, a blank record gives
the value: it can stand before a register that takes no value any more. -/
theorem initial_of_blank (tags : feed.TagsSettle records) (ends : EndsWith feed field records value)
    (found : record ∈ records) (isBlank : feed.blank (feed.tag record) = true)
    (latest : feed.Latest records filled) (isFilled : feed.blank (feed.tag filled) = false)
    (quiet : field.carried filled = false)
    (silence : ∀ blank, feed.Latest records blank →
      ∃ silent, feed.Latest records silent ∧ feed.tag silent = feed.tag blank ∧
        field.carried silent = false) : field.initial record = value := by
  obtain ⟨cell, rest, kept, final⟩ := value_after_blanks
    (J := Quieted feed field records (field.initial record)) tags ends latest isFilled
    (fun _ _ => quieted_next) found isBlank
    (by
      refine fun rest order => ⟨rfl, fun other present newest _ => ?_⟩
      by_cases tagged : feed.Latest records record ∧ feed.tag record = feed.tag other
      · exact .inl ⟨latest_time_eq newest tagged.1, tagged.2⟩
      obtain ⟨silent, last, same, facts⟩ := silence other newest
      refine .inr ⟨silent, later order last.mem ?_, last, same, facts⟩
      rintro rfl
      exact tagged ⟨last, same⟩)
  rw [← final, write_silent quiet, kept.held]

omit [DecidableEq κ] in
theorem exists_silent_of_not_throughout
    (missing : ¬∃ mem, feed.CarriedByTag field records mem) (record : ρ)
    (latest : feed.Latest records record) :
    ∃ silent, feed.Latest records silent ∧ feed.tag silent = feed.tag record ∧
      field.carried silent = false := by
  by_contra none
  push Not at none
  exact missing ⟨record, latest, fun other newest same =>
    by simpa using none other newest same⟩

section

variable {filled blank : ρ}

/-- Filled latest records next to blank ones that carry nothing.  Over a register
that has the tag of the filled ones already, only the blank ones are written. -/
structure Shadow (feed : Feed ρ τ κ) (field : Field ρ α) (records : List ρ)
    (filled blank : ρ) : Prop extends Mixed feed records filled blank where
  silence : ∀ other, feed.Latest records other → feed.blank (feed.tag other) = true →
    field.carried other = false

section

variable (shadow : Shadow feed field records filled blank)
include shadow

section

variable (ends : EndsWith feed field records value)
include ends

/-- From a position with the tag of the filled latest records on, the blank ones leave
the value. -/
theorem shadow_value (reached : Reached feed field records cell rest)
    (coming : blank ∈ rest) (tagged : cell.tag = feed.tag filled) : cell.value = value := by
  have filledCell : feed.blank cell.tag = false := tagged ▸ shadow.isFilled
  obtain ⟨left, -, written⟩ := reached.take coming
  rw [next_written (written_of_tag (reached.time_le shadow.latestBlank)
    (tag_ne_of_blank shadow.isBlank filledCell))] at written
  rw [← written.value_of_quiet ends shadow.latestBlank rfl,
    write_silent (shadow.silence blank shadow.latestBlank shadow.isBlank)]
  intro record _ newest other
  change feed.tag record ≠ feed.mergedTag cell.tag (feed.tag blank) at other
  change _ ∧ feed.blank (feed.mergedTag cell.tag (feed.tag blank)) = false ∧ _
  rw [mergedTag_kept shadow.isBlank filledCell] at other ⊢
  cases empty : feed.blank (feed.tag record) with
  | true => exact ⟨rfl, filledCell, shadow.silence record newest empty⟩
  | false =>
    rw [tagged] at other
    exact absurd (shadow.tags.agree record filled newest shadow.latest empty shadow.isFilled) other

/-- A record with the tag of the filled latest ones, then the blank ones. -/
theorem shadow_initial (found : record ∈ records)
    (tagged : feed.tag record = feed.tag filled) : field.initial record = value := by
  obtain ⟨rest, order, started⟩ := Reached.start feed field found
  exact shadow_value shadow ends started
    (later order shadow.latestBlank.mem (shadow.ne tagged)) tagged

/-- Two records that leave the tag of the filled latest ones, then the blank
ones. -/
theorem shadow_pair (found : first ∈ records) (mem : second ∈ records) (blankFirst : blank ≠ first)
    (blankSecond : blank ≠ second) (newer : feed.time first ≤ feed.time second)
    (apart : feed.tag second ≠ feed.tag first)
    (tagged : feed.mergedTag (feed.tag first) (feed.tag second) = feed.tag filled) :
    (feed.write field (feed.fresh field first) second).value = value := by
  obtain ⟨rest, order, started⟩ := Reached.start feed field found
  obtain ⟨left, remaining, reached⟩ :=
    started.take (later order mem fun same => apart (congrArg feed.tag same))
  rw [next_written (written_of_tag newer apart)] at reached
  exact shadow_value shadow ends reached
    (later remaining (later order shadow.latestBlank.mem blankFirst) blankSecond) tagged

/-- A record with the tag of the filled latest ones backs the value. -/
theorem backed_of_endsWith
    (harmless : feed.Harmless field records value)
    (carries : feed.CarriedByTag field records filled) (found : record ∈ records)
    (tagged : feed.tag record = feed.tag filled) :
    feed.Backed field records value record := by
  have isFilled : feed.blank (feed.tag record) = false := tagged ▸ shadow.isFilled
  have blankRecord : blank ≠ record := shadow.ne tagged
  refine ⟨shadow_initial shadow ends found tagged, ?_, ?_⟩
  · intro other mem empty newer carried
    by_cases latest : feed.Latest records other
    · exact harmless other latest carried
    rw [← write_carried carried]
    apply shadow_pair shadow ends found mem blankRecord ?_ newer
      (tag_ne_of_blank empty isFilled) ((mergedTag_kept empty isFilled).trans tagged)
    rintro rfl
    exact latest shadow.latestBlank
  · intro silent other mem older
    by_cases same : feed.tag other = feed.tag filled
    · exact shadow_initial shadow ends mem same
    have apart : feed.tag record ≠ feed.tag other := fun shared =>
      same (shared.symm.trans tagged)
    by_cases latest : feed.Latest records other
    · -- then the record is a latest one itself, and carries the field
      have carried := carries.carried record (latest_of_le latest found older) tagged
      rw [silent] at carried
      cases carried
    · have blankOther : blank ≠ other := by
        rintro rfl
        exact latest shadow.latestBlank
      have held := shadow_pair shadow ends mem found blankOther blankRecord older apart
        ((mergedTag_filled isFilled).trans tagged)
      rw [write_silent silent] at held
      exact held

end

end

end

/-- Filled and blank latest records. -/
theorem settles_of_mixed (mixed : Mixed feed records filled blank)
    (ends : EndsWith feed field records value) : feed.Settles field records value := by
  obtain ⟨tags, latest, isFilled, latestBlank, isBlank⟩ := mixed
  have harmless : feed.Harmless field records value := by
    intro record newest carried
    cases empty : feed.blank (feed.tag record) with
    | true => exact blank_harmless ⟨tags, latest, isFilled, newest, empty⟩ ends carried
    | false => exact filled_harmless ⟨tags, newest, empty, latestBlank, isBlank⟩ ends carried
  refine ⟨harmless, ?_⟩
  by_cases carrier : ∃ record, feed.BlankCarrier field records record
  · obtain ⟨carrier, carriesBlank⟩ := carrier
    by_cases throughout : ∃ mem, feed.CarriedByTag field records mem
    · obtain ⟨mem, carries⟩ := throughout
      cases empty : feed.blank (feed.tag mem) with
      | true =>
        refine .alone mem carries fun filled => ?_
        rw [empty] at filled
        cases filled
      | false => exact .carried mem carrier carries empty carriesBlank
    · have silence := exists_silent_of_not_throughout throughout
      obtain ⟨silent, newest, same, quiet⟩ := silence filled latest
      refine .blanks carrier carriesBlank fun record found empty => ?_
      exact initial_of_blank tags ends found empty newest (same ▸ isFilled) quiet
        silence
  · have silence : ∀ other, feed.Latest records other → feed.blank (feed.tag other) = true →
        field.carried other = false := fun other newest empty =>
      Bool.eq_false_iff.mpr fun carried => carrier ⟨other, newest, empty, carried⟩
    have shadow : Shadow feed field records filled blank :=
      ⟨⟨tags, latest, isFilled, latestBlank, isBlank⟩, silence⟩
    by_cases throughout : ∃ mem, feed.CarriedByTag field records mem
    · obtain ⟨mem, carries⟩ := throughout
      have sameTag : feed.tag mem = feed.tag filled := by
        cases empty : feed.blank (feed.tag mem) with
        | true => exact absurd ⟨mem, carries.latest, empty,
            carries.carried mem carries.latest rfl⟩ carrier
        | false => exact tags.agree mem filled carries.latest latest empty isFilled
      have carriesFilled : feed.CarriedByTag field records filled :=
        ⟨latest, fun record newest same => carries.carried record newest (same.trans sameTag.symm)⟩
      exact .backed filled carriesFilled fun record found tagged =>
        backed_of_endsWith shadow ends harmless carriesFilled found tagged
    · have quiet := exists_silent_of_not_throughout throughout
      obtain ⟨silent, newest, same, carries⟩ := quiet filled latest
      have silentFilled : feed.blank (feed.tag silent) = false := same ▸ isFilled
      apply Feed.Secured.uniform
      intro record found
      cases empty : feed.blank (feed.tag record) with
      | true =>
        exact initial_of_blank tags ends found empty newest silentFilled carries
          quiet
      | false =>
        by_cases last : feed.Latest records record
        · exact shadow_initial shadow ends found (tags.agree record filled last latest empty isFilled)
        apply initial_of_second ends found newest last carries
        rw [mergedTag_filled silentFilled]
        intro other final distinct
        cases vacant : feed.blank (feed.tag other) with
        | true => exact ⟨rfl, silentFilled, silence other final vacant⟩
        | false =>
          exact absurd (tags.agree other silent final newest vacant silentFilled) distinct

/-- The condition is exact, once the tags settle. -/
theorem endsWith_iff (some : records ≠ []) (tags : feed.TagsSettle records) :
    EndsWith feed field records value ↔ feed.Settles field records value := by
  constructor
  · intro ends
    by_cases mixed : ∃ filled blank, Mixed feed records filled blank
    · obtain ⟨filled, blank, mixed⟩ := mixed
      exact settles_of_mixed mixed ends
    · apply settles_of_one_tag some tags ?_ ends
      intro first second latest newest
      cases empty : feed.blank (feed.tag first) with
      | true =>
        rcases tags.filled with ⟨filled, last, isFilled⟩ | ⟨one, -⟩
        · exact absurd ⟨filled, first, tags, last, isFilled, latest, empty⟩ mixed
        · exact one first second latest newest
      | false =>
        cases vacant : feed.blank (feed.tag second) with
        | true => exact absurd ⟨first, second, tags, latest, empty, newest, vacant⟩ mixed
        | false => exact tags.agree first second latest newest empty vacant
  · exact endsWith_of_settles

section

variable {tag : κ}

/-- From the latest time on blank latest records leave a blank tag. -/
theorem foldl_blank_latest (newest : feed.Latest records latest)
    (reached : cell.time = feed.time latest)
    (blanks : ∀ record, feed.Latest records record → feed.blank (feed.tag record) = true)
    (known : ∀ record ∈ rest, record ∈ records) (blank : feed.blank cell.tag = true) :
    feed.blank (rest.foldl (feed.next field) cell).tag = true := by
  suffices ends : (rest.foldl (feed.next field) cell).time = feed.time latest ∧
      feed.blank (rest.foldl (feed.next field) cell).tag = true from ends.2
  apply foldl_next_induct records
    (I := fun cell _ => cell.time = feed.time latest ∧ feed.blank cell.tag = true)
    ?_ known ⟨reached, blank⟩
  · rintro cell record rest found ⟨reached, blank⟩
    rw [Feed.next]
    split_ifs with stale
    · exact ⟨reached, blank⟩
    have newer := le_time_of_written stale
    rw [reached] at newer
    have last := latest_of_le newest found newer
    refine ⟨latest_time_eq newest last, ?_⟩
    change feed.blank (feed.mergedTag cell.tag (feed.tag record)) = true
    rw [mergedTag_empty blank]
    exact blanks record last

/-- A latest record at the end, after another latest one, leaves its own tag,
unless it is blank and a filled one came before. -/
theorem tag_of_last {last : ρ} (latest : feed.Latest records first)
    (newest : feed.Latest records last) (distinct : last ≠ first)
    (ends : ∀ first rest, (first :: rest).Perm records → (feed.after field first rest).tag = tag)
    (merges : feed.blank (feed.tag last) = false ∨
      ∀ record, feed.Latest records record → feed.blank (feed.tag record) = true) :
    feed.tag last = tag := by
  obtain ⟨rest, order, started⟩ := Reached.start feed field latest.mem
  obtain ⟨others, known, before⟩ := started.last (later order newest.mem distinct)
  have final := before.append (l := [last]) (.refl _)
  rw [foldl_cons, foldl_nil] at final
  rw [← final.ends (P := fun cell => cell.tag = tag) ends]
  by_cases stale : feed.Stale (feed.after field first others) last
  · rcases stale with older | same
    · exact absurd older (before.time_le newest).not_gt
    · exact same.2.trans (congrArg Cell.tag (next_stale (.inr same))).symm
  · apply Eq.trans ?_ (congrArg Cell.tag (next_written stale)).symm
    rcases merges with filled | blanks
    · exact (mergedTag_filled filled).symm
    · exact (mergedTag_empty
        (foldl_blank_latest latest rfl blanks known (blanks first latest))).symm

/-- Tags that every order ends with alike settle. -/
theorem tagsSettle_of_ends (some : records ≠ [])
    (ends : ∀ first rest, (first :: rest).Perm records →
      (feed.after field first rest).tag = tag) : feed.TagsSettle records := by
  have agree : ∀ first second, feed.Latest records first → feed.Latest records second →
      (feed.blank (feed.tag first) = false ∧ feed.blank (feed.tag second) = false ∨
        ∀ record, feed.Latest records record → feed.blank (feed.tag record) = true) →
      feed.tag first = feed.tag second := by
    intro first second latest newest merges
    by_cases same : second = first
    · rw [same]
    · rw [tag_of_last newest latest (Ne.symm same) ends (merges.imp_left And.left),
        tag_of_last latest newest same ends (merges.imp_left And.right)]
  constructor
  · intro first second latest newest filled other
    exact agree first second latest newest (.inl ⟨filled, other⟩)
  · by_cases filled : ∃ record, feed.Latest records record ∧ feed.blank (feed.tag record) = false
    · exact .inl filled
    · have blanks : ∀ record, feed.Latest records record →
          feed.blank (feed.tag record) = true := fun record latest => by
        cases blank : feed.blank (feed.tag record) with
        | true => rfl
        | false => exact absurd ⟨record, latest, blank⟩ filled
      refine .inr ⟨fun first second latest newest =>
        agree first second latest newest (.inr blanks), ?_⟩
      intro record found
      obtain ⟨latest, newest⟩ := exists_latest feed some
      obtain ⟨rest, order⟩ := exists_order_first newest.mem
      have empty : feed.blank tag = true := by
        rw [← ends latest rest order]
        exact foldl_blank_latest newest rfl blanks
          (fun other present => order.mem_iff.mp (mem_cons_of_mem latest present))
          (blanks latest newest)
      cases blank : feed.blank (feed.tag record) with
      | true => rfl
      | false =>
        obtain ⟨behind, lead⟩ := exists_order_first found
        have stays : feed.blank (feed.after field record behind).tag = false :=
          foldl_stays_filled blank behind
        rw [ends record behind lead, empty] at stays
        cases stays

end

end Jmdn.Register
