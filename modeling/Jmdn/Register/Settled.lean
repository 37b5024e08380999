import Jmdn.Register.Basic

/-!
# Records whose order does not matter

A collection of records settles a field when every order of them ends with the
same value.  Only the latest records are written for certain, and of those with
one tag perhaps only the first.  So the value is certain when all latest records
of one tag carry it, or when no record says anything else; the definitions below
say what else can hide a carried value.
-/

namespace Jmdn.Register

open List

variable {ρ τ κ α : Type} [LinearOrder τ]

variable {cell : Cell τ κ α} {record carrier first : ρ} {rest : List ρ}
  {I : Cell τ κ α → List ρ → Prop}

namespace Feed

/-- The tag at the end is the same for every order. -/
structure TagsSettle (feed : Feed ρ τ κ) (records : List ρ) : Prop where
  agree : ∀ first second, feed.Latest records first → feed.Latest records second →
    feed.blank (feed.tag first) = false → feed.blank (feed.tag second) = false →
      feed.tag first = feed.tag second
  filled : (∃ record, feed.Latest records record ∧ feed.blank (feed.tag record) = false) ∨
    ((∀ first second, feed.Latest records first → feed.Latest records second →
      feed.tag first = feed.tag second) ∧
      ∀ record ∈ records, feed.blank (feed.tag record) = true)

/-- A register with the tag of this record holds the value: the record gives it,
no blank record that may follow takes it away, and if the record does not carry
it then every record that may stand before it gives it too. -/
structure Backed (feed : Feed ρ τ κ) (field : Field ρ α) (records : List ρ) (value : α)
    (record : ρ) : Prop where
  gives : field.initial record = value
  later : ∀ other ∈ records, feed.blank (feed.tag other) = true →
    feed.time record ≤ feed.time other → field.carried other = true →
      field.initial other = value
  earlier : field.carried record = false → ∀ other ∈ records,
    feed.time other ≤ feed.time record → field.initial other = value

/-- Every latest record with this one's tag carries the field. -/
structure CarriedByTag (feed : Feed ρ τ κ) (field : Field ρ α) (records : List ρ)
    (member : ρ) : Prop where
  latest : feed.Latest records member
  carried : ∀ record, feed.Latest records record → feed.tag record = feed.tag member →
    field.carried record = true

/-- A blank latest record carries the field. -/
structure BlankCarrier (feed : Feed ρ τ κ) (field : Field ρ α) (records : List ρ)
    (record : ρ) : Prop where
  latest : feed.Latest records record
  blank : feed.blank (feed.tag record) = true
  carried : field.carried record = true

/-- Why a value cannot be missed. -/
inductive Secured (feed : Feed ρ τ κ) (field : Field ρ α) (records : List ρ) (value : α) : Prop
  | uniform (gives : ∀ record ∈ records, field.initial record = value)
  | blanks (carrier : ρ) (carries : feed.BlankCarrier field records carrier)
      (gives : ∀ record ∈ records, feed.blank (feed.tag record) = true →
        field.initial record = value)
  | alone (member : ρ) (carries : feed.CarriedByTag field records member)
      (alone : feed.blank (feed.tag member) = false → ∀ record, feed.Latest records record →
        feed.blank (feed.tag record) = false)
  | carried (member carrier : ρ) (carries : feed.CarriedByTag field records member)
      (filled : feed.blank (feed.tag member) = false)
      (blank : feed.BlankCarrier field records carrier)
  | backed (member : ρ) (carries : feed.CarriedByTag field records member)
      (backed : ∀ record ∈ records, feed.tag record = feed.tag member →
        feed.Backed field records value record)

/-- The condition for every order of the records to end with the value: no
latest record carries another one, and it cannot be missed. -/
structure Settles (feed : Feed ρ τ κ) (field : Field ρ α) (records : List ρ) (value : α) :
    Prop where
  harmless : ∀ record, feed.Latest records record → field.carried record = true →
    field.initial record = value
  secured : feed.Secured field records value

/-- No latest record carries another value. -/
abbrev Harmless (feed : Feed ρ τ κ) (field : Field ρ α) (records : List ρ) (value : α) : Prop :=
  ∀ record, feed.Latest records record → field.carried record = true → field.initial record = value

/-- A latest record is still to come or the register has reached its time. -/
structure Underway (feed : Feed ρ τ κ) (latest : ρ) (cell : Cell τ κ α) (rest : List ρ) :
    Prop where
  bounded : cell.time ≤ feed.time latest
  reached : latest ∈ rest ∨ cell.time = feed.time latest

end Feed

section

variable {feed : Feed ρ τ κ} {field : Field ρ α} {records rest : List ρ}
  {latest record : ρ} {cell : Cell τ κ α}

section

variable (newest : feed.Latest records latest)
include newest

theorem latest_of_le (found : record ∈ records)
    (later : feed.time latest ≤ feed.time record) : feed.Latest records record :=
  ⟨found, fun other member => (newest.newest other member).trans later⟩

theorem time_lt_of_not_latest (found : record ∈ records)
    (outdated : ¬feed.Latest records record) : feed.time record < feed.time latest :=
  lt_of_not_ge fun later => outdated (latest_of_le newest found later)

theorem latest_time_eq (other : feed.Latest records record) : feed.time record = feed.time latest :=
  le_antisymm (newest.newest record other.mem) (other.newest latest newest.mem)

/-- A single latest record that carries the field. -/
theorem settles_of_newest (only : ∀ record, feed.Latest records record → record = latest)
    (carried : field.carried latest = true) :
    feed.Settles field records (field.initial latest) := by
  refine ⟨fun record last _ => by rw [only record last], ?_⟩
  refine .alone latest ⟨newest, fun record last _ => ?_⟩ fun filled record last => ?_
  · rw [only record last]
    exact carried
  · rw [only record last]
    exact filled

theorem underway_fresh (found : record ∈ records) (member : latest ∈ record :: rest) :
    feed.Underway latest (feed.fresh field record) rest := by
  refine ⟨newest.newest record found, ?_⟩
  rcases mem_cons.mp member with rfl | member
  · exact .inr rfl
  · exact .inl member

end

/-- A write by a record that is not a latest one leaves them all to come. -/
theorem underway_outdated (under : feed.Underway latest cell (record :: rest))
    (older : feed.time record < feed.time latest) (written : ¬feed.Stale cell record) :
    latest ∈ rest := by
  rcases under.reached with member | reached
  · rcases mem_cons.mp member with rfl | member
    · exact absurd older (lt_irrefl _)
    · exact member
  · have newer := le_time_of_written written
    rw [reached] at newer
    exact absurd older newer.not_gt

variable [DecidableEq κ]

theorem underway_next (newest : feed.Latest records latest) (found : record ∈ records)
    (under : feed.Underway latest cell (record :: rest)) :
    feed.Underway latest (feed.next field cell record) rest := by
  have bounded : (feed.next field cell record).time ≤ feed.time latest := by
    rw [Feed.next]
    split_ifs
    · exact under.bounded
    · exact newest.newest record found
  refine ⟨bounded, ?_⟩
  rcases under.reached with member | reached
  · rcases mem_cons.mp member with rfl | member
    · exact .inr (le_antisymm bounded (record_time_le_next feed field cell latest))
    · exact .inl member
  · have grows := time_le_next feed field cell record
    rw [reached] at grows
    exact .inr (le_antisymm bounded grows)

end

section

variable [DecidableEq κ] {feed : Feed ρ τ κ} {field : Field ρ α} {records : List ρ} {value : α}

/-- Every order of the records ends with the value. -/
def EndsWith (feed : Feed ρ τ κ) (field : Field ρ α) (records : List ρ) (value : α) : Prop :=
  ∀ first rest, (first :: rest).Perm records → (feed.after field first rest).value = value

/-- An invariant of the register and the records to come that says at the end
what the value is. -/
theorem endsWith_of_invariant
    (start : ∀ first rest, (first :: rest).Perm records → I (feed.fresh field first) rest)
    (step : ∀ cell record rest, record ∈ records → I cell (record :: rest) →
      I (feed.next field cell record) rest) (finish : ∀ cell, I cell [] → cell.value = value) :
    EndsWith feed field records value := by
  intro first rest order
  apply finish
  apply foldl_next_induct records step
  · intro record found
    exact order.mem_iff.mp (mem_cons_of_mem first found)
  · exact start first rest order

theorem endsWith_uniform (gives : ∀ record ∈ records, field.initial record = value) :
    EndsWith feed field records value := by
  apply endsWith_of_invariant (I := fun cell _ => cell.value = value)
  · intro first rest order
    exact gives first (order.mem_iff.mp mem_cons_self)
  · intro cell record rest found held
    rw [Feed.next]
    split_ifs
    · exact held
    · exact write_harmless (fun _ => gives record found) held
  · intro cell held
    exact held

/-- An invariant with a latest record in view. -/
theorem endsWith_of_underway {latest : ρ} (newest : feed.Latest records latest)
    (start : ∀ first rest, first ∈ records → (∀ record ∈ records, record ∈ first :: rest) →
      I (feed.fresh field first) rest)
    (step : ∀ cell record rest, record ∈ records → feed.Underway latest cell (record :: rest) →
      I cell (record :: rest) → I (feed.next field cell record) rest)
    (finish : ∀ cell, I cell [] → cell.value = value) : EndsWith feed field records value := by
  apply endsWith_of_invariant (I := fun cell rest => feed.Underway latest cell rest ∧ I cell rest)
  · intro first rest order
    have found := order.mem_iff.mp (mem_cons_self (a := first) (l := rest))
    have all : ∀ record ∈ records, record ∈ first :: rest := fun record => order.mem_iff.mpr
    exact ⟨underway_fresh newest found (all latest newest.mem), start first rest found all⟩
  · rintro cell record rest found ⟨under, holds⟩
    exact ⟨underway_next newest found under, step cell record rest found under holds⟩
  · exact fun cell ends => finish cell ends.2

/-- A blank latest record that carries the value is written over every register
whose tag is not blank. -/
theorem blankCarrier_next (carries : feed.BlankCarrier field records carrier)
    (given : field.initial carrier = value) (under : feed.Underway carrier cell (record :: rest))
    (member : carrier ∈ record :: rest) (filled : feed.blank cell.tag = false) :
    (feed.next field cell record).value = value ∨
      (carrier ∈ rest ∧ feed.blank (feed.next field cell record).tag = false) := by
  rcases mem_cons.mp member with rfl | member
  · have other : feed.tag carrier ≠ cell.tag := by
      intro same
      rw [← same, carries.blank] at filled
      cases filled
    rw [next_written (written_of_tag under.bounded other), write_carried carries.carried]
    exact .inl given
  · exact .inr ⟨member, next_stays_filled filled⟩

/-- The first latest record of a tag is written: until it comes, the register does
not have their tag at their time. -/
structure Awaited (feed : Feed ρ τ κ) (member : ρ) (cell : Cell τ κ α) (rest : List ρ) :
    Prop where
  present : member ∈ rest
  apart : cell.time = feed.time member → cell.tag ≠ feed.tag member

variable {member : ρ}

omit [DecidableEq κ] in
theorem awaited_outdated (latest : feed.Latest records member) (found : record ∈ records)
    (outdated : ¬feed.Latest records record)
    (under : feed.Underway member cell (record :: rest)) (written : ¬feed.Stale cell record) :
    Awaited feed member (feed.write field cell record) rest := by
  have older := time_lt_of_not_latest latest found outdated
  exact ⟨underway_outdated under older written, fun reached => absurd reached older.ne⟩

/-- A register with the tag holds the value: the invariant says when that tag can
have come up, and what an early register holds when all early records agree. -/
structure BackedCell (feed : Feed ρ τ κ) (field : Field ρ α) (records : List ρ) (value : α)
    (member : ρ) (cell : Cell τ κ α) : Prop where
  source : cell.tag = feed.tag member →
    ∃ record ∈ records, feed.tag record = feed.tag member ∧ feed.time record ≤ cell.time
  early : (∀ record ∈ records, feed.time record ≤ cell.time → field.initial record = value) →
    cell.value = value
  held : cell.tag = feed.tag member → cell.value = value

theorem backedCell_next
    (backed : ∀ record ∈ records, feed.tag record = feed.tag member →
      feed.Backed field records value record) (found : record ∈ records)
    (held : BackedCell feed field records value member cell) :
    BackedCell feed field records value member (feed.next field cell record) := by
  rw [Feed.next]
  split_ifs with stale
  · exact held
  have newer := le_time_of_written stale
  refine ⟨?_, ?_, ?_⟩
  · intro same
    rcases mergedTag_cases feed cell.tag (feed.tag record) with taken | ⟨kept, -, -⟩
    · exact ⟨record, found, taken.symm.trans same, le_rfl⟩
    · obtain ⟨source, known, tagged, older⟩ := held.source (kept.symm.trans same)
      exact ⟨source, known, tagged, older.trans newer⟩
  · intro gives
    apply write_harmless
    · intro _
      exact gives record found le_rfl
    · exact held.early fun other known older => gives other known (older.trans newer)
  · intro same
    by_cases tagged : feed.tag record = feed.tag member
    · have backs := backed record found tagged
      cases carried : field.carried record with
      | true => rw [write_carried carried, backs.gives]
      | false =>
        rw [write_silent carried]
        exact held.early fun other known older =>
          backs.earlier carried other known (older.trans newer)
    · rcases mergedTag_cases feed cell.tag (feed.tag record) with taken | ⟨kept, blank, -⟩
      · exact absurd (taken.symm.trans same) tagged
      · have shared := kept.symm.trans same
        obtain ⟨source, known, sourceTag, older⟩ := held.source shared
        exact write_harmless
          ((backed source known sourceTag).later record found blank (older.trans newer))
          (held.held shared)

section

variable (harmless : feed.Harmless field records value)

include harmless

theorem endsWith_blanks (carries : feed.BlankCarrier field records carrier)
    (gives : ∀ record ∈ records, feed.blank (feed.tag record) = true →
      field.initial record = value) : EndsWith feed field records value := by
  have given := harmless carrier carries.latest carries.carried
  apply endsWith_of_underway carries.latest
    (I := fun cell rest => cell.value = value ∨ (carrier ∈ rest ∧ feed.blank cell.tag = false))
  · intro first rest found all
    cases blank : feed.blank (feed.tag first) with
    | true => exact .inl (gives first found blank)
    | false =>
      rcases mem_cons.mp (all carrier carries.latest.mem) with rfl | member
      · rw [carries.blank] at blank
        cases blank
      · exact .inr ⟨member, blank⟩
  · rintro cell record rest found under (held | ⟨member, filled⟩)
    · rw [Feed.next]
      split_ifs with stale
      · exact .inl held
      by_cases quiet : field.carried record = true → field.initial record = value
      · exact .inl (write_harmless quiet held)
      · -- only an outdated record that is not blank can carry another value
        have filled : feed.blank (feed.tag record) = false :=
          Bool.eq_false_iff.mpr fun blank => quiet fun _ => gives record found blank
        have older := time_lt_of_not_latest carries.latest found
          fun latest => quiet (harmless record latest)
        refine .inr ⟨underway_outdated under older stale, ?_⟩
        change feed.blank (feed.mergedTag cell.tag (feed.tag record)) = false
        rw [mergedTag_filled filled]
        exact filled
    · exact blankCarrier_next carries given under member filled
  · rintro cell (held | ⟨member, -⟩)
    · exact held
    · cases member

theorem awaited_fresh (carries : feed.CarriedByTag field records member)
    (found : record ∈ records) (present : member ∈ record :: rest) :
    (feed.fresh field record).value = value ∨
      Awaited feed member (feed.fresh field record) rest := by
  by_cases tagged : feed.Latest records record ∧ feed.tag record = feed.tag member
  · exact .inl (harmless record tagged.1 (carries.carried record tagged.1 tagged.2))
  rcases mem_cons.mp present with rfl | present
  · exact absurd ⟨carries.latest, rfl⟩ tagged
  · exact .inr ⟨present, fun reached same =>
      tagged ⟨latest_of_le carries.latest found reached.ge, same⟩⟩

/-- A held value is lost to an outdated record only. -/
theorem held_next (latest : feed.Latest records member)
    (found : record ∈ records) (under : feed.Underway member cell (record :: rest))
    (held : cell.value = value) :
    (feed.next field cell record).value = value ∨
      Awaited feed member (feed.next field cell record) rest := by
  rw [Feed.next]
  split_ifs with stale
  · exact .inl held
  by_cases newest : feed.Latest records record
  · exact .inl (write_harmless (harmless record newest) held)
  · exact .inr (awaited_outdated latest found newest under stale)

section

variable (carries : feed.CarriedByTag field records member)
include carries

/-- The tag of the awaited records comes up without them in one way: a blank
latest record is written over an outdated register with that tag. -/
theorem awaited_next (found : record ∈ records) (under : feed.Underway member cell (record :: rest))
    (awaited : Awaited feed member cell (record :: rest)) :
    (feed.next field cell record).value = value ∨
      Awaited feed member (feed.next field cell record) rest ∨
      (¬feed.Stale cell record ∧ feed.Latest records record ∧
        feed.blank (feed.tag record) = true ∧ cell.tag = feed.tag member ∧
        feed.blank (feed.tag member) = false) := by
  rw [Feed.next]
  split_ifs with stale
  · refine .inr (.inl ⟨?_, awaited.apart⟩)
    rcases mem_cons.mp awaited.present with rfl | present
    · rcases stale with older | ⟨same, tagged⟩
      · exact absurd older under.bounded.not_gt
      · exact absurd tagged.symm (awaited.apart same.symm)
    · exact present
  · by_cases latest : feed.Latest records record
    · by_cases tagged : feed.tag record = feed.tag member
      · have carried := carries.carried record latest tagged
        rw [write_carried carried]
        exact .inl (harmless record latest carried)
      · have present : member ∈ rest := by
          rcases mem_cons.mp awaited.present with rfl | present
          · exact absurd rfl tagged
          · exact present
        rcases mergedTag_cases feed cell.tag (feed.tag record) with taken | ⟨kept, blank, filled⟩
        · exact .inr (.inl ⟨present, fun _ same => tagged (taken.symm.trans same)⟩)
        by_cases shared : cell.tag = feed.tag member
        · rw [shared] at filled
          exact .inr (.inr ⟨stale, latest, blank, shared, filled⟩)
        · exact .inr (.inl ⟨present, fun _ same => shared (kept.symm.trans same)⟩)
    · exact .inr (.inl (awaited_outdated carries.latest found latest under stale))

theorem endsWith_alone
    (alone : feed.blank (feed.tag member) = false → ∀ record, feed.Latest records record →
      feed.blank (feed.tag record) = false) : EndsWith feed field records value := by
  apply endsWith_of_underway carries.latest
    (I := fun cell rest => cell.value = value ∨ Awaited feed member cell rest)
  · exact fun first rest found all =>
      awaited_fresh harmless carries found (all member carries.latest.mem)
  · rintro cell record rest found under (held | awaited)
    · exact held_next harmless carries.latest found under held
    · rcases awaited_next harmless carries found under awaited with
        held | awaited | ⟨-, latest, blank, -, filled⟩
      · exact .inl held
      · exact .inr awaited
      · rw [alone filled record latest] at blank
        cases blank
  · rintro cell (held | awaited)
    · exact held
    · cases awaited.present

theorem endsWith_carried (blank : feed.BlankCarrier field records carrier) :
    EndsWith feed field records value := by
  have given := harmless carrier blank.latest blank.carried
  apply endsWith_of_underway blank.latest (I := fun cell rest =>
    feed.Underway member cell rest ∧ (cell.value = value ∨ Awaited feed member cell rest ∨
      (carrier ∈ rest ∧ feed.blank cell.tag = false)))
  · intro first rest found all
    have present := all member carries.latest.mem
    exact ⟨underway_fresh carries.latest found present,
      (awaited_fresh harmless carries found present).imp_right .inl⟩
  · rintro cell record rest found underBlank ⟨under, cases⟩
    refine ⟨underway_next carries.latest found under, ?_⟩
    rcases cases with held | awaited | ⟨present, filled⟩
    · exact (held_next harmless carries.latest found under held).imp_right .inl
    · rcases awaited_next harmless carries found under awaited with
        held | awaited | ⟨-, -, -, shared, filled⟩
      · exact .inl held
      · exact .inr (.inl awaited)
      · -- the register was outdated, so the blank carrier has not come either
        rcases underBlank.reached with present | reached
        · rw [← shared] at filled
          exact (blankCarrier_next blank given underBlank present filled).imp_right .inr
        · rw [latest_time_eq carries.latest blank.latest] at reached
          exact absurd shared (awaited.apart reached)
    · exact (blankCarrier_next blank given underBlank present filled).imp_right .inr
  · rintro cell ⟨-, held | awaited | ⟨present, -⟩⟩
    · exact held
    · cases awaited.present
    · cases present

theorem endsWith_backed (backed : ∀ record ∈ records, feed.tag record = feed.tag member →
      feed.Backed field records value record) : EndsWith feed field records value := by
  apply endsWith_of_underway carries.latest (I := fun cell rest =>
    BackedCell feed field records value member cell ∧
      (cell.value = value ∨ Awaited feed member cell rest))
  · intro first rest found all
    refine ⟨⟨?_, ?_, ?_⟩, awaited_fresh harmless carries found (all member carries.latest.mem)⟩
    · exact fun tagged => ⟨first, found, tagged, le_rfl⟩
    · exact fun gives => gives first found le_rfl
    · exact fun tagged => (backed first found tagged).gives
  · rintro cell record rest found under ⟨cellBacked, cases⟩
    have nextBacked := backedCell_next backed found cellBacked
    refine ⟨nextBacked, ?_⟩
    rcases cases with held | awaited
    · exact held_next harmless carries.latest found under held
    rcases awaited_next harmless carries found under awaited with
      held | awaited | ⟨written, -, blank, shared, filled⟩
    · exact .inl held
    · exact .inr awaited
    · refine .inl (nextBacked.held ?_)
      rw [next_written written]
      rw [← shared] at filled ⊢
      exact mergedTag_kept blank filled
  · rintro cell ⟨-, held | awaited⟩
    · exact held
    · cases awaited.present

end

end

theorem endsWith_of_settles (settles : feed.Settles field records value) :
    EndsWith feed field records value := by
  cases settles.secured with
  | uniform gives => exact endsWith_uniform gives
  | blanks carrier carries gives => exact endsWith_blanks settles.harmless carries gives
  | alone member carries alone => exact endsWith_alone settles.harmless carries alone
  | carried member carrier carries _ blank => exact endsWith_carried settles.harmless carries blank
  | backed member carries backed => exact endsWith_backed settles.harmless carries backed

end

section

variable [DecidableEq κ] {feed : Feed ρ τ κ} {field : Field ρ α} {records : List ρ}

variable {winner : ρ}

/-- The tag of a latest record that wins over every tag the records can leave,
and that no latest record replaces. -/
structure WinningTag (feed : Feed ρ τ κ) (records : List ρ) (winner : ρ) : Prop where
  latest : feed.Latest records winner
  wins : (∀ record ∈ records, feed.blank (feed.tag record) = true) ∨
    feed.blank (feed.tag winner) = false
  stays : ∀ record, feed.Latest records record →
    feed.mergedTag (feed.tag winner) (feed.tag record) = feed.tag winner

omit [DecidableEq κ] in
theorem exists_winningTag (some : records ≠ []) (tags : feed.TagsSettle records) :
    ∃ winner, WinningTag feed records winner := by
  rcases tags.filled with ⟨winner, latest, filled⟩ | ⟨agree, blank⟩
  · refine ⟨winner, latest, .inr filled, ?_⟩
    intro record newest
    cases same : feed.blank (feed.tag record) with
    | true => exact mergedTag_kept same filled
    | false =>
      rw [mergedTag_filled same]
      exact tags.agree record winner newest latest same filled
  · obtain ⟨winner, latest⟩ := exists_latest feed some
    refine ⟨winner, latest, .inl blank, ?_⟩
    intro record newest
    rw [mergedTag_empty (blank winner latest.mem)]
    exact agree record winner newest latest

/-- On the way to the winning tag. -/
structure TagCell (feed : Feed ρ τ κ) (winner : ρ) (cell : Cell τ κ α) (rest : List ρ) :
    Prop where
  weak : feed.blank (feed.tag winner) = true → feed.blank cell.tag = true
  under : feed.Underway winner cell rest
  won : winner ∈ rest ∨ cell.tag = feed.tag winner

omit [DecidableEq κ] in
theorem weakTag (winning : WinningTag feed records winner) (found : record ∈ records)
    (weak : feed.blank (feed.tag winner) = true) :
    feed.blank (feed.tag record) = true := by
  rcases winning.wins with blank | filled
  · exact blank record found
  · rw [filled] at weak
    cases weak

omit [DecidableEq κ] in
theorem tagCell_fresh (winning : WinningTag feed records winner) (found : first ∈ records)
    (present : winner ∈ first :: rest) :
    TagCell feed winner (feed.fresh field first) rest := by
  refine ⟨weakTag winning found, underway_fresh winning.latest found present, ?_⟩
  rcases mem_cons.mp present with rfl | present
  · exact .inr rfl
  · exact .inl present

section

variable (winning : WinningTag feed records winner)
include winning

theorem tagCell_next (found : record ∈ records) (held : TagCell feed winner cell (record :: rest)) :
    TagCell feed winner (feed.next field cell record) rest := by
  have under : feed.Underway winner (feed.next field cell record) rest :=
    underway_next winning.latest found held.under
  rw [Feed.next] at under ⊢
  split_ifs at under ⊢ with stale
  · refine ⟨held.weak, under, ?_⟩
    rcases held.won with present | won
    · rcases mem_cons.mp present with rfl | present
      · rcases stale with older | ⟨-, same⟩
        · exact absurd older held.under.bounded.not_gt
        · exact .inr same.symm
      · exact .inl present
    · exact .inr won
  · have written : (feed.write field cell record).tag =
        feed.mergedTag cell.tag (feed.tag record) := rfl
    refine ⟨?_, under, ?_⟩
    · intro weak
      rw [written, mergedTag_empty (held.weak weak)]
      exact weakTag winning found weak
    · rw [written]
      by_cases latest : feed.Latest records record
      · rcases held.won with present | won
        · rcases mem_cons.mp present with rfl | present
          · right
            cases blank : feed.blank (feed.tag winner) with
            | true => exact mergedTag_empty (held.weak blank)
            | false => exact mergedTag_filled blank
          · exact .inl present
        · rw [won]
          exact .inr (winning.stays record latest)
      · have older := time_lt_of_not_latest winning.latest found latest
        exact .inl (underway_outdated held.under older stale)

/-- Every order ends at the latest time with the winning tag. -/
theorem after_winningTag (order : (first :: rest).Perm records) :
    (feed.after field first rest).time = feed.time winner ∧
      (feed.after field first rest).tag = feed.tag winner := by
  have known : ∀ record ∈ first :: rest, record ∈ records := fun record => order.mem_iff.mp
  have start : TagCell feed winner (feed.fresh field first) rest :=
    tagCell_fresh winning (known first mem_cons_self)
      (order.mem_iff.mpr winning.latest.mem)
  have ends : TagCell feed winner (feed.after field first rest) [] :=
    foldl_next_induct records (fun _ _ _ => tagCell_next winning)
      (fun record found => known record (mem_cons_of_mem first found)) start
  constructor
  · rcases ends.under.reached with present | reached
    · cases present
    · exact reached
  · rcases ends.won with present | won
    · cases present
    · exact won

/-- A register that has settled takes no record any more. -/
theorem next_settled (harmless : feed.Harmless field records cell.value)
    (reached : cell.time = feed.time winner) (won : cell.tag = feed.tag winner)
    (found : record ∈ records) : feed.next field cell record = cell := by
  rw [Feed.next]
  split_ifs with stale
  · rfl
  have newer := le_time_of_written stale
  rw [reached] at newer
  have latest := latest_of_le winning.latest found newer
  ext
  · exact (latest_time_eq winning.latest latest).trans reached.symm
  · change feed.mergedTag cell.tag (feed.tag record) = cell.tag
    rw [won]
    exact winning.stays record latest
  · exact write_harmless (harmless record latest) rfl

end

end

end Jmdn.Register
