import Mathlib.Data.Prod.Lex
import Jmdn.Go.Decimal
import Mathlib.Data.List.Induction

/-!
# Stream identifiers and the drain marks

The identifiers Redis gives to stream entries, `ms-seq` in decimal, and the two
high-water marks of `DB_OPs/Nodeinfo/account_sync_drainwait.go`.  The comparison
of the source is the lexicographic order on the two numbers; a malformed
identifier compares as not greater or equal.
-/

namespace Jmdn.Nodeinfo

open Go List

/-- `strconv.ParseUint(text, 10, 64)`. -/
def parseUint (digits : List Char) : Option UInt64 :=
  ((decimalDigits digits).filter (· < 2 ^ 64)).map UInt64.ofNat

/-- `parseStreamID`. -/
def parseStreamID (id : String) : Option (UInt64 × UInt64) :=
  match id.toList.dropWhile (· ≠ '-') with
  | [] => none
  | _ :: seq =>
    let ms := id.toList.takeWhile (· ≠ '-')
    if ms = [] ∨ seq = [] then none
    else
      match parseUint ms, parseUint seq with
      | some first, some second => some (first, second)
      | _, _ => none

/-- `streamIDGTE`. -/
def streamIDGTE (a b : String) : Bool :=
  match parseStreamID a, parseStreamID b with
  | some (ams, aseq), some (bms, bseq) => if ams ≠ bms then ams > bms else aseq ≥ bseq
  | _, _ => false

/-- `noteEnqueuedID`: the mark after recording one identifier. -/
def noteEnqueuedID (lastEnqueued id : String) : String :=
  if (parseStreamID id).isNone then lastEnqueued
  else if lastEnqueued = "" ∨ streamIDGTE id lastEnqueued then id
  else lastEnqueued

/-- `noteDrainedIDs`. -/
def noteDrainedIDs (lastDrained : String) (ids : List String) : String :=
  ids.foldl
    (fun mark id =>
      if (parseStreamID id).isNone then mark
      else if mark = "" ∨ streamIDGTE id mark then id
      else mark) lastDrained

/-- `drainConfirmed`. -/
def drainConfirmed (lastDrained target : String) : Bool :=
  if target = "" then true
  else if lastDrained = "" then false
  else streamIDGTE lastDrained target

/-! ## The order of identifiers -/

/-- Where an identifier stands in the stream. -/
def position (id : String) : Option (Nat ×ₗ Nat) :=
  (parseStreamID id).map fun parts => toLex (parts.1.toNat, parts.2.toNat)

theorem streamIDGTE_iff {a b : String} :
    streamIDGTE a b = true ↔
      ∃ first ∈ position a, ∃ second ∈ position b, second ≤ first := by
  unfold streamIDGTE position
  cases left : parseStreamID a with
  | none => simp
  | some first =>
    cases right : parseStreamID b with
    | none => simp
    | some second =>
      obtain ⟨ams, aseq⟩ := first
      obtain ⟨bms, bseq⟩ := second
      simp only [Option.map_some, Option.mem_def, Option.some.injEq, exists_eq_left',
        Prod.Lex.toLex_le_toLex]
      by_cases same : ams = bms
      · subst same
        simp [UInt64.le_iff_toNat_le]
      · have other : bms.toNat ≠ ams.toNat := fun equal => same (UInt64.toNat_inj.mp equal).symm
        simp [same, other, UInt64.lt_iff_toNat_lt]

theorem streamIDGTE_trans {a b c : String} (first : streamIDGTE a b = true)
    (second : streamIDGTE b c = true) : streamIDGTE a c = true := by
  rw [streamIDGTE_iff] at first second ⊢
  obtain ⟨high, placedA, middle, placedB, above⟩ := first
  obtain ⟨middle', placedB', low, placedC, below⟩ := second
  have same : middle = middle' := by
    rw [Option.mem_def] at placedB placedB'
    exact Option.some.inj (placedB.symm.trans placedB')
  subst same
  exact ⟨high, placedA, low, placedC, below.trans above⟩

theorem position_empty : position "" = none := by decide

theorem streamIDGTE_empty (id : String) : streamIDGTE "" id = false := by
  rw [Bool.eq_false_iff]
  intro above
  obtain ⟨first, placed, _⟩ := streamIDGTE_iff.mp above
  rw [position_empty] at placed
  cases placed

/-- The drain mark moves to one of the recorded identifiers or stays. -/
theorem noteDrainedIDs_cases (lastDrained : String) (ids : List String) :
    noteDrainedIDs lastDrained ids = lastDrained ∨ noteDrainedIDs lastDrained ids ∈ ids := by
  unfold noteDrainedIDs
  induction ids using List.reverseRecOn with
  | nil => exact .inl rfl
  | append_singleton ids id ih =>
    rw [foldl_append, foldl_cons, foldl_nil, mem_append, mem_singleton]
    split_ifs
    · exact ih.imp_right Or.inl
    · exact .inr (.inr rfl)
    · exact ih.imp_right Or.inl

end Jmdn.Nodeinfo
