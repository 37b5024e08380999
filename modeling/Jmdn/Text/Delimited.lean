import Mathlib.Data.List.Basic

/-!
# Self-delimiting texts

A family of texts is self-delimiting when a text tells where it ends, whatever
follows it, and what was written.  Such families are closed under concatenation,
under a length in front of a body and under a flag in front of an optional item,
so a record written field by field is read back field by field.
-/

namespace Jmdn.Text

open List

variable {σ α β γ : Type}

variable {view : α → β} {text : α → List σ} {size : Nat}

/-- On good items, the text of an item tells where it ends and what the item looks
like. -/
def Delimits (good : α → Prop) (text : α → List σ) (view : α → β) : Prop :=
  ∀ ⦃first second : α⦄ ⦃rest rest' : List σ⦄, good first → good second →
    text first ++ rest = text second ++ rest' → view first = view second ∧ rest = rest'

namespace Delimits

variable {good : α → Prop} {text text' : α → List σ}

theorem of_length (long : ∀ item, good item → (text item).length = size)
    (read : ∀ first second, good first → good second → text first = text second →
      view first = view second) : Delimits good text view := by
  intro first second rest rest' one two same
  obtain ⟨front, back⟩ := append_inj same ((long first one).trans (long second two).symm)
  exact ⟨read first second one two front, back⟩

/-- One text after the other. -/
theorem append {view' : α → γ} (front : Delimits good text view) (back : Delimits good text' view') :
    Delimits good (fun item => text item ++ text' item) fun item => (view item, view' item) := by
  intro first second rest rest' one two same
  rw [append_assoc, append_assoc] at same
  obtain ⟨seen, same⟩ := front one two same
  obtain ⟨seen', same⟩ := back one two same
  exact ⟨Prod.ext seen seen', same⟩

/-- A text that gives the length of the body after it. -/
theorem sized {size : α → Nat} {body : α → List σ} (front : Delimits good text size)
    (long : ∀ item, good item → (body item).length = size item) :
    Delimits good (fun item => text item ++ body item) body := by
  intro first second rest rest' one two same
  rw [append_assoc, append_assoc] at same
  obtain ⟨seen, same⟩ := front one two same
  exact append_inj same ((long first one).trans (seen.trans (long second two).symm))

variable (delimits : Delimits good text view)
include delimits

/-- Items one after the other, as many on both sides. -/
theorem flatMap {first second : List α} {rest rest' : List σ}
    (one : ∀ item ∈ first, good item) (two : ∀ item ∈ second, good item)
    (long : first.length = second.length)
    (same : first.flatMap text ++ rest = second.flatMap text ++ rest') :
    first.map view = second.map view ∧ rest = rest' := by
  induction first generalizing second with
  | nil =>
    obtain rfl := length_eq_zero_iff.mp long.symm
    exact ⟨rfl, same⟩
  | cons item items ih =>
    cases second with
    | nil => cases long
    | cons other others =>
      rw [forall_mem_cons] at one two
      rw [flatMap_cons, flatMap_cons, append_assoc, append_assoc] at same
      obtain ⟨seen, same⟩ := delimits one.1 two.1 same
      obtain ⟨rests, same⟩ := ih one.2 two.2 (Nat.succ.inj long) same
      exact ⟨congrArg₂ List.cons seen rests, same⟩

/-- A list after its length. -/
theorem counted {short : Nat → Prop} {count : Nat → List σ}
    (counts : Delimits short count id) :
    Delimits (fun items : List α => short items.length ∧ ∀ item ∈ items, good item)
      (fun items => count items.length ++ items.flatMap text) (List.map view) := by
  intro first second rest rest' one two same
  rw [append_assoc, append_assoc] at same
  obtain ⟨long, same⟩ := counts one.1 two.1 same
  exact delimits.flatMap one.2 two.2 long same

theorem map (f : β → γ) :
    Delimits good text fun item => f (view item) := by
  intro first second rest rest' one two same
  obtain ⟨seen, same⟩ := delimits one two same
  exact ⟨congrArg f seen, same⟩

/-- The text of a part of a record. -/
theorem comap {whole : γ → Prop} (part : γ → α)
    (sound : ∀ record, whole record → good (part record)) :
    Delimits whole (fun record => text (part record)) fun record => view (part record) := by
  intro first second rest rest' one two same
  exact delimits (sound first one) (sound second two) same

end Delimits

/-- An absent item is one symbol, a present one another symbol and its text. -/
def optional (absent present : σ) (text : α → List σ) : Option α → List σ
  | none => [absent]
  | some item => present :: text item

theorem Delimits.optional {good : α → Prop} (delimits : Delimits good text view)
    {absent present : σ} (different : absent ≠ present) :
    Delimits (fun item : Option α => ∀ value ∈ item, good value)
      (Text.optional absent present text) (Option.map view) := by
  intro first second rest rest' one two same
  cases first with
  | none =>
    cases second with
    | none => exact ⟨rfl, List.cons.inj same |>.2⟩
    | some item => exact absurd (List.cons.inj same).1 different
  | some item =>
    cases second with
    | none => exact absurd (List.cons.inj same).1.symm different
    | some other =>
      obtain ⟨seen, same⟩ := delimits (one item rfl) (two other rfl) (List.cons.inj same).2
      exact ⟨congrArg some seen, same⟩

/-- Words of one length, one after the other, are read back. -/
theorem flatMap_injective (pos : 0 < size) (long : ∀ item, (text item).length = size)
    (read : Function.Injective text) :
    Function.Injective fun items : List α => items.flatMap text := by
  have filled : ∀ item, text item ≠ [] := fun item empty =>
    Nat.ne_of_lt pos ((congrArg List.length empty).symm.trans (long item))
  intro first
  induction first with
  | nil =>
    intro second same
    cases second with
    | nil => rfl
    | cons item rest => exact absurd (append_eq_nil_iff.mp same.symm).1 (filled item)
  | cons item rest ih =>
    intro second same
    cases second with
    | nil => exact absurd (append_eq_nil_iff.mp same).1 (filled item)
    | cons other others =>
      obtain ⟨front, back⟩ := append_inj same ((long item).trans (long other).symm)
      rw [read front, ih back]

end Jmdn.Text
