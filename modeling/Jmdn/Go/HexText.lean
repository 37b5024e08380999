import Jmdn.Go.NumberText

/-!
# Hexadecimal text of numbers

The `0x` form of a number, as `fmt` prints it with `0x%x`, and its reading.
-/

namespace Jmdn.Go

variable {digits : List Char} {digit : Nat}

/-- The text after a leading `0x`, if the text has one. -/
def hexTail (text : String) : Option String :=
  match text.toList with
  | '0' :: 'x' :: digits => some (String.ofList digits)
  | _ => none

/-- `fmt.Sprintf("0x%x", n)`. -/
def hexText (n : Nat) : String :=
  "0x" ++ String.ofList (Nat.toDigits 16 n)

theorem hexValue_digitChar (small : digit < 16) :
    hexValue digit.digitChar = some digit := by
  have all : ∀ digit : Fin 16, hexValue (digit : Nat).digitChar = some (digit : Nat) := by
    decide
  exact all ⟨digit, small⟩

theorem hexDigits_append {value : Nat} (spelled : hexDigits digits = some value)
    (small : digit < 16) :
    hexDigits (digits ++ [digit.digitChar]) = some (16 * value + digit) := by
  have last := hexValue_digitChar small
  unfold hexDigits at spelled ⊢
  split at spelled
  · next shape =>
    have whole : (digits ++ [digit.digitChar]).all isHexDigit := by
      rw [List.all_append, shape.2]
      simp [isHexDigit, last]
    rw [if_pos ⟨by simp, whole⟩, List.foldl_append]
    cases spelled
    simp [last]
  · cases spelled

/-- The printed digits of a number are read back exactly. -/
theorem hexDigits_toDigits (n : Nat) : hexDigits (Nat.toDigits 16 n) = some n := by
  induction n using Nat.strongRecOn with
  | ind n ih =>
    by_cases small : n < 16
    · have last := hexValue_digitChar small
      rw [Nat.toDigits_of_lt_base small]
      simp [hexDigits, isHexDigit, last]
    · rw [Nat.toDigits_of_base_le (by decide) (Nat.not_lt.mp small),
        hexDigits_append (ih (n / 16) (by omega)) (Nat.mod_lt n (by decide)),
        Nat.div_add_mod]

theorem hexTail_hexText (n : Nat) :
    hexTail (hexText n) = some (String.ofList (Nat.toDigits 16 n)) := by
  simp [hexTail, hexText]

theorem signedNumber_hexDigits {n : Nat} (spelled : hexDigits digits = some n) :
    signedNumber hexDigits digits = some (n : Int) := by
  have every : ∀ c ∈ digits, isHexDigit c := by
    have shape := (hexDigits_isSome_iff digits).mp (by rw [spelled]; rfl)
    exact List.all_eq_true.mp shape.2
  unfold signedNumber
  split
  · exact absurd (every '-' (List.mem_cons_self ..)) (by decide)
  · exact absurd (every '+' (List.mem_cons_self ..)) (by decide)
  · rw [spelled]
    rfl

theorem setString16_toDigits (n : Nat) :
    setString16 (String.ofList (Nat.toDigits 16 n)) = some (n : Int) := by
  rw [setString16, String.toList_ofList]
  exact signedNumber_hexDigits (hexDigits_toDigits n)

/-- The number a `0x` text denotes. -/
def hexNumber (text : String) : Option Int :=
  (hexTail text).bind setString16

/-- Reading back the `0x` form of a number returns the number. -/
@[simp]
theorem hexNumber_hexText (n : Nat) : hexNumber (hexText n) = some (n : Int) := by
  rw [hexNumber, hexTail_hexText, Option.bind_some, setString16_toDigits]

end Jmdn.Go
