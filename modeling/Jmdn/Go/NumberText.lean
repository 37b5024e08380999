import Mathlib.Data.List.DropRight
import Jmdn.Go.Bytes
import Jmdn.Go.Decimal
import Jmdn.Go.Json

/-!
# Numbers in ASCII text

`big.Int.SetString` in base sixteen, and what `strings.TrimSpace` leaves of a
text.  Bytes that form the text of a number denote, as a big-endian number,
something larger than the number they spell.
-/

namespace Jmdn.Go

open List

variable {before after digits text : List Char} {data : List UInt8} {number : Nat}

/-! ## Signed numbers -/

/-- An optional sign, then digits. -/
def signedNumber (digits : List Char → Option Nat) : List Char → Option Int
  | '-' :: rest => (digits rest).map fun n : Nat => -(n : Int)
  | '+' :: rest => (digits rest).map fun n : Nat => (n : Int)
  | rest => (digits rest).map fun n : Nat => (n : Int)

theorem setString_eq_signedNumber (text : String) :
    setString text = signedNumber decimalDigits text.toList := by
  rw [setString]
  split
  · next rest spelled => cases found : decimalDigits rest <;> simp [signedNumber, spelled, found]
  · next rest spelled => cases found : decimalDigits rest <;> simp [signedNumber, spelled, found]
  · next minus plus => cases found : decimalDigits text.toList <;> simp [signedNumber, found]

/-- A digit of base sixteen. -/
def isHexDigit (c : Char) : Bool :=
  (hexValue c).isSome

theorem isHexDigit_of_isDigit {c : Char} (digit : c.isDigit) : isHexDigit c := by
  have range : '0' ≤ c ∧ c ≤ '9' := Char.isDigit_iff_toNat.mp digit
  rw [isHexDigit, hexValue, if_pos range]
  rfl

theorem hexValue_lt {c : Char} {value : Nat} (digit : hexValue c = some value) :
    value < c.toNat := by
  have zero : '0'.toNat = 48 := rfl
  have small : 'a'.toNat = 97 := rfl
  have capital : 'A'.toNat = 65 := rfl
  unfold hexValue at digit
  split at digit
  · next range =>
    have least : '0'.toNat ≤ c.toNat := range.1
    cases digit
    omega
  · split at digit
    · next range =>
      have least : 'a'.toNat ≤ c.toNat := range.1
      cases digit
      omega
    · split at digit
      · next range =>
        have least : 'A'.toNat ≤ c.toNat := range.1
        cases digit
        omega
      · cases digit

/-- A non-empty run of digits of base sixteen. -/
def hexDigits (digits : List Char) : Option Nat :=
  if digits ≠ [] ∧ digits.all isHexDigit then
    some (digits.foldl (fun value c => 16 * value + (hexValue c).getD 0) 0)
  else
    none

/-- `new(big.Int).SetString(text, 16)`. -/
def setString16 (text : String) : Option Int :=
  signedNumber hexDigits text.toList

/-- The text of a signed number over some digits. -/
def Signed (isDigit : Char → Bool) (text : List Char) : Prop :=
  ∃ sign digits, text = sign ++ digits ∧ (sign = [] ∨ sign = ['+'] ∨ sign = ['-']) ∧
    digits ≠ [] ∧ digits.all isDigit

theorem Signed.mono {isDigit isDigit' : Char → Bool} (signed : Signed isDigit text)
    (more : ∀ c, isDigit c → isDigit' c) : Signed isDigit' text := by
  obtain ⟨sign, digits, split, signs, nonempty, all⟩ := signed
  rw [all_eq_true] at all
  exact ⟨sign, digits, split, signs, nonempty,
    all_eq_true.mpr fun c mem => more c (all c mem)⟩

section

variable {digits : List Char → Option Nat} {isDigit : Char → Bool}

/-- A text that is read has its digits after the sign. -/
theorem signedNumber_cases {number : Int} (parsed : signedNumber digits text = some number) :
    ∃ sign rest value, text = sign ++ rest ∧ (sign = [] ∨ sign = ['+'] ∨ sign = ['-']) ∧
      digits rest = some value ∧ number ≤ value := by
  unfold signedNumber at parsed
  split at parsed
  · next rest =>
    obtain ⟨value, found, rfl⟩ := Option.map_eq_some_iff.mp parsed
    exact ⟨['-'], rest, value, rfl, by simp, found, by omega⟩
  · next rest =>
    obtain ⟨value, found, rfl⟩ := Option.map_eq_some_iff.mp parsed
    exact ⟨['+'], rest, value, rfl, by simp, found, le_refl _⟩
  · obtain ⟨value, found, rfl⟩ := Option.map_eq_some_iff.mp parsed
    exact ⟨[], text, value, rfl, by simp, found, le_refl _⟩

theorem signedNumber_isSome_iff (reads : ∀ rest, (digits rest).isSome ↔
      rest ≠ [] ∧ rest.all isDigit)
    (minus : isDigit '-' = false) (plus : isDigit '+' = false) (text : List Char) :
    (signedNumber digits text).isSome ↔ Signed isDigit text := by
  constructor
  · intro read
    obtain ⟨number, parsed⟩ := Option.isSome_iff_exists.mp read
    obtain ⟨sign, rest, value, split, signs, found, -⟩ := signedNumber_cases parsed
    obtain ⟨nonempty, all⟩ := (reads rest).mp (by rw [found]; rfl)
    exact ⟨sign, rest, split, signs, nonempty, all⟩
  · rintro ⟨sign, rest, rfl, signs, nonempty, all⟩
    have read := (reads rest).mpr ⟨nonempty, all⟩
    rcases signs with rfl | rfl | rfl
    · -- without a sign the first digit is none
      rw [nil_append]
      unfold signedNumber
      split
      · rw [all_cons, minus] at all
        cases all
      · rw [all_cons, plus] at all
        cases all
      · rw [Option.isSome_map]
        exact read
    · change ((digits rest).map _).isSome
      rw [Option.isSome_map]
      exact read
    · change ((digits rest).map _).isSome
      rw [Option.isSome_map]
      exact read

end

theorem decimalDigits_isSome_iff (digits : List Char) :
    (decimalDigits digits).isSome ↔ digits ≠ [] ∧ digits.all Char.isDigit := by
  unfold decimalDigits
  split <;> simp_all

theorem hexDigits_isSome_iff (digits : List Char) :
    (hexDigits digits).isSome ↔ digits ≠ [] ∧ digits.all isHexDigit := by
  unfold hexDigits
  split <;> simp_all

theorem setString_isSome_iff (text : String) :
    (setString text).isSome ↔ Signed Char.isDigit text.toList := by
  rw [setString_eq_signedNumber]
  exact signedNumber_isSome_iff decimalDigits_isSome_iff (by decide) (by decide) text.toList

theorem setString16_isSome_iff (text : String) :
    (setString16 text).isSome ↔ Signed isHexDigit text.toList :=
  signedNumber_isSome_iff hexDigits_isSome_iff (by decide) (by decide) text.toList

/-! ## Trimming -/

theorem toList_trimSpace (text : String) :
    (trimSpace text).toList = (text.toList.dropWhile isSpace).rdropWhile isSpace := by
  rw [trimSpace, String.toList_ofList]
  rfl

theorem exists_blanks (text : String) :
    ∃ before after, text.toList = before ++ (trimSpace text).toList ++ after ∧
      before.all isSpace ∧ after.all isSpace := by
  refine ⟨text.toList.takeWhile isSpace, (text.toList.dropWhile isSpace).rtakeWhile isSpace,
    ?_, ?_, ?_⟩
  · rw [append_assoc, toList_trimSpace, rdropWhile_append_rtakeWhile,
      takeWhile_append_dropWhile]
  · exact all_takeWhile
  · rw [all_eq_true]
    exact fun c mem => mem_rtakeWhile_imp mem

theorem trimSpace_blanks {text : String} {body : List Char}
    (parts : text.toList = before ++ body ++ after) (front : before.all isSpace)
    (back : after.all isSpace) (solid : ∀ c ∈ body, isSpace c = false) :
    (trimSpace text).toList = body := by
  rw [all_eq_true] at front back
  have starts : ∀ {text : List Char}, (∀ c ∈ text, isSpace c = false) →
      text.dropWhile isSpace = text := by
    intro text none
    cases text with
    | nil => rfl
    | cons c rest => rw [dropWhile_cons_of_neg (by simp [none c mem_cons_self])]
  have ends : (body ++ after).rdropWhile isSpace = body := by
    rw [List.rdropWhile, reverse_append, dropWhile_append_of_pos, starts,
      reverse_reverse]
    · intro c mem
      exact solid c (mem_reverse.mp mem)
    · intro c mem
      exact back c (mem_reverse.mp mem)
  rw [toList_trimSpace, parts, append_assoc, dropWhile_append_of_pos front]
  cases body with
  | nil =>
    rw [nil_append, dropWhile_eq_nil_iff.mpr back]
    rfl
  | cons c rest =>
    rw [cons_append, dropWhile_cons_of_neg (by simp [solid c mem_cons_self]),
      ← cons_append, ends]

/-! ## Bytes that spell a number -/

/-- `string(data)` of ASCII bytes. -/
def asciiText (data : List UInt8) : List Char :=
  data.map fun byte => Char.ofNat byte.toNat

theorem toNat_asciiChar (byte : UInt8) : (Char.ofNat byte.toNat).toNat = byte.toNat := by
  have small := byte.toNat_lt
  rw [Char.ofNat, dif_pos (.inl (by omega))]
  rfl

theorem setBytes_eq_foldl (data : List UInt8) :
    setBytes data = (asciiText data).foldl (fun value c => 256 * value + c.toNat) 0 := by
  rw [setBytes, Nat.ofDigits_eq_foldr, foldr_map, foldr_reverse,
    asciiText, foldl_map]
  simp only [toNat_asciiChar, Nat.cast_id, Nat.add_comm]

section

variable {base : Nat} {value : Char → Nat}

private theorem le_bigEndian (text : List Char) (start : Nat) :
    start ≤ text.foldl (fun sofar c => 256 * sofar + c.toNat) start := by
  induction text generalizing start with
  | nil => exact le_refl start
  | cons c rest ih =>
    calc
      start ≤ 256 * start + c.toNat := by omega
      _ ≤ _ := ih _

private theorem spelled_lt_bigEndian (small : base ≤ 256) {digits : List Char}
    (less : ∀ c ∈ digits, value c < c.toNat) {low high : Nat} (starts : low < high) :
    digits.foldl (fun sofar c => base * sofar + value c) low <
      digits.foldl (fun sofar c => 256 * sofar + c.toNat) high := by
  induction digits generalizing low high with
  | nil => exact starts
  | cons c rest ih =>
    have first := less c List.mem_cons_self
    have grows : base * low ≤ 256 * high := Nat.mul_le_mul small starts.le
    exact ih (fun d member => less d (List.mem_cons_of_mem c member))
      (Nat.add_lt_add_of_le_of_lt grows first)

/-- Bytes that spell a number in their middle denote a larger one: every digit is
worth less than its character code, and the bytes count in base 256. -/
theorem spelled_lt_setBytes (small : base ≤ 256)
    (spelled : asciiText data = before ++ digits ++ after) (nonempty : digits ≠ [])
    (less : ∀ c ∈ digits, value c < c.toNat) :
    digits.foldl (fun sofar c => base * sofar + value c) 0 < setBytes data := by
  obtain ⟨c, rest, rfl⟩ := exists_cons_of_ne_nil nonempty
  rw [setBytes_eq_foldl, spelled, foldl_append, foldl_append]
  refine lt_of_lt_of_le ?_ (le_bigEndian after _)
  have first := less c mem_cons_self
  exact spelled_lt_bigEndian small (fun d mem => less d (mem_cons_of_mem c mem))
    (Nat.add_lt_add_of_le_of_lt (Nat.mul_le_mul small (Nat.zero_le _)) first)

end

theorem decimalDigits_lt_setBytes (spelled : asciiText data = before ++ digits ++ after)
    (read : decimalDigits digits = some number) : number < setBytes data := by
  obtain ⟨nonempty, all⟩ := (decimalDigits_isSome_iff digits).mp (by rw [read]; rfl)
  rw [decimalDigits, if_pos ⟨nonempty, all⟩, Option.some.injEq] at read
  subst read
  refine spelled_lt_setBytes (by decide) spelled nonempty fun c mem => ?_
  have digit := all_eq_true.mp all c mem
  have lower := Char.isDigit_iff_toNat.mp digit
  have zero : '0'.toNat = 48 := rfl
  omega

theorem hexDigits_lt_setBytes (spelled : asciiText data = before ++ digits ++ after)
    (read : hexDigits digits = some number) : number < setBytes data := by
  obtain ⟨nonempty, all⟩ := (hexDigits_isSome_iff digits).mp (by rw [read]; rfl)
  rw [hexDigits, if_pos ⟨nonempty, all⟩, Option.some.injEq] at read
  subst read
  refine spelled_lt_setBytes (by decide) spelled nonempty fun c mem => ?_
  obtain ⟨value, digit⟩ := Option.isSome_iff_exists.mp (all_eq_true.mp all c mem)
  rw [digit]
  exact hexValue_lt digit

/-- A signed number is at most what its digits spell. -/
theorem signedNumber_lt_setBytes {digits : List Char → Option Nat}
    (below : ∀ {before rest after number}, asciiText data = before ++ rest ++ after →
      digits rest = some number → number < setBytes data)
    (spelled : asciiText data = before ++ text ++ after) {number : Int}
    (read : signedNumber digits text = some number) :
    number < setBytes data := by
  obtain ⟨sign, rest, value, rfl, -, found, most⟩ := signedNumber_cases read
  have inside : asciiText data = before ++ sign ++ rest ++ after := by
    rw [spelled, append_assoc before sign rest]
  have less := below inside found
  omega

end Jmdn.Go
