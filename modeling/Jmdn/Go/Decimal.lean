import Mathlib.Data.Nat.Digits.Defs

/-!
# Decimal text of integers

Balances and markers are stored as decimal text.  `setString` follows
`big.Int.SetString` in base ten: an optional sign, then at least one digit and
nothing else, so no underscores and no surrounding blanks.  `parseInt` adds the
64-bit range check of `strconv.ParseInt`.

The printed form of an integer, `formatInt`, is read back exactly by both.
-/

namespace Jmdn.Go

/-- A non-empty run of decimal digits. -/
def decimalDigits (digits : List Char) : Option Nat :=
  if digits ≠ [] ∧ digits.all Char.isDigit then
    some (Nat.ofDigitChars 10 digits 0)
  else
    none

/-- `new(big.Int).SetString(text, 10)`: `none` when the text is not a decimal
integer. -/
def setString (text : String) : Option Int :=
  match text.toList with
  | '-' :: digits => (decimalDigits digits).map fun n => -(n : Int)
  | '+' :: digits => (decimalDigits digits).map fun n => (n : Int)
  | digits => (decimalDigits digits).map fun n => (n : Int)

/-- The decimal text of an integer, `big.Int.String` and `strconv.FormatInt`. -/
def formatInt (n : Int) : String :=
  toString n

/-- `strconv.ParseInt(text, 10, 64)`: `none` on a syntax or range error. -/
def parseInt (text : String) : Option Int :=
  (setString text).filter fun n => -2 ^ 63 ≤ n && n < 2 ^ 63

theorem decimalDigits_toDigits (n : Nat) :
    decimalDigits (Nat.toDigits 10 n) = some n := by
  have digits : (Nat.toDigits 10 n).all Char.isDigit = true := by
    rw [List.all_eq_true]
    intro c mem
    exact Nat.isDigit_of_mem_toDigits (by decide) (by decide) mem
  rw [decimalDigits, if_pos ⟨Nat.toDigits_ne_nil, digits⟩, Nat.ofDigitChars_ten_toDigits]

private theorem setString_eq_decimalDigits {text : String}
    (digits : text.toList.all Char.isDigit = true) :
    setString text = (decimalDigits text.toList).map fun n => (n : Int) := by
  unfold setString
  split
  · next _ rest equal =>
    rw [equal] at digits
    exact absurd (List.all_eq_true.mp digits '-' (by simp)) (by decide)
  · next _ rest equal =>
    rw [equal] at digits
    exact absurd (List.all_eq_true.mp digits '+' (by simp)) (by decide)
  · rfl

theorem isDigit_of_mem_toString {n : Nat} {c : Char} (mem : c ∈ (toString n).toList) :
    c.isDigit = true := by
  rw [Nat.toString_eq_ofList_toDigits, String.toList_ofList] at mem
  exact Nat.isDigit_of_mem_toDigits (by decide) (by decide) mem

theorem not_mem_toString {c : Char} (other : c.isDigit = false) (n : Nat) :
    c ∉ (toString n).toList := by
  intro mem
  rw [isDigit_of_mem_toString mem] at other
  cases other

theorem setString_toString_nat (n : Nat) : setString (toString n) = some (n : Int) := by
  have digits : (toString n).toList.all Char.isDigit = true :=
    List.all_eq_true.mpr fun c mem => isDigit_of_mem_toString mem
  rw [setString_eq_decimalDigits digits, Nat.toString_eq_ofList_toDigits, String.toList_ofList,
    decimalDigits_toDigits]
  rfl

theorem toString_injective : Function.Injective (toString : Nat → String) := by
  intro first second same
  have read := congrArg setString same
  rw [setString_toString_nat, setString_toString_nat] at read
  exact Int.ofNat_inj.mp (Option.some.inj read)

/-- Reading back a printed integer returns that integer. -/
@[simp]
theorem setString_formatInt (n : Int) : setString (formatInt n) = some n := by
  unfold formatInt
  cases n with
  | ofNat m => exact setString_toString_nat m
  | negSucc m =>
    have text : (toString (Int.negSucc m)).toList = '-' :: Nat.toDigits 10 (m + 1) := by
      change ("-" ++ (m + 1).repr).toList = _
      simp [Nat.repr_eq_ofList_toDigits]
    unfold setString
    rw [text]
    simp only [decimalDigits_toDigits]
    rfl

theorem parseInt_formatInt_ne {n m : Int} (different : n ≠ m) :
    parseInt (formatInt n) ≠ some m := by
  unfold parseInt
  rw [setString_formatInt]
  simp only [Option.filter_some]
  split
  · simpa using different
  · simp

@[simp]
theorem parseInt_formatInt_neg_one : parseInt (formatInt (-1)) = some (-1) := by
  unfold parseInt
  rw [setString_formatInt]
  rfl

end Jmdn.Go
