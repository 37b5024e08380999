import Mathlib.Data.List.OfFn

/-!
# Strings

The functions of Go's `strings` package that the node uses, over valid UTF-8
text, and the hexadecimal text of fixed-width words.
-/

namespace Jmdn.Go

/-- `unicode.IsSpace`. -/
def isSpace (rune : Char) : Bool :=
  let code := rune.toNat
  (9 ≤ code && code ≤ 13) || code == 32 || code == 0x85 || code == 0xA0 || code == 0x1680 ||
    (0x2000 ≤ code && code ≤ 0x200A) || code == 0x2028 || code == 0x2029 || code == 0x202F ||
    code == 0x205F || code == 0x3000

/-- `strings.TrimSpace`. -/
def trimSpace (text : String) : String :=
  String.ofList (((text.toList.dropWhile isSpace).reverse.dropWhile isSpace).reverse)

/-- `strings.TrimPrefix`. -/
def trimStart (text front : String) : String :=
  if front.toList.isPrefixOf text.toList then
    String.ofList (text.toList.drop front.toList.length)
  else text

/-- `strings.ToLower`; `lowerRune` is the Unicode mapping outside ASCII. -/
def toLower (lowerRune : Char → Char) (text : String) : String :=
  String.ofList (text.toList.map fun rune =>
    if rune.toNat < 128 then rune.toLower else lowerRune rune)

/-- `strings.EqualFold` against a text of ASCII digits and the letters a to f:
no rune outside ASCII folds to one of these. -/
def equalFoldHex (text hex : String) : Bool :=
  text.toList.map Char.toLower == hex.toList.map Char.toLower

/-- One lower-case hexadecimal digit. -/
def hexDigit (digit : Fin 16) : Char :=
  "0123456789abcdef".toList.get (Fin.cast (by decide) digit)

/-- The `i`-th nibble of a word, counted from the most significant one. -/
def nibble {nibbles : Nat} (word : BitVec (4 * nibbles)) (i : Fin nibbles) : Fin 16 :=
  (word.extractLsb' (4 * (nibbles - 1 - i)) 4).toFin

/-- `hex.EncodeToString` of a word. -/
def hexEncode {nibbles : Nat} (word : BitVec (4 * nibbles)) : String :=
  String.ofList (List.ofFn fun i => hexDigit (nibble word i))

theorem hexDigit_injective : Function.Injective hexDigit := by
  have distinct : ∀ first second, hexDigit first = hexDigit second → first = second := by decide
  exact distinct

/-- Words with the same hexadecimal text are equal. -/
theorem hexEncode_injective {nibbles : Nat} :
    Function.Injective (@hexEncode nibbles) := by
  intro first second same
  have digits : ∀ i, nibble first i = nibble second i := by
    intro i
    have lists := congrArg String.toList same
    simp only [hexEncode, String.toList_ofList] at lists
    have pointwise := congrFun (List.ofFn_injective lists) i
    exact hexDigit_injective pointwise
  apply BitVec.eq_of_getLsbD_eq
  intro bit bound
  have position : bit / 4 < nibbles := by omega
  have nibbleEq := congrArg Fin.val (digits ⟨nibbles - 1 - bit / 4, by omega⟩)
  have words : first.extractLsb' (4 * (bit / 4)) 4 = second.extractLsb' (4 * (bit / 4)) 4 := by
    apply BitVec.eq_of_toNat_eq
    have offset : 4 * (nibbles - 1 - (nibbles - 1 - bit / 4)) = 4 * (bit / 4) := by omega
    simpa [nibble, offset] using nibbleEq
  have bits := congrArg (fun word => word.getLsbD (bit % 4)) words
  have small : bit % 4 < 4 := Nat.mod_lt _ (by decide)
  simpa [BitVec.getLsbD_extractLsb', small, Nat.div_add_mod] using bits

end Jmdn.Go
