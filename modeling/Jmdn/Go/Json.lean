import Jmdn.Go.Strings

/-!
# Reading a JSON string

`json.Unmarshal` into a `string`: blanks around one value, which has to be a
string literal, or `null`, which leaves the empty string.  Every other text is
an error.
-/

namespace Jmdn.Go

/-- The blanks JSON allows around a value. -/
def isJsonBlank (rune : Char) : Bool :=
  rune == ' ' || rune == '\t' || rune == '\n' || rune == '\r'

/-- Value of a hexadecimal digit of either case. -/
def hexValue (rune : Char) : Option Nat :=
  if '0' ≤ rune ∧ rune ≤ '9' then some (rune.toNat - '0'.toNat)
  else if 'a' ≤ rune ∧ rune ≤ 'f' then some (rune.toNat - 'a'.toNat + 10)
  else if 'A' ≤ rune ∧ rune ≤ 'F' then some (rune.toNat - 'A'.toNat + 10)
  else none

/-- Four hexadecimal digits. -/
def hexQuad (first second third fourth : Char) : Option Nat := do
  let a ← hexValue first
  let b ← hexValue second
  let c ← hexValue third
  let d ← hexValue fourth
  return ((a * 16 + b) * 16 + c) * 16 + d

/-- A simple escape. -/
def simpleEscape : Char → Option Char
  | '"' => some '"'
  | '\\' => some '\\'
  | '/' => some '/'
  | 'b' => some (Char.ofNat 8)
  | 'f' => some (Char.ofNat 12)
  | 'n' => some '\n'
  | 'r' => some '\r'
  | 't' => some '\t'
  | _ => none

/-- The runes of a code unit sequence; a lone surrogate becomes U+FFFD. -/
def joinUnits : List Nat → List Char
  | [] => []
  | [unit] => [if unit.isValidChar then Char.ofNat unit else Char.ofNat 0xFFFD]
  | high :: low :: rest =>
    if 0xD800 ≤ high ∧ high < 0xDC00 ∧ 0xDC00 ≤ low ∧ low < 0xE000 then
      Char.ofNat (0x10000 + (high - 0xD800) * 0x400 + (low - 0xDC00)) :: joinUnits rest
    else
      (if high.isValidChar then Char.ofNat high else Char.ofNat 0xFFFD) ::
        joinUnits (low :: rest)

/-- The body of a string literal after its opening quote: the runes read, with
consecutive `\u` escapes collected as code units, and the text after the closing
quote. -/
def stringBody : List Char → List Nat → Option (List Char × List Char)
  | [], _ => none
  | '"' :: rest, units => some (joinUnits units, rest)
  | '\\' :: 'u' :: a :: b :: c :: d :: rest, units => do
      let unit ← hexQuad a b c d
      stringBody rest (units ++ [unit])
  | '\\' :: escape :: rest, units => do
      let rune ← simpleEscape escape
      let read ← stringBody rest []
      return (joinUnits units ++ rune :: read.1, read.2)
  | rune :: rest, units =>
    if rune.toNat < 32 || rune == '\\' then none
    else do
      let read ← stringBody rest []
      return (joinUnits units ++ rune :: read.1, read.2)

/-- `json.Unmarshal` into a string; `none` is an error. -/
def unmarshalString (text : String) : Option String :=
  match text.toList.dropWhile isJsonBlank with
  | '"' :: rest => do
      let read ← stringBody rest []
      if read.2.all isJsonBlank then some (String.ofList read.1) else none
  | 'n' :: 'u' :: 'l' :: 'l' :: rest => if rest.all isJsonBlank then some "" else none
  | _ => none

example : unmarshalString " \"0xab\" " = some "0xab" := by decide

example : unmarshalString "0xab" = none := by decide

end Jmdn.Go
