import Jmdn.Go.Json

/-!
# Reading a JSON object

`json.Unmarshal` into a `map[string]interface{}`: a text with one JSON value, which
has to be an object or `null`.  Numbers become 64-bit floats, rounded to the nearest;
a number beyond the largest one is an error.
-/

namespace Jmdn.Go

/-- A value under an empty interface. -/
inductive JsonValue where
  | null
  | bool (value : Bool)
  | number (value : Float.Model)
  | string (value : String)
  | array (items : List JsonValue)
  | object (members : List (String × JsonValue))

/-! ## Numbers -/

/-- Some digits. -/
def someDigits (text : List Char) : Option (List Char × List Char) :=
  match text.span Char.isDigit with
  | ([], _) => none
  | (digits, rest) => some (digits, rest)

/-- The digits before the point: a zero stands alone. -/
def wholeDigits : List Char → Option (List Char × List Char)
  | '0' :: rest => some (['0'], rest)
  | text => someDigits text

/-- The digits after the point, if there is one. -/
def fractionDigits : List Char → Option (List Char × List Char)
  | '.' :: rest => someDigits rest
  | text => some ([], text)

/-- The value of some digits. -/
def digitsValue (digits : List Char) : Nat :=
  digits.foldl (fun value digit => 10 * value + (digit.toNat - '0'.toNat)) 0

/-- The exponent, if there is one. -/
def exponentPart : List Char → Option (Int × List Char)
  | 'e' :: '-' :: rest | 'E' :: '-' :: rest =>
    (someDigits rest).map fun read => (-(digitsValue read.1 : Int), read.2)
  | 'e' :: '+' :: rest | 'E' :: '+' :: rest | 'e' :: rest | 'E' :: rest =>
    (someDigits rest).map fun read => ((digitsValue read.1 : Int), read.2)
  | text => some (0, text)

/-- `strconv.ParseFloat` of a decimal number; `none` is a range error. -/
def parseFloat (negative : Bool) (digits : Nat) (exponent : Int) : Option Float.Model :=
  let value := Float.Model.ofScientific digits exponent
  if value.isInf then none else some (if negative then -value else value)

/-- A number after its sign. -/
def unsignedNumber (negative : Bool) (text : List Char) : Option (JsonValue × List Char) := do
  let (whole, text) ← wholeDigits text
  let (fraction, text) ← fractionDigits text
  let (exponent, text) ← exponentPart text
  let value ← parseFloat negative (digitsValue (whole ++ fraction)) (exponent - fraction.length)
  return (.number value, text)

/-- A number. -/
def readNumber : List Char → Option (JsonValue × List Char)
  | '-' :: text => unsignedNumber true text
  | text => unsignedNumber false text

/-! ## Values -/

/-- A key and the colon after it. -/
def readKey (text : List Char) : Option (String × List Char) :=
  match text.dropWhile isJsonBlank with
  | '"' :: rest => do
      let (runes, text) ← stringBody rest []
      match text.dropWhile isJsonBlank with
      | ':' :: text => some (String.ofList runes, text)
      | _ => none
  | _ => none

mutual

/-- A value, and the text after it.  Every round reads a character, so the length of the
text is enough for the number of rounds.  `depth` is how many more objects and arrays
may be nested. -/
def readValue : Nat → Nat → List Char → Option (JsonValue × List Char)
  | 0, _, _ => none
  | rounds + 1, depth, text =>
    match text.dropWhile isJsonBlank with
    | '"' :: rest => (stringBody rest []).map fun read =>
      (.string (String.ofList read.1), read.2)
    | '\x7b' :: rest =>
      match depth, rest.dropWhile isJsonBlank with
      | 0, _ => none
      | _ + 1, '\x7d' :: rest => some (.object [], rest)
      | depth + 1, rest => readMembers rounds depth [] rest
    | '[' :: rest =>
      match depth, rest.dropWhile isJsonBlank with
      | 0, _ => none
      | _ + 1, ']' :: rest => some (.array [], rest)
      | depth + 1, rest => readItems rounds depth [] rest
    | 't' :: 'r' :: 'u' :: 'e' :: rest => some (.bool true, rest)
    | 'f' :: 'a' :: 'l' :: 's' :: 'e' :: rest => some (.bool false, rest)
    | 'n' :: 'u' :: 'l' :: 'l' :: rest => some (.null, rest)
    | text => readNumber text

/-- The members of an object after those read. -/
def readMembers : Nat → Nat → List (String × JsonValue) → List Char →
    Option (JsonValue × List Char)
  | 0, _, _, _ => none
  | rounds + 1, depth, members, text => do
      let (key, text) ← readKey text
      let (value, text) ← readValue rounds depth text
      let members := members ++ [(key, value)]
      match text.dropWhile isJsonBlank with
      | '\x7d' :: rest => some (.object members, rest)
      | ',' :: rest => readMembers rounds depth members rest
      | _ => none

/-- The items of an array after those read. -/
def readItems : Nat → Nat → List JsonValue → List Char → Option (JsonValue × List Char)
  | 0, _, _, _ => none
  | rounds + 1, depth, items, text => do
      let (item, text) ← readValue rounds depth text
      let items := items ++ [item]
      match text.dropWhile isJsonBlank with
      | ']' :: rest => some (.array items, rest)
      | ',' :: rest => readItems rounds depth items rest
      | _ => none

end

/-- `maxNestingDepth`. -/
def maxNestingDepth : Nat := 10000

/-- `json.Unmarshal` into a `map[string]interface{}`, as the members read; `none` is an
error, and `null` leaves the nil map. -/
def unmarshalMap (text : String) : Option (List (String × JsonValue)) :=
  match readValue (text.toList.length + 1) maxNestingDepth text.toList with
  | some (.object members, rest) => if rest.all isJsonBlank then some members else none
  | some (.null, rest) => if rest.all isJsonBlank then some [] else none
  | _ => none

/-- An entry of the map: of two members with one key the later stays. -/
def jsonMember (members : List (String × JsonValue)) (key : String) : Option JsonValue :=
  (members.reverse.find? fun entry => entry.1 = key).map Prod.snd

end Jmdn.Go
