import Jmdn.Go.NumberText
import Jmdn.Nodeinfo.Transport

/-!
# Transactions at the ingest service

`convertProtoToTransaction` and the guess `newIntFromBytes` makes for each
integer: bytes that are the text of a number are read as text, all others as a
big-endian magnitude.  The message has the fields of the one on the sync wire; an
absent access list and an empty one are the same.
-/

namespace Jmdn.Block

open Config Go List Nodeinfo

variable {data : List UInt8}

/-- One byte of `isASCIIString`. -/
def isASCII (byte : UInt8) : Bool :=
  !(byte < 32 || byte > 126) || byte = 10 || byte = 13 || byte = 9

/-- `isASCIIString`. -/
def isASCIIString (data : List UInt8) : Bool :=
  data.all isASCII

/-- `newIntFromString`, which is called with the text of zero only. -/
def newIntFromString (text : String) : Int :=
  (setString text).getD 0

/-- `strings.TrimSpace(string(data))`. -/
def trimmedText (data : List UInt8) : String :=
  trimSpace (String.ofList (asciiText data))

/-- `newIntFromBytes`. -/
def newIntFromBytes (data : List UInt8) : Int :=
  if data = [] then newIntFromString "0"
  else if isASCIIString data then
    let chainIDStr := trimmedText data
    match setString chainIDStr with
    | some result => result
    | none =>
      match setString16 (trimStart chainIDStr "0x") with
      | some result => result
      | none => setBytes data
  else setBytes data

/-- An integer field of the message: no bytes leave it absent. -/
def ingestNumber (data : List UInt8) : Option Int :=
  if data = [] then none else some (newIntFromBytes data)

/-- `convertProtoToAccessList`. -/
def convertProtoToAccessList (accessList : List WireAccessTuple) : List AccessTuple :=
  accessList.map fun tuple =>
    { address := bytesToWord 160 tuple.address
      storageKeys := tuple.storageKeys.map (bytesToWord 256) }

/-- `convertProtoToTransaction`. -/
def convertProtoToTransaction (tx : WireTransaction) : Transaction :=
  { hash := bytesToWord 256 tx.hash
    fromAddr := readAddress tx.fromAddr
    toAddr := readAddress tx.toAddr
    value := ingestNumber tx.value
    txType := tx.txType.toUInt8
    timestamp := tx.timestamp
    chainID := ingestNumber tx.chainId
    nonce := tx.nonce
    gasLimit := tx.gasLimit
    gasPrice := ingestNumber tx.gasPrice
    maxFee := ingestNumber tx.maxFee
    maxPriorityFee := ingestNumber tx.maxPriorityFee
    data := tx.data
    accessList := convertProtoToAccessList tx.accessList
    v := ingestNumber tx.v
    r := ingestNumber tx.r
    s := ingestNumber tx.s }

/-! ## The integers of a transaction -/

/-- The bytes of the integer fields. -/
def integerFields (tx : WireTransaction) : List (List UInt8) :=
  [tx.value, tx.chainId, tx.gasPrice, tx.maxFee, tx.maxPriorityFee, tx.v, tx.r, tx.s]

/-- The integers of a transaction, in the same order. -/
def integers (tx : Transaction) : List (Option Int) :=
  [tx.value, tx.chainID, tx.gasPrice, tx.maxFee, tx.maxPriorityFee, tx.v, tx.r, tx.s]

/-- The integer whose big-endian magnitude was sent. -/
def sentNumber (data : List UInt8) : Option Int :=
  if data = [] then none else some (setBytes data)

/-- The blanks among the characters that pass `isASCIIString`. -/
def isBlank (c : Char) : Bool :=
  c = ' ' || c = '\n' || c = '\r' || c = '\t'

/-- The text of a number: hexadecimal digits with an optional sign, after an optional
`0x` and between blanks.  Decimal texts are among them. -/
def NumberText (text : List Char) : Prop :=
  ∃ before front number after, text = before ++ (front ++ number) ++ after ∧
    before.all isBlank ∧ after.all isBlank ∧ (front = [] ∨ front = ['0', 'x']) ∧
    Signed isHexDigit number

/-- A character inside the text of a number. -/
def isNumberChar (c : Char) : Bool :=
  isHexDigit c || c = 'x' || c = '+' || c = '-'

/-- The characters in question are few enough to go through. -/
private theorem ascii_table : ∀ code < 256,
    (isASCII (UInt8.ofNat code) ∧ isSpace (Char.ofNat code) → isBlank (Char.ofNat code)) ∧
    (isBlank (Char.ofNat code) → isASCII (UInt8.ofNat code) ∧ isSpace (Char.ofNat code)) ∧
    (isNumberChar (Char.ofNat code) →
      isASCII (UInt8.ofNat code) ∧ isSpace (Char.ofNat code) = false) := by
  decide +kernel

theorem isASCIIString_iff (data : List UInt8) :
    isASCIIString data ↔ ∀ c ∈ asciiText data, isASCII (UInt8.ofNat c.toNat) := by
  rw [isASCIIString, all_eq_true, asciiText, forall_mem_map]
  simp only [toNat_asciiChar, UInt8.ofNat_toNat]

theorem kinds_of_mem {c : Char} (mem : c ∈ asciiText data) :
    (isASCII (UInt8.ofNat c.toNat) ∧ isSpace c → isBlank c) ∧
    (isBlank c → isASCII (UInt8.ofNat c.toNat) ∧ isSpace c) ∧
    (isNumberChar c → isASCII (UInt8.ofNat c.toNat) ∧ isSpace c = false) := by
  obtain ⟨byte, -, rfl⟩ := mem_map.mp mem
  rw [toNat_asciiChar]
  exact ascii_table byte.toNat byte.toNat_lt

theorem isNumberChar_of_signed {number : List Char} (signed : Signed isHexDigit number) :
    ∀ c ∈ number, isNumberChar c := by
  obtain ⟨sign, digits, rfl, signs, -, all⟩ := signed
  intro c mem
  rcases mem_append.mp mem with inSign | inDigits
  · rcases signs with rfl | rfl | rfl
    · cases inSign
    · rw [mem_singleton.mp inSign]
      decide
    · rw [mem_singleton.mp inSign]
      decide
  · rw [isNumberChar, all_eq_true.mp all c inDigits]
    rfl

theorem exists_blanks_trimmedText (data : List UInt8) :
    ∃ before after, asciiText data = before ++ (trimmedText data).toList ++ after ∧
      before.all isSpace ∧ after.all isSpace := by
  obtain ⟨before, after, parts, blanks⟩ := exists_blanks (String.ofList (asciiText data))
  rw [String.toList_ofList] at parts
  exact ⟨before, after, parts, blanks⟩

/-- The number `newIntFromBytes` takes from the text of its bytes, if any. -/
def spelledNumber (data : List UInt8) : Option Int :=
  if isASCIIString data then
    (setString (trimmedText data)).or (setString16 (trimStart (trimmedText data) "0x"))
  else none

theorem newIntFromBytes_eq (nonempty : data ≠ []) :
    newIntFromBytes data = (spelledNumber data).getD (setBytes data) := by
  rw [newIntFromBytes, if_neg nonempty, spelledNumber]
  split_ifs
  · dsimp only
    cases setString (trimmedText data) with
    | some result => rfl
    | none =>
      cases setString16 (trimStart (trimmedText data) "0x") with
      | some result => rfl
      | none => rfl
  · rfl

/-- Cutting `0x` off leaves the end of the text. -/
theorem exists_trimStart (text : String) :
    ∃ front, (front = [] ∨ front = ['0', 'x']) ∧
      text.toList = front ++ (trimStart text "0x").toList := by
  unfold trimStart
  split
  · next starts =>
    obtain ⟨rest, spelled⟩ := isPrefixOf_iff_prefix.mp starts
    refine ⟨['0', 'x'], Or.inr rfl, ?_⟩
    rw [String.toList_ofList, ← spelled]
    rfl
  · exact ⟨[], Or.inl rfl, rfl⟩

/-- A spelled number is below the magnitude the same bytes stand for. -/
theorem spelledNumber_lt {number : Int} (spelled : spelledNumber data = some number) :
    number < setBytes data := by
  unfold spelledNumber at spelled
  split at spelled
  · obtain ⟨before, after, parts, -, -⟩ := exists_blanks_trimmedText data
    rcases Option.or_eq_some_iff.mp spelled with decimal | ⟨-, hex⟩
    · rw [setString_eq_signedNumber] at decimal
      exact signedNumber_lt_setBytes decimalDigits_lt_setBytes parts decimal
    obtain ⟨front, -, cut⟩ := exists_trimStart (trimmedText data)
    have inside : asciiText data =
        before ++ front ++ (trimStart (trimmedText data) "0x").toList ++ after := by
      rw [append_assoc before, ← cut]
      exact parts
    exact signedNumber_lt_setBytes hexDigits_lt_setBytes inside hex
  · cases spelled

theorem all_isBlank {part : List Char} (ascii : isASCIIString data)
    (inside : ∀ c ∈ part, c ∈ asciiText data) (spaces : part.all isSpace) :
    part.all isBlank := by
  rw [all_eq_true] at spaces ⊢
  intro c mem
  exact (kinds_of_mem (inside c mem)).1
    ⟨(isASCIIString_iff data).mp ascii c (inside c mem), spaces c mem⟩

theorem numberText_of_spelledNumber (spelled : (spelledNumber data).isSome) :
    NumberText (asciiText data) := by
  unfold spelledNumber at spelled
  split at spelled
  · next ascii =>
    obtain ⟨before, after, parts, spacesBefore, spacesAfter⟩ := exists_blanks_trimmedText data
    have blanksBefore := all_isBlank ascii
      (fun c mem => by rw [parts]; simp [mem]) spacesBefore
    have blanksAfter := all_isBlank ascii
      (fun c mem => by rw [parts]; simp [mem]) spacesAfter
    rw [Option.isSome_or, Bool.or_eq_true, setString_isSome_iff, setString16_isSome_iff]
      at spelled
    rcases spelled with decimal | hex
    · refine ⟨before, [], (trimmedText data).toList, after, ?_, blanksBefore, blanksAfter,
        Or.inl rfl, decimal.mono fun c digit => isHexDigit_of_isDigit digit⟩
      rw [nil_append]
      exact parts
    · obtain ⟨front, fronts, cut⟩ := exists_trimStart (trimmedText data)
      rw [cut] at parts
      exact ⟨before, front, _, after, parts, blanksBefore, blanksAfter, fronts, hex⟩
  · cases spelled

/-- A signed number does not begin with `0x`. -/
theorem trimStart_signed {text : String} (signed : Signed isHexDigit text.toList) :
    trimStart text "0x" = text := by
  unfold trimStart
  split
  · next starts =>
    obtain ⟨rest, spelled⟩ := isPrefixOf_iff_prefix.mp starts
    obtain ⟨sign, digits, equal, signs, -, all⟩ := signed
    have front : "0x".toList = ['0', 'x'] := rfl
    rw [← spelled, front] at equal
    rcases signs with rfl | rfl | rfl
    · rw [nil_append] at equal
      rw [← equal] at all
      exact absurd (all_eq_true.mp all 'x' (by simp)) (by decide)
    · cases equal
    · cases equal
  · rfl

theorem spelledNumber_of_numberText (text : NumberText (asciiText data)) :
    (spelledNumber data).isSome := by
  obtain ⟨before, front, number, after, parts, blanksBefore, blanksAfter, fronts, signed⟩ := text
  rw [all_eq_true] at blanksBefore blanksAfter
  have body : ∀ c ∈ front ++ number, isNumberChar c := by
    intro c mem
    rcases mem_append.mp mem with inFront | inNumber
    · rcases fronts with rfl | rfl
      · cases inFront
      · have digits : ['0', 'x'].all isNumberChar := by decide
        exact all_eq_true.mp digits c inFront
    · exact isNumberChar_of_signed signed c inNumber
  have place : ∀ c, c ∈ asciiText data ↔ (c ∈ before ∨ c ∈ front ++ number) ∨ c ∈ after := by
    intro c
    rw [parts, mem_append, mem_append]
  have blank : ∀ c, c ∈ before ∨ c ∈ after → isASCII (UInt8.ofNat c.toNat) ∧ isSpace c := by
    rintro c (inBefore | inAfter)
    · exact (kinds_of_mem ((place c).mpr (.inl (.inl inBefore)))).2.1 (blanksBefore c inBefore)
    · exact (kinds_of_mem ((place c).mpr (.inr inAfter))).2.1 (blanksAfter c inAfter)
  have solid : ∀ c ∈ front ++ number,
      isASCII (UInt8.ofNat c.toNat) ∧ isSpace c = false := by
    intro c inBody
    exact (kinds_of_mem ((place c).mpr (.inl (.inr inBody)))).2.2 (body c inBody)
  have ascii : isASCIIString data := by
    rw [isASCIIString_iff]
    intro c mem
    rcases (place c).mp mem with (inBefore | inBody) | inAfter
    · exact (blank c (.inl inBefore)).1
    · exact (solid c inBody).1
    · exact (blank c (.inr inAfter)).1
  have trimmed : (trimmedText data).toList = front ++ number := by
    refine trimSpace_blanks ((String.toList_ofList).trans parts)
      (all_eq_true.mpr fun c mem => (blank c (.inl mem)).2)
      (all_eq_true.mpr fun c mem => (blank c (.inr mem)).2)
      (fun c mem => (solid c mem).2)
  have cut : (trimStart (trimmedText data) "0x").toList = number := by
    rcases fronts with rfl | rfl
    · rw [trimStart_signed (by rw [trimmed]; exact signed), trimmed]
      rfl
    · rw [trimStart, trimmed, if_pos (by simp), String.toList_ofList]
      rfl
  rw [spelledNumber, if_pos ascii, Option.isSome_or,
    (setString16_isSome_iff _).mpr (by rw [cut]; exact signed), Bool.or_true]

/-- An integer arrives exactly when its bytes are not the text of a number. -/
theorem ingestNumber_eq_sentNumber_iff (data : List UInt8) :
    ingestNumber data = sentNumber data ↔ ¬ NumberText (asciiText data) := by
  by_cases empty : data = []
  · subst empty
    refine iff_of_true rfl ?_
    rintro ⟨before, front, number, after, parts, -, -, -, sign, digits, rfl, -, nonempty, -⟩
    have none := congrArg List.length parts
    have some := length_pos_iff.mpr nonempty
    simp only [asciiText, map_nil, length_nil, length_append] at none
    omega
  · rw [ingestNumber, sentNumber, if_neg empty, if_neg empty, Option.some.injEq,
      newIntFromBytes_eq empty]
    cases spelled : spelledNumber data with
    | some number =>
      have text := numberText_of_spelledNumber (by rw [spelled]; rfl)
      have less := spelledNumber_lt spelled
      exact iff_of_false less.ne (not_not_intro text)
    | none =>
      refine iff_of_true rfl fun text => ?_
      have read := spelledNumber_of_numberText text
      rw [spelled] at read
      cases read

/-- The integers of a transaction arrive exactly when none of its integer fields is
the text of a number; among such transactions different integers stay different. -/
theorem ingested_integers_iff (tx tx' : WireTransaction) :
    (integers (convertProtoToTransaction tx) = (integerFields tx).map sentNumber ↔
      ∀ field ∈ integerFields tx, ¬ NumberText (asciiText field)) ∧
    ((∀ field ∈ integerFields tx, ¬ NumberText (asciiText field)) →
      (∀ field ∈ integerFields tx', ¬ NumberText (asciiText field)) →
      convertProtoToTransaction tx = convertProtoToTransaction tx' →
      (integerFields tx).map sentNumber = (integerFields tx').map sentNumber) := by
  have exact : ∀ tx, integers (convertProtoToTransaction tx) =
      (integerFields tx).map sentNumber ↔
      ∀ field ∈ integerFields tx, ¬ NumberText (asciiText field) := by
    intro tx
    change (integerFields tx).map ingestNumber = _ ↔ _
    rw [map_inj_left]
    exact forall₂_congr fun field _ => ingestNumber_eq_sentNumber_iff field
  refine ⟨exact tx, ?_⟩
  intro plain plain' same
  rw [← (exact tx).mpr plain, ← (exact tx').mpr plain', same]

/-- A transfer of an amount, sent by its magnitude. -/
def wireTransfer (amount : Nat) : WireTransaction :=
  { value := bytes amount }

/-- The byte of 49 is the digit one; the two bytes of 12598 are the text of 16. -/
theorem digit_values_are_misread :
    (integerFields (wireTransfer 49)).map sentNumber ≠
        (integerFields (wireTransfer 1)).map sentNumber ∧
      convertProtoToTransaction (wireTransfer 49) = convertProtoToTransaction (wireTransfer 1) ∧
      (convertProtoToTransaction (wireTransfer 12598)).value = some 16 := by
  decide +kernel

theorem plain_integers_arrive :
    integers (convertProtoToTransaction (wireTransfer 1000)) =
      (integerFields (wireTransfer 1000)).map sentNumber := by
  refine (ingested_integers_iff (wireTransfer 1000) (wireTransfer 1000)).1.mpr ?_
  intro field member text
  have read := spelledNumber_of_numberText text
  have plain : ((integerFields (wireTransfer 1000)).all fun field =>
      !(spelledNumber field).isSome) = true := by decide +kernel
  have unread := all_eq_true.mp plain field member
  rw [read] at unread
  cases unread

end Jmdn.Block
