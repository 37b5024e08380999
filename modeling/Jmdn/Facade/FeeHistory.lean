import Mathlib.Data.UInt
import Jmdn.Go.HexText
import Jmdn.Go.Panic
import Jmdn.Config.GasFee

/-!
# eth_feeHistory

The handler of `eth_feeHistory` and `FeeHistory`.  A block count is converted to
a signed number before it is subtracted from the newest block, and both ends of
the range are cut to 64 bits before they are subtracted from each other.

`feeHistory_answers_iff` says for which requests the answer has the promised
size and ends at the newest block.
-/

namespace Jmdn.Facade

open Config Go List

variable {blockCount : UInt64} {platform : Platform} {latest : Except String UInt64} {newest : Int}
  {perc : List F}

/-! ## Reading a request -/

/-- A decoded JSON value, with floating-point numbers of type `F`. -/
inductive Value (F : Type) where
  | text (value : String)
  | number (value : F)
  | int (value : Int64)
  | list (elements : List (Value F))
  | other

/-- What `strings`, `fmt` and the compiler compute: lower case outside ASCII, what
a failed `SetString` leaves in its receiver, `Sscanf` and the conversion of a
floating-point number. -/
structure Library (F : Type) where
  lowerRune : Char → Char
  leftover : String → Int
  scanUint64 : String → UInt64
  scanFloat : String → F
  truncate : F → UInt64

/-- `big.Int.Uint64`: the low 64 bits of the magnitude. -/
def low64 (n : Int) : UInt64 :=
  UInt64.ofNat n.natAbs

variable {F : Type}

/-- `new(big.Int).SetString(digits, 16)` with its result ignored. -/
def Library.setHex (library : Library F) (digits : String) : Int :=
  (setString16 digits).getD (library.leftover digits)

/-- `ServiceImpl.BlockNumber` over the outcome of `GetLatestBlockNumber`. -/
def blockNumber (latest : Except String UInt64) : Except Stop Int :=
  match latest with
  | .error cause => .error (.error cause)
  | .ok number => .ok number.toInt64.toInt

/-- `parseBlockTag`. -/
def parseBlockTag (library : Library F) (latest : Except String UInt64) (tag : String) :
    Except Stop Int :=
  let name := toLower library.lowerRune (trimSpace tag)
  if name = "latest" ∨ name = "" then
    blockNumber latest
  else if name = "pending" then
    blockNumber latest
  else
    match hexTail tag with
    | some digits => .ok (library.setHex digits)
    | none => .error (.error "unsupported block tag")

/-- `mustString`. -/
def mustString : Value F → String
  | .text value => value
  | _ => ""

/-- The block count of a request; `none` for a value of another type. -/
def parseBlockCount (library : Library F) : Value F → Option UInt64
  | .text value =>
    match hexTail value with
    | some digits => some (low64 (library.setHex digits))
    | none => some (library.scanUint64 value)
  | .number value => some (library.truncate value)
  | .int value => some value.toUInt64
  | _ => none

/-- The percentiles of a request; values of other types are skipped. -/
def parsePercentiles (library : Library F) : Option (Value F) → List F
  | some (.list elements) =>
    elements.filterMap fun element =>
      match element with
      | .number value => some value
      | .text value => some (library.scanFloat value)
      | _ => none
  | _ => []

/-! ## The history -/

/-- The result map.  `gasUsedRatio` holds rationals, each exact as a float. -/
structure History where
  oldestBlock : String
  baseFeePerGas : List String
  gasUsedRatio : List Rat
  reward : Option (List (List String))
  deriving DecidableEq

/-- The oldest block of the range. -/
def oldestNum (blockCount : UInt64) (newestNum : Int) : Int :=
  let difference := newestNum - blockCount.toInt64.toInt
  if difference < 0 then 0 else difference

def entryCount (blockCount : UInt64) (newestNum : Int) : UInt64 :=
  low64 newestNum - low64 (oldestNum blockCount newestNum) + 1

/-- The rows of rewards, made when there are percentiles. -/
def rewardRows (platform : Platform) (count percentiles : Nat) :
    Except Stop (Option (List (List String))) :=
  if percentiles = 0 then
    .ok none
  else do
    let rows ← makeSlice platform 24 count ([] : List String)
    let filled ← rows.mapM fun _ => makeSlice platform 16 percentiles "0x0"
    return if filled = [] then none else some filled

/-- The newest block of the range: the latest one when none is given. -/
def newestOr (latest : Except String UInt64) : Option Int → Except Stop Int
  | some newest => .ok newest
  | none => blockNumber latest

/-- `ServiceImpl.FeeHistory`. -/
def feeHistory (platform : Platform) (latest : Except String UInt64) (blockCount : UInt64)
    (newest : Option Int) (perc : List F) : Except Stop History := do
  let newestNum ← newestOr latest newest
  let count := (entryCount blockCount newestNum).toNat
  let baseFeePerGas ← makeSlice platform 16 count (hexText baseFeeWei.toNat)
  let gasUsedRatio ← makeSlice platform 8 count (1 / 2 : Rat)
  let reward ← rewardRows platform count perc.length
  return {
    oldestBlock := hexText (low64 (oldestNum blockCount newestNum)).toNat
    baseFeePerGas := baseFeePerGas
    gasUsedRatio := gasUsedRatio
    reward := reward }

/-- The `eth_feeHistory` case of `Handle`. -/
def ethFeeHistory (platform : Platform) (library : Library F) (latest : Except String UInt64)
    (params : List (Value F)) : Except Stop History :=
  match params with
  | count :: newest :: rest =>
    match parseBlockCount library count with
    | none => .error (.error "invalid blockCount type")
    | some blockCount => do
        let newestBlock ← parseBlockTag library latest (mustString newest)
        feeHistory platform latest blockCount (some newestBlock)
          (parsePercentiles library rest.head?)
  | _ => .error (.error "missing blockCount and newestBlock")

/-! ## When the answer is right -/

/-- What an answer promises: at most one entry for each block from `blockCount`
before the newest on, none before block zero, and the range ends at the newest
block. -/
structure History.Spans (blockCount : UInt64) (newest : Int) (history : History) : Prop where
  baseFees : (history.baseFeePerGas.length : Int) ≤ min (blockCount.toNat : Int) newest + 1
  ratios : history.gasUsedRatio.length = history.baseFeePerGas.length
  rewards : ∀ rows ∈ history.reward, rows.length = history.baseFeePerGas.length
  ends : ∃ oldest, hexNumber history.oldestBlock = some oldest ∧
    oldest + history.baseFeePerGas.length - 1 = newest

variable {history : History}

/-- The slices of an answer fit the platform. -/
structure Fits (platform : Platform) (count percentiles : Nat) : Prop where
  fees : 16 * count ≤ platform.maxAlloc
  rows : 0 < percentiles → 24 * count ≤ platform.maxAlloc
  row : 0 < percentiles → 0 < count → 16 * percentiles ≤ platform.maxAlloc

/-- The requests `FeeHistory` answers: the newest block is not negative, the
oldest is a 64-bit number, and either the block count is below `2 ^ 63` and the
entries fit, or it is the largest 64-bit number and there is no entry. -/
def Answerable (platform : Platform) (blockCount : UInt64) (newest : Int)
    (percentiles : Nat) : Prop :=
  0 ≤ newest ∧
    ((blockCount.toNat < 2 ^ 63 ∧ newest - blockCount.toNat < 2 ^ 64 ∧
        Fits platform (min blockCount.toNat newest.toNat + 1) percentiles) ∨
      (blockCount.toNat = 2 ^ 64 - 1 ∧ newest + 1 < 2 ^ 64))

theorem toInt_toInt64_eq (number : UInt64) :
    number.toInt64.toInt =
      if number.toNat < 2 ^ 63 then (number.toNat : Int) else number.toNat - 2 ^ 64 := by
  have bits : number.toInt64.toInt = number.toBitVec.toInt := rfl
  rw [bits, BitVec.toInt_eq_toNat_cond, UInt64.toNat_toBitVec]
  split <;> split <;> omega

theorem toNat_low64 (n : Int) : (low64 n).toNat = n.natAbs % 2 ^ 64 :=
  UInt64.toNat_ofNat'

theorem toNat_entryCount (blockCount : UInt64) (newest : Int) :
    (entryCount blockCount newest).toNat =
      (2 ^ 64 - (oldestNum blockCount newest).natAbs % 2 ^ 64 + newest.natAbs % 2 ^ 64 + 1) %
        2 ^ 64 := by
  rw [entryCount, UInt64.toNat_add, UInt64.toNat_sub, toNat_low64, toNat_low64,
    UInt64.toNat_one, Nat.mod_add_mod]

/-- The entries and the oldest block of a request with a block count below
`2 ^ 63`. -/
theorem range_of_count_lt (known : 0 ≤ newest) (below : blockCount.toNat < 2 ^ 63)
    (bounded : newest - blockCount.toNat < 2 ^ 64) :
    (entryCount blockCount newest).toNat = min blockCount.toNat newest.toNat + 1 ∧
      ((low64 (oldestNum blockCount newest)).toNat : Int) =
        newest - min (blockCount.toNat : Int) newest := by
  rw [toNat_entryCount, toNat_low64]
  simp only [oldestNum, toInt_toInt64_eq, if_pos below]
  split <;> omega

/-- The largest block count is read as minus one: no entry, and the range starts
behind the newest block. -/
theorem range_of_count_max (known : 0 ≤ newest) (largest : blockCount.toNat = 2 ^ 64 - 1)
    (bounded : newest + 1 < 2 ^ 64) :
    (entryCount blockCount newest).toNat = 0 ∧
      ((low64 (oldestNum blockCount newest)).toNat : Int) = newest + 1 := by
  have negative : ¬ blockCount.toNat < 2 ^ 63 := by omega
  rw [toNat_entryCount, toNat_low64]
  simp only [oldestNum, toInt_toInt64_eq, if_neg negative]
  split <;> omega

/-- A range that ends at the newest block and has fewer than `2 ^ 63` entries. -/
theorem range_of_ends (ends : ((low64 (oldestNum blockCount newest)).toNat : Int) +
      (entryCount blockCount newest).toNat - 1 = newest)
    (few : (entryCount blockCount newest).toNat < 2 ^ 63) :
    0 ≤ newest ∧ ((blockCount.toNat < 2 ^ 63 ∧ newest - blockCount.toNat < 2 ^ 64) ∨
      (blockCount.toNat = 2 ^ 64 - 1 ∧ newest + 1 < 2 ^ 64)) := by
  have small := blockCount.toNat_lt
  rw [toNat_entryCount] at few
  rw [toNat_entryCount, toNat_low64] at ends
  simp only [oldestNum, toInt_toInt64_eq] at few ends
  split_ifs at few ends <;> omega

/-- The answer whose slices hold the given numbers of elements. -/
def historyOf (blockCount : UInt64) (newest : Int) (percentiles : Nat) : History :=
  let count := (entryCount blockCount newest).toNat
  { oldestBlock := hexText (low64 (oldestNum blockCount newest)).toNat
    baseFeePerGas := List.replicate count (hexText baseFeeWei.toNat)
    gasUsedRatio := List.replicate count (1 / 2)
    reward :=
      if percentiles = 0 ∨ count = 0 then none
      else some (List.replicate count (List.replicate percentiles "0x0")) }

theorem rewardRows_eq_ok_iff {count percentiles : Nat} {reward : Option (List (List String))} :
    rewardRows platform count percentiles = .ok reward ↔
      (0 < percentiles → 24 * count ≤ platform.maxAlloc) ∧
      (0 < percentiles → 0 < count → 16 * percentiles ≤ platform.maxAlloc) ∧
      reward = if percentiles = 0 ∨ count = 0 then none
        else some (List.replicate count (List.replicate percentiles "0x0")) := by
  unfold rewardRows
  by_cases empty : percentiles = 0
  · simp [empty, eq_comm]
  have pos : 0 < percentiles := Nat.pos_of_ne_zero empty
  rw [if_neg empty]
  constructor
  · intro done
    obtain ⟨rows, made, filling⟩ := bind_eq_ok done
    obtain ⟨filled, each, result⟩ := bind_eq_ok filling
    obtain ⟨wide, made⟩ := makeSlice_eq_ok_iff.mp made
    obtain ⟨long, each⟩ := mapM_const_eq_ok_iff.mp each
    rw [made, length_replicate] at long
    have same : filled = List.replicate count (List.replicate percentiles "0x0") :=
      eq_replicate_iff.mpr ⟨long, fun row mem =>
        (makeSlice_eq_ok_iff.mp (each row mem)).2⟩
    refine ⟨fun _ => wide, fun _ entries => ?_, ?_⟩
    · obtain ⟨row, mem⟩ := exists_mem_of_length_pos (long ▸ entries)
      exact (makeSlice_eq_ok_iff.mp (each row mem)).1
    · cases result
      rw [same]
      simp [empty]
  · rintro ⟨rows, row, rfl⟩
    have made : makeSlice platform 24 count ([] : List String) =
        .ok (List.replicate count []) := makeSlice_eq_ok_iff.mpr ⟨rows pos, rfl⟩
    have each : (List.replicate count ([] : List String)).mapM
        (fun _ => makeSlice platform 16 percentiles "0x0") =
          .ok (List.replicate count (List.replicate percentiles "0x0")) := by
      refine mapM_const_eq_ok_iff.mpr ⟨by simp, fun value mem => ?_⟩
      obtain ⟨entries, rfl⟩ := mem_replicate.mp mem
      exact makeSlice_eq_ok_iff.mpr ⟨row pos (Nat.pos_of_ne_zero entries), rfl⟩
    rw [made, ok_bind, each, ok_bind]
    simp [empty, pure, Except.pure]

/-- `FeeHistory` returns when its slices fit, and panics otherwise. -/
theorem feeHistory_eq_ok_iff :
    feeHistory platform latest blockCount (some newest) perc = .ok history ↔
      Fits platform (entryCount blockCount newest).toNat perc.length ∧
        history = historyOf blockCount newest perc.length := by
  unfold feeHistory
  rw [newestOr, ok_bind]
  constructor
  · intro done
    obtain ⟨fees, madeFees, done⟩ := bind_eq_ok done
    obtain ⟨ratios, madeRatios, done⟩ := bind_eq_ok done
    obtain ⟨reward, madeReward, done⟩ := bind_eq_ok done
    obtain ⟨fit, rfl⟩ := makeSlice_eq_ok_iff.mp madeFees
    obtain ⟨-, rfl⟩ := makeSlice_eq_ok_iff.mp madeRatios
    obtain ⟨rows, row, rfl⟩ := rewardRows_eq_ok_iff.mp madeReward
    cases done
    exact ⟨⟨fit, rows, row⟩, rfl⟩
  · rintro ⟨fits, rfl⟩
    have halves : 8 * (entryCount blockCount newest).toNat ≤ platform.maxAlloc :=
      (Nat.mul_le_mul_right _ (by decide)).trans fits.fees
    dsimp only
    rw [makeSlice_eq_ok_iff.mpr ⟨fits.fees, rfl⟩, ok_bind,
      makeSlice_eq_ok_iff.mpr ⟨halves, rfl⟩, ok_bind,
      rewardRows_eq_ok_iff.mpr ⟨fits.rows, fits.row, rfl⟩, ok_bind]
    rfl

theorem feeHistory_spans_of_fits
    (fits : Fits platform (entryCount blockCount newest).toNat perc.length)
    (few : ((entryCount blockCount newest).toNat : Int) ≤
      min (blockCount.toNat : Int) newest + 1)
    (ends : ((low64 (oldestNum blockCount newest)).toNat : Int) +
      (entryCount blockCount newest).toNat - 1 = newest) :
    ∃ history, feeHistory platform latest blockCount (some newest) perc = .ok history ∧
      history.Spans blockCount newest := by
  refine ⟨_, feeHistory_eq_ok_iff.mpr ⟨fits, rfl⟩, ?_, ?_, ?_, ?_⟩
  · simpa [historyOf] using few
  · simp [historyOf]
  · intro rows mem
    simp only [historyOf] at mem ⊢
    split at mem
    · cases mem
    · cases mem
      simp
  · exact ⟨_, hexNumber_hexText _, by simpa [historyOf] using ends⟩

theorem answerable_of_spans
    (done : feeHistory platform latest blockCount (some newest) perc = .ok history)
    (spans : history.Spans blockCount newest) :
    Answerable platform blockCount newest perc.length := by
  obtain ⟨fits, rfl⟩ := feeHistory_eq_ok_iff.mp done
  have few : (entryCount blockCount newest).toNat < 2 ^ 63 := by
    have room := fits.fees
    have limit := platform.addressable
    omega
  obtain ⟨oldest, denoted, ends⟩ := spans.ends
  have start : oldest = (low64 (oldestNum blockCount newest)).toNat := by
    simpa [historyOf, eq_comm] using denoted
  rw [start] at ends
  have range := range_of_ends (by simpa [historyOf] using ends) few
  obtain ⟨known, ⟨below, bounded⟩ | largest⟩ := range
  · rw [(range_of_count_lt known below bounded).1] at fits
    exact ⟨known, Or.inl ⟨below, bounded, fits⟩⟩
  · exact ⟨known, Or.inr largest⟩

theorem Answerable.feeHistory_spans (latest : Except String UInt64)
    (answerable : Answerable platform blockCount newest perc.length) :
    ∃ history, feeHistory platform latest blockCount (some newest) perc = .ok history ∧
      history.Spans blockCount newest := by
  obtain ⟨known, ⟨below, bounded, fits⟩ | ⟨largest, bounded⟩⟩ := answerable
  · obtain ⟨count, start⟩ := range_of_count_lt known below bounded
    refine feeHistory_spans_of_fits (count ▸ fits) ?_ ?_ <;> omega
  · obtain ⟨count, start⟩ := range_of_count_max known largest bounded
    refine feeHistory_spans_of_fits ?_ ?_ ?_
    · rw [count]
      exact ⟨Nat.zero_le _, fun _ => Nat.zero_le _, fun _ entries => absurd entries (by decide)⟩
    · omega
    · omega

/-- `FeeHistory` returns an answer of the promised size that ends at the newest
block exactly for the requests it can answer. -/
theorem feeHistory_answers_iff (platform : Platform) (latest : Except String UInt64)
    (blockCount : UInt64) (newest : Int) (perc : List F) :
    (∃ history, feeHistory platform latest blockCount (some newest) perc = .ok history ∧
        history.Spans blockCount newest) ↔
      Answerable platform blockCount newest perc.length := by
  constructor
  · rintro ⟨history, done, spans⟩
    exact answerable_of_spans done spans
  · intro answerable
    exact answerable.feeHistory_spans latest

theorem linux_addressable : 2 ^ 48 < 2 ^ 63 := by
  decide

/-- A 64-bit Linux machine. -/
def linux : Platform where
  maxAlloc := 2 ^ 48
  addressable := linux_addressable

/-- `big.Int` leaves a zero, nothing is scanned. -/
def plainLibrary : Library Rat where
  lowerRune := id
  leftover := fun _ => 0
  scanUint64 := fun _ => 0
  scanFloat := fun _ => 0
  truncate := fun number => UInt64.ofNat number.floor.toNat

/-- A request for `2 ^ 63` blocks before block sixteen, where block sixteen is the
latest one, panics; the range would be blocks zero to sixteen. -/
theorem large_block_count_panics :
    parseBlockCount plainLibrary (.text "0x8000000000000000") = some (2 ^ 63) ∧
      parseBlockTag plainLibrary (.ok 16) "0x10" = .ok 16 ∧
      ethFeeHistory linux plainLibrary (.ok 16)
          [.text "0x8000000000000000", .text "0x10"] =
        .error (.panicked .lengthOutOfRange) ∧
      (feeHistory linux (.ok 16) (2 ^ 63 - 1) (some 16) ([] : List Rat)).toOption.map
          (fun history => (history.oldestBlock, history.baseFeePerGas.length)) =
        some ("0x0", 17) := by
  decide +kernel

end Jmdn.Facade
