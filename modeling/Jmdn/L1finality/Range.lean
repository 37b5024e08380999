import Jmdn.Config.Types
import Jmdn.Transition.Loop

/-!
# Commitments of a range of blocks

`l1finality/l1finality.go`: a payload, from an HTTP request or a gossip message,
stamps every stored block of a range with one L1 transaction.  The loop counts
up in 64 bits, so it cannot pass the largest block number.
-/

namespace Jmdn.L1finality

open Config Transition UInt64

/-- Largest number of blocks one payload may cover. -/
def maxRangeSpan : UInt64 := 10000

structure RangePayload where
  startBlock : UInt64
  endBlock : UInt64
  l1TxHash : String
  l1BlockNumber : UInt64

inductive ValidateError where
  | fieldsRequired
  | rangeTooLarge (span : UInt64)
  deriving DecidableEq, Repr

/-- `RangePayload.Validate`. -/
def RangePayload.validate (payload : RangePayload) : Option ValidateError :=
  if payload.startBlock = 0 ∨ payload.endBlock < payload.startBlock ∨ payload.l1TxHash = "" then
    some .fieldsRequired
  else
    let span := payload.endBlock - payload.startBlock + 1
    if span > maxRangeSpan then some (.rangeTooLarge span) else none

/-- Which block reads and writes succeed, by the number of the read. -/
structure Env where
  readOk : Nat → Bool := fun _ => true
  updateOk : Nat → Bool := fun _ => true

/-- The state of the loop of `ApplyRange`, with the stored blocks and the number
of block reads so far. -/
structure RangeState where
  blockNum : UInt64
  blocks : UInt64 → Option ZKBlock
  reads : Nat := 0
  updated : Nat := 0
  skipped : Nat := 0

/-- The body of the loop, for the current block number. -/
def stampBlock (env : Env) (payload : RangePayload) (state : RangeState) : RangeState :=
  match if env.readOk state.reads then state.blocks state.blockNum else none with
  | none => { state with skipped := state.skipped + 1 }
  | some block =>
    if env.updateOk state.reads then
      { state with
        blocks := Function.update state.blocks state.blockNum (some { block with
          l1TxHash := payload.l1TxHash
          l1BlockNumber := payload.l1BlockNumber })
        updated := state.updated + 1 }
    else { state with skipped := state.skipped + 1 }

/-- One round of the loop of `ApplyRange`. -/
def rangeRound (env : Env) (payload : RangePayload) (state : RangeState) :
    RangeState ⊕ RangeState :=
  if state.blockNum ≤ payload.endBlock then
    .inr { stampBlock env payload state with
      blockNum := state.blockNum + 1
      reads := state.reads + 1 }
  else .inl state

/-- `ApplyRange` returns in the given state. -/
def ApplyRange (env : Env) (payload : RangePayload) (blocks : UInt64 → Option ZKBlock)
    (result : RangeState) : Prop :=
  Returns (rangeRound env payload) { blockNum := payload.startBlock, blocks } result

variable {payload : RangePayload}

theorem validate_eq_none (valid : payload.validate = none) :
    payload.startBlock ≠ 0 ∧ payload.startBlock ≤ payload.endBlock ∧
      payload.endBlock.toNat - payload.startBlock.toNat < maxRangeSpan.toNat := by
  unfold RangePayload.validate at valid
  split at valid
  · cases valid
  next required =>
  rw [not_or, not_or] at required
  obtain ⟨nonzero, ordered, -⟩ := required
  have upward : payload.startBlock ≤ payload.endBlock := UInt64.not_lt.mp ordered
  dsimp only at valid
  split at valid
  · cases valid
  next small =>
  refine ⟨nonzero, upward, ?_⟩
  have least : payload.startBlock.toNat ≠ 0 := fun zero =>
    nonzero (UInt64.toNat_inj.mp zero)
  have first := le_iff_toNat_le.mp upward
  have last := payload.endBlock.toNat_lt
  have span := le_iff_toNat_le.mp (UInt64.not_lt.mp small)
  rw [UInt64.toNat_add, UInt64.toNat_sub_of_le _ _ upward] at span
  have one : (1 : UInt64).toNat = 1 := rfl
  have most : maxRangeSpan.toNat = 10000 := rfl
  omega

/-- The body counts one block and leaves every other block alone. -/
theorem stampBlock_counts (env : Env) (payload : RangePayload) (state : RangeState) :
    (stampBlock env payload state).updated + (stampBlock env payload state).skipped =
        state.updated + state.skipped + 1 ∧
      ∀ number, number ≠ state.blockNum →
        (stampBlock env payload state).blocks number = state.blocks number := by
  unfold stampBlock
  split
  · exact ⟨rfl, fun _ _ => rfl⟩
  split
  · refine ⟨by dsimp only; omega, ?_⟩
    intro number other
    exact Function.update_of_ne other _ _
  · exact ⟨rfl, fun _ _ => rfl⟩

/-- What the loop leaves, started at any block number up to the end. -/
structure Covers (payload : RangePayload) (start result : RangeState) : Prop where
  reads : result.reads = start.reads + (payload.endBlock.toNat + 1 - start.blockNum.toNat)
  counts : result.updated + result.skipped =
    start.updated + start.skipped + (payload.endBlock.toNat + 1 - start.blockNum.toNat)
  outside : ∀ number, number < start.blockNum ∨ payload.endBlock < number →
    result.blocks number = start.blocks number

/-- Below the largest block number the loop returns. -/
theorem rangeRound_returns (env : Env) (below : payload.endBlock.toNat + 1 < 2 ^ 64) :
    ∀ (remaining : Nat) (start : RangeState),
      start.blockNum.toNat + remaining = payload.endBlock.toNat + 1 →
      ∃ result, Returns (rangeRound env payload) start result ∧ Covers payload start result := by
  intro remaining
  induction remaining with
  | zero =>
    intro start here
    have past : ¬ start.blockNum ≤ payload.endBlock := by
      rw [le_iff_toNat_le]
      omega
    refine ⟨start, Returns.leave (by rw [rangeRound, if_neg past]), ?_⟩
    constructor
    · omega
    · omega
    · exact fun _ _ => rfl
  | succ remaining ih =>
    intro start here
    have inside : start.blockNum ≤ payload.endBlock := by
      rw [le_iff_toNat_le]
      omega
    have next : (start.blockNum + 1).toNat = start.blockNum.toNat + 1 := by
      have one : (1 : UInt64).toNat = 1 := rfl
      rw [UInt64.toNat_add, one, Nat.mod_eq_of_lt (by omega)]
    obtain ⟨counted, kept⟩ := stampBlock_counts env payload start
    obtain ⟨result, returns, covers⟩ := ih { stampBlock env payload start with
      blockNum := start.blockNum + 1
      reads := start.reads + 1 } (by dsimp only; omega)
    refine ⟨result, returns.step (by rw [rangeRound, if_pos inside]), ?_⟩
    have reads := covers.reads
    have counts := covers.counts
    dsimp only at reads counts
    constructor
    · omega
    · omega
    · intro number outside
      have away : number < start.blockNum + 1 ∨ payload.endBlock < number := by
        refine outside.imp_left fun lower => ?_
        rw [lt_iff_toNat_lt] at lower ⊢
        omega
      have different : number ≠ start.blockNum := by
        rintro rfl
        rcases outside with lower | upper
        · exact UInt64.lt_irrefl _ lower
        · exact UInt64.not_lt.mpr inside upper
      rw [covers.outside number away]
      exact kept number different

/-- At the largest block number it does not: the counter wraps to zero. -/
theorem rangeRound_not_returns (env : Env) (last : payload.endBlock.toNat + 1 = 2 ^ 64)
    (start result : RangeState) :
    ¬ Returns (rangeRound env payload) start result := by
  refine @not_returns _ _ (rangeRound env payload) (fun _ => True) ?_ start trivial result
  intro state _
  have inside : state.blockNum ≤ payload.endBlock := by
    rw [le_iff_toNat_le]
    have bound := state.blockNum.toNat_lt
    omega
  exact ⟨_, if_pos inside, trivial⟩

/-- A valid payload is applied block by block, unless it ends at the largest block
number: then the loop does not end. -/
theorem applyRange_bounded_iff (env : Env) {payload : RangePayload}
    (valid : payload.validate = none) (blocks : UInt64 → Option ZKBlock) :
    (∃ result, ApplyRange env payload blocks result ∧
      result.reads = payload.endBlock.toNat - payload.startBlock.toNat + 1 ∧
      result.reads ≤ maxRangeSpan.toNat ∧ result.updated + result.skipped = result.reads ∧
      ∀ number, number < payload.startBlock ∨ payload.endBlock < number →
        result.blocks number = blocks number) ↔
    payload.endBlock ≠ 18446744073709551615 := by
  obtain ⟨-, ordered, span⟩ := validate_eq_none valid
  rw [le_iff_toNat_le] at ordered
  have largest : (18446744073709551615 : UInt64).toNat + 1 = 2 ^ 64 := rfl
  constructor
  · rintro ⟨result, returns, -⟩ last
    exact rangeRound_not_returns env (by rw [last, largest]) _ result returns
  · intro below
    have bound := payload.endBlock.toNat_lt
    have smaller : payload.endBlock.toNat ≠ (18446744073709551615 : UInt64).toNat := fun same =>
      below (UInt64.toNat_inj.mp same)
    have fits : payload.endBlock.toNat + 1 < 2 ^ 64 := by omega
    obtain ⟨result, returns, covers⟩ := rangeRound_returns env fits
      (payload.endBlock.toNat + 1 - payload.startBlock.toNat)
      { blockNum := payload.startBlock, blocks } (by dsimp only; omega)
    have reads := covers.reads
    have counts := covers.counts
    dsimp only at reads counts
    exact ⟨result, returns, by omega, by omega, by omega, covers.outside⟩

/-- A commitment of the blocks from `startBlock` to `endBlock`. -/
def commitment (startBlock endBlock : UInt64) : RangePayload :=
  { startBlock, endBlock, l1TxHash := "0x1", l1BlockNumber := 1 }

theorem last_block_range_never_ends :
    (commitment 18446744073709551615 18446744073709551615).validate = none ∧
      ∀ result, ¬ ApplyRange {} (commitment 18446744073709551615 18446744073709551615)
        (fun _ => none) result :=
  ⟨by decide, fun result => rangeRound_not_returns {} rfl _ result⟩

/-- One of the two blocks is stored and stamped, the other one is skipped. -/
theorem two_block_range_ends :
    ∃ result, ApplyRange {} (commitment 7 8) (Function.update (fun _ => none) 7 (some {})) result ∧
      result.reads = 2 ∧ result.updated = 1 ∧ result.skipped = 1 ∧
      (result.blocks 7).map ZKBlock.l1TxHash = some "0x1" := by
  have valid : (commitment 7 8).validate = none := by decide
  obtain ⟨result, ⟨fuel, finished⟩, reads, -⟩ := (applyRange_bounded_iff {} valid
    (Function.update (fun _ => none) 7 (some {}))).mpr (by decide)
  refine ⟨result, ⟨fuel, finished⟩, reads, ?_⟩
  have run : loop (rangeRound {} (commitment 7 8)) 3
    { blockNum := 7, blocks := Function.update (fun _ => none) 7 (some {}) } = some _ := rfl
  cases (loop_mono finished (Nat.le_add_right fuel 3)).symm.trans
    (loop_mono run (Nat.le_add_left 3 fuel))
  exact ⟨rfl, rfl, rfl⟩

end Jmdn.L1finality
