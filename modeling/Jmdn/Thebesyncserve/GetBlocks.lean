import Mathlib.Algebra.GroupWithZero.Nat
import Jmdn.Transition.Loop

/-!
# Serving a range of blocks

`buildGetBlocks` reads the blocks of a clamped range one after another.  It stops
at a block it does not get and before the response would outgrow its budget; the
counter is not stopped by the largest block number.
-/

namespace Jmdn.Thebesyncserve

open Transition UInt64

def maxBlocksPerRequest : UInt64 := 30

def maxGetBlocksRespBytes : Nat := 128 * 1024 * 1024

/-- `serveByteBudget`. -/
def serveByteBudget : Nat := maxGetBlocksRespBytes / 2

/-- What the provider's `RawBlock` returns. -/
inductive RawBlock where
  | found (raw : List UInt8)
  | missing
  | failed

structure GetBlocksRequest where
  lower : UInt64
  upper : UInt64

inductive GetBlocksResponse where
  | blocks (blocks : List (List UInt8))
  | error (text : String)

/-- `clampedTo`. -/
def clampedTo (lower upper : UInt64) : UInt64 :=
  if upper - lower ≥ maxBlocksPerRequest then lower + maxBlocksPerRequest - 1 else upper

/-- The variables of the loop.  The blocks are in memory together, so their sizes
add up. -/
structure ServeState where
  number : UInt64
  blocks : List (List UInt8) := []
  size : Nat := 0

/-- One round of the loop of `buildGetBlocks`. -/
def serveRound (provider : UInt64 → RawBlock) (upper : UInt64) (state : ServeState) :
    List (List UInt8) ⊕ ServeState :=
  if state.number ≤ upper then
    match provider state.number with
    | .found raw =>
      if state.blocks ≠ [] ∧ state.size + raw.length > serveByteBudget then .inl state.blocks
      else
        .inr { number := state.number + 1
               blocks := state.blocks ++ [raw]
               size := state.size + raw.length }
    | _ => .inl state.blocks
  else .inl state.blocks

/-- `buildGetBlocks` returns the response. -/
def BuildGetBlocks (provider : UInt64 → RawBlock) (req : GetBlocksRequest)
    (response : GetBlocksResponse) : Prop :=
  if req.upper < req.lower then response = .error "invalid range"
  else ∃ blocks, response = .blocks blocks ∧
    Returns (serveRound provider (clampedTo req.lower req.upper)) { number := req.lower } blocks

/-- The blocks served up to a round are those from `lower` on, within the budget
unless there is one. -/
structure Serves (provider : UInt64 → RawBlock) (lower : UInt64) (state : ServeState) : Prop where
  number : state.number.toNat = lower.toNat + state.blocks.length
  size : state.size = (state.blocks.map List.length).sum
  stored : ∀ index raw, state.blocks[index]? = some raw → ∃ number : UInt64,
    number.toNat = lower.toNat + index ∧ provider number = .found raw
  small : state.size ≤ serveByteBudget ∨ state.blocks.length ≤ 1

/-- No block follows: the next one is not there, or there is no room for it. -/
def Stops (provider : UInt64 → RawBlock) (state : ServeState) : Prop :=
  ∀ raw, provider state.number = .found raw →
    state.blocks ≠ [] ∧ serveByteBudget < state.size + raw.length

variable {provider : UInt64 → RawBlock} {lower upper : UInt64} {state : ServeState}

theorem clampedTo_spec (ordered : lower ≤ upper) :
    lower.toNat ≤ (clampedTo lower upper).toNat ∧
      (clampedTo lower upper).toNat < lower.toNat + maxBlocksPerRequest.toNat := by
  have most : maxBlocksPerRequest.toNat = 30 := rfl
  have one : (1 : UInt64).toNat = 1 := rfl
  have last := upper.toNat_lt
  have first := le_iff_toNat_le.mp ordered
  have span := UInt64.toNat_sub_of_le _ _ ordered
  unfold clampedTo
  split
  · next long =>
    have wide := le_iff_toNat_le.mp long
    have total : (lower + maxBlocksPerRequest).toNat = lower.toNat + 30 := by
      rw [UInt64.toNat_add]
      omega
    rw [UInt64.toNat_sub_of_le _ _ (by rw [le_iff_toNat_le]; omega)]
    omega
  · next short =>
    have narrow := lt_iff_toNat_lt.mp (UInt64.not_le.mp short)
    omega

/-- A round at a number of the range stops or takes one more block. -/
theorem serveRound_cases (inside : state.number ≤ upper) :
    (serveRound provider upper state = .inl state.blocks ∧ Stops provider state) ∨
      ∃ raw, provider state.number = .found raw ∧
        (state.blocks = [] ∨ state.size + raw.length ≤ serveByteBudget) ∧
        serveRound provider upper state = .inr
          { number := state.number + 1
            blocks := state.blocks ++ [raw]
            size := state.size + raw.length } := by
  unfold serveRound
  rw [if_pos inside]
  cases read : provider state.number with
  | found raw =>
    dsimp only
    split
    · next full =>
      refine .inl ⟨rfl, fun other same => ?_⟩
      cases read.symm.trans same
      exact full
    · next room => exact .inr ⟨raw, rfl, by simpa [imp_iff_not_or] using room, rfl⟩
  | _ =>
    refine .inl ⟨rfl, fun other same => ?_⟩
    cases read.symm.trans same

theorem Serves.next (serves : Serves provider lower state) {raw : List UInt8}
    (read : provider state.number = .found raw)
    (room : state.blocks = [] ∨ state.size + raw.length ≤ serveByteBudget)
    (below : state.number.toNat + 1 < 2 ^ 64) :
    Serves provider lower
      { number := state.number + 1
        blocks := state.blocks ++ [raw]
        size := state.size + raw.length } where
  number := by
    have one : (1 : UInt64).toNat = 1 := rfl
    rw [UInt64.toNat_add, one, Nat.mod_eq_of_lt below, serves.number, List.length_append]
    rfl
  size := by simp [serves.size]
  stored := by
    intro index block found
    rcases Nat.lt_or_ge index state.blocks.length with old | new
    · rw [List.getElem?_append_left old] at found
      exact serves.stored index block found
    · rw [List.getElem?_append_right new, List.getElem?_singleton] at found
      split at found
      · next last =>
        cases found
        exact ⟨state.number, by rw [serves.number]; omega, read⟩
      · cases found
  small := by
    rcases room with empty | room
    · exact .inr (by simp [empty])
    · exact .inl room

/-- Without a block at the largest number the loop returns, from wherever it is. -/
theorem serveRound_returns (top : ∀ raw, provider 0xffffffffffffffff ≠ .found raw)
    (upper : UInt64) (remaining : Nat) (serves : Serves provider lower state)
    (left : state.number.toNat + remaining = upper.toNat + 1) :
    ∃ final, Returns (serveRound provider upper) state final.blocks ∧
      Serves provider lower final ∧ final.number.toNat ≤ upper.toNat + 1 ∧
      (final.number.toNat ≤ upper.toNat → Stops provider final) := by
  induction remaining generalizing state with
  | zero =>
    have past : ¬ state.number ≤ upper := by
      rw [le_iff_toNat_le]
      omega
    exact ⟨state, .leave (if_neg past), serves, by omega, by omega⟩
  | succ remaining ih =>
    have inside : state.number ≤ upper := by
      rw [le_iff_toNat_le]
      omega
    rcases serveRound_cases inside with ⟨leaves, stops⟩ | ⟨raw, read, room, goes⟩
    · exact ⟨state, .leave leaves, serves, by omega, fun _ => stops⟩
    have below : state.number.toNat + 1 < 2 ^ 64 := by
      have bound := state.number.toNat_lt
      have other : state.number.toNat ≠ (0xffffffffffffffff : UInt64).toNat := fun last =>
        top raw (UInt64.toNat_inj.mp last ▸ read)
      have greatest : (0xffffffffffffffff : UInt64).toNat = 2 ^ 64 - 1 := rfl
      omega
    have next := serves.next read room below
    have moved : (state.number + 1).toNat = state.number.toNat + 1 := by
      rw [next.number, serves.number, List.length_append, List.length_singleton, Nat.add_assoc]
    obtain ⟨final, returns, rest⟩ := ih next (by rw [moved]; omega)
    exact ⟨final, .step goes returns, rest⟩

end Jmdn.Thebesyncserve
