import Jmdn.Nodeinfo.BlockIterator
import Jmdn.Transition.Batches

/-!
# What the block iterator enumerates

`Next` enumerates the positions of the range if no window passes the largest
block number and the range ends before it; `Prev` only needs the latter, and
returns the reversed sequence.
-/

namespace Jmdn.Nodeinfo

open Config FastsyncV2 List Merkle Transition Txindex UInt64

variable {first last size : UInt64} {count : Nat}

/-- The positions of a call that returned. -/
def Batch.toOption : Batch → Option (List (Option ZKBlock))
  | .blocks ptrs => some ptrs
  | _ => none

/-- Calls of `Next` on a database that answers. -/
def BlockStore.forward (store : BlockStore) (iter : DbBlockIterator) :
    Option (List (Option ZKBlock)) × DbBlockIterator :=
  ((iter.next store.blocks true).1.toOption, (iter.next store.blocks true).2)

/-- Calls of `Prev` on a database that answers. -/
def BlockStore.backward (store : BlockStore) (iter : DbBlockIterator) :
    Option (List (Option ZKBlock)) × DbBlockIterator :=
  ((iter.prev store.blocks true).1.toOption, (iter.prev store.blocks true).2)

theorem BlockStore.positions_append (store : BlockStore) {middle : UInt64} (lower : first ≤ middle)
    (upper : middle < last) :
    store.positions first last =
      store.positions first middle ++ store.positions (middle + 1) last := by
  rw [positions, blockNumbers_append lower upper, map_append]
  rfl

/-! ## Windows -/

/-- Where a range is cut for the `count`-th time. -/
def windowStart (first size : UInt64) (count : Nat) : UInt64 :=
  first + UInt64.ofNat count * size

/-- The first windows of a range. -/
def BlockStore.windows (store : BlockStore) (first size : UInt64) (count : Nat) :
    List (List (Option ZKBlock)) :=
  (List.range count).map fun index =>
    store.positions (windowStart first size index) (windowStart first size index + size - 1)

theorem toNat_windowStart (positive : 0 < size.toNat)
    (inside : first.toNat + count * size.toNat < 2 ^ 64) :
    (windowStart first size count).toNat = first.toNat + count * size.toNat := by
  have least : count ≤ count * size.toNat := Nat.le_mul_of_pos_right count positive
  have index : (UInt64.ofNat count).toNat = count := by
    rw [toNat_ofNat', Nat.mod_eq_of_lt (by omega)]
  rw [windowStart, UInt64.toNat_add, UInt64.toNat_mul, index,
    Nat.mod_eq_of_lt (by omega : count * size.toNat < 2 ^ 64), Nat.mod_eq_of_lt inside]

theorem windowStart_succ (first size : UInt64) (count : Nat) :
    windowStart first size (count + 1) = windowStart first size count + size := by
  rw [windowStart, windowStart, ofNat_add, UInt64.add_mul, UInt64.add_assoc]
  simp

theorem BlockStore.windows_succ (store : BlockStore) (first size : UInt64) (count : Nat) :
    store.windows first size (count + 1) = store.windows first size count ++
      [store.positions (windowStart first size count)
        (windowStart first size count + size - 1)] := by
  rw [windows, range_succ, map_append]
  rfl

/-- A window that ends before the range does. -/
structure FarWindow (first last size : UInt64) : Prop where
  next : (first + size).toNat = first.toNat + size.toNat
  lower : first ≤ first + size - 1
  upper : first + size - 1 < last

theorem farWindow (positive : 0 < size.toNat) (far : first.toNat + size.toNat ≤ last.toNat) :
    FarWindow first last size := by
  have bound := last.toNat_lt
  have window := toNat_window first positive
  rw [Nat.mod_eq_of_lt (by omega)] at window
  constructor
  case next => rw [UInt64.toNat_add, Nat.mod_eq_of_lt (by omega)]
  case lower =>
    rw [le_iff_toNat_le, window]
    omega
  case upper =>
    rw [lt_iff_toNat_lt, window]
    omega

/-- A window below the end, counted from the first one. -/
theorem windowStart_far (positive : 0 < size.toNat)
    (inside : first.toNat + (count + 1) * size.toNat ≤ last.toNat) :
    (windowStart first size count).toNat + size.toNat ≤ last.toNat := by
  have bound := last.toNat_lt
  rw [Nat.succ_mul] at inside
  rw [toNat_windowStart positive (by omega)]
  omega

/-- The windows and the rest are the range. -/
theorem BlockStore.flatten_windows (store : BlockStore) (positive : 0 < size.toNat)
    (inside : first.toNat + count * size.toNat ≤ last.toNat) :
    (store.windows first size count).flatten ++
        store.positions (windowStart first size count) last = store.positions first last := by
  induction count with
  | zero => simp [windows, windowStart]
  | succ count ih =>
    have window := farWindow positive (windowStart_far positive inside)
    rw [Nat.succ_mul] at inside
    rw [← ih (by omega), store.positions_append window.lower window.upper, UInt64.sub_add_cancel,
      ← append_assoc, windowStart_succ, windows_succ, flatten_append,
      flatten_singleton]

/-- Where the last window of a range begins. -/
def lastWindow (first last size : UInt64) : UInt64 :=
  windowStart first size ((last.toNat - first.toNat) / size.toNat)

/-- The last window ends at or after the range. -/
structure LastWindow (first last size : UInt64) : Prop where
  start : (lastWindow first last size).toNat =
    first.toNat + (last.toNat - first.toNat) / size.toNat * size.toNat
  lower : lastWindow first last size ≤ last
  near : last.toNat < (lastWindow first last size).toNat + size.toNat

theorem lastWindow_spec (positive : 0 < size.toNat) (ordered : first ≤ last) :
    LastWindow first last size := by
  have order := le_iff_toNat_le.mp ordered
  have bound := last.toNat_lt
  have whole := Nat.div_add_mod' (last.toNat - first.toNat) size.toNat
  have rest := Nat.mod_lt (last.toNat - first.toNat) positive
  have start : (lastWindow first last size).toNat =
      first.toNat + (last.toNat - first.toNat) / size.toNat * size.toNat :=
    toNat_windowStart positive (by omega)
  constructor
  case start => exact start
  case lower =>
    rw [le_iff_toNat_le, start]
    omega
  case near =>
    rw [start]
    omega

/-- The iterator before its last window. -/
def DbBlockIterator.atLast (iter : DbBlockIterator) : DbBlockIterator :=
  { iter with current := lastWindow iter.current iter.end_ iter.batchsize }

/-! ## Forward -/

section

variable (store : BlockStore) {iter : DbBlockIterator}
  (positive : 0 < iter.batchsize.toNat) (small : iter.batchsize.toNat < 2 ^ 63)

include positive small

/-- Windows below the end of the range are returned one by one. -/
theorem yields_windows
    (inside : iter.current.toNat + count * iter.batchsize.toNat ≤ iter.end_.toNat) :
    Yields store.forward iter (store.windows iter.current iter.batchsize count)
      { iter with current := windowStart iter.current iter.batchsize count } := by
  induction count with
  | zero =>
    have fresh : windowStart iter.current iter.batchsize 0 = iter.current := by
      simp [windowStart]
    rw [fresh]
    exact .nil
  | succ count ih =>
    have far := windowStart_far positive inside
    rw [Nat.succ_mul] at inside
    have earlier := ih (by omega)
    have call := @next_far store
      { iter with current := windowStart iter.current iter.batchsize count } positive small far
    rw [store.windows_succ, windowStart_succ]
    refine .snoc earlier ?_
    rw [BlockStore.forward, call]
    rfl

section

variable (open_ : iter.current ≤ iter.end_)
include open_

/-- The windows before the last one are always returned. -/
theorem yields_to_last :
    Yields store.forward iter (store.windows iter.current iter.batchsize
      ((iter.end_.toNat - iter.current.toNat) / iter.batchsize.toNat)) iter.atLast := by
  have last := lastWindow_spec positive open_
  have lower := le_iff_toNat_le.mp last.lower
  rw [last.start] at lower
  exact yields_windows store positive small lower

theorem next_atLast :
    iter.atLast.next store.blocks true =
      if 2 ^ 64 < (lastWindow iter.current iter.end_ iter.batchsize).toNat +
          iter.batchsize.toNat then (.fails, iter.atLast)
      else if iter.end_.toNat + 1 < 2 ^ 64 then
        (.blocks (store.positions (lastWindow iter.current iter.end_ iter.batchsize) iter.end_),
          { iter with current := iter.end_ + 1 })
      else (.hangs, iter.atLast) := by
  have last := lastWindow_spec positive open_
  split
  · next wraps => exact @next_fails store iter.atLast positive last.lower wraps
  · next fits =>
    exact @next_near store iter.atLast positive small last.lower (Nat.not_lt.mp fits) last.near

/-- `Next` enumerates the rest of the range exactly if the last window and the end
of the range stay below the largest number. -/
theorem enumerates_next_iff :
    Enumerates store.forward iter (store.positions iter.current iter.end_) ↔
      (lastWindow iter.current iter.end_ iter.batchsize).toNat + iter.batchsize.toNat ≤ 2 ^ 64 ∧
        iter.end_.toNat + 1 < 2 ^ 64 := by
  have earlier := yields_to_last store positive small open_
  have call := next_atLast store positive small open_
  have last := lastWindow_spec positive open_
  constructor
  · intro enumerates
    split_ifs at call with wraps room
    · refine absurd enumerates (earlier.not_enumerates ?_ _)
      rw [BlockStore.forward, call]
      rfl
    · exact ⟨Nat.not_lt.mp wraps, room⟩
    · refine absurd enumerates (earlier.not_enumerates ?_ _)
      rw [BlockStore.forward, call]
      rfl
  · rintro ⟨fits, room⟩
    rw [if_neg (Nat.not_lt.mpr fits), if_pos room] at call
    have returned : store.forward iter.atLast =
        (some (store.positions (lastWindow iter.current iter.end_ iter.batchsize) iter.end_),
          { iter with current := iter.end_ + 1 }) := by
      rw [BlockStore.forward, call]
      rfl
    have past : iter.end_ < iter.end_ + 1 := by
      rw [lt_iff_toNat_lt, toNat_succ room]
      omega
    have exhausted : store.forward { iter with current := iter.end_ + 1 } =
        (some [], { iter with current := iter.end_ + 1 }) := by
      rw [BlockStore.forward, next_done store true past]
      rfl
    have lower := le_iff_toNat_le.mp last.lower
    rw [last.start] at lower
    have whole := (earlier.snoc returned).enumerates exhausted
    rw [flatten_append, flatten_singleton] at whole
    rw [← store.flatten_windows positive lower]
    exact whole

end

end

/-! ## Backward -/

/-- The batch from the end is cut to the range. -/
theorem toNat_batchStart {iter : DbBlockIterator} (positive : 0 < iter.batchsize.toNat) :
    iter.batchStart.toNat =
      max iter.start.toNat (iter.tail.toNat + 1 - iter.batchsize.toNat) := by
  have bound := iter.tail.toNat_lt
  have uncut : (if iter.tail ≥ iter.batchsize then iter.tail - iter.batchsize + 1 else 0).toNat =
      iter.tail.toNat + 1 - iter.batchsize.toNat := by
    split
    · next long =>
      have length := le_iff_toNat_le.mp long
      rw [UInt64.toNat_add, UInt64.toNat_sub_of_le _ _ long, toNat_one,
        Nat.mod_eq_of_lt (by omega)]
      omega
    · next short =>
      have length := lt_iff_toNat_lt.mp (UInt64.not_le.mp short)
      rw [UInt64.toNat_zero]
      omega
  unfold DbBlockIterator.batchStart
  dsimp only
  generalize (if iter.tail ≥ iter.batchsize then iter.tail - iter.batchsize + 1 else 0) = first
    at uncut ⊢
  split
  · next below =>
    have less := lt_iff_toNat_lt.mp below
    omega
  · next above =>
    have most := le_iff_toNat_le.mp (UInt64.not_lt.mp above)
    omega

section

variable (store : BlockStore) {iter : DbBlockIterator}
  (positive : 0 < iter.batchsize.toNat) (small : iter.batchsize.toNat < 2 ^ 63)
  (going : iter.tailDone = false)

include positive small going

/-- A call of `Prev` before the range is done. -/
theorem prev_eq (open_ : iter.start ≤ iter.tail) :
    iter.prev store.blocks true =
      if iter.tail.toNat + 1 < 2 ^ 64 then
        (.blocks (store.positions iter.batchStart iter.tail).reverse,
          if iter.batchStart ≤ iter.start then { iter with tailDone := true }
          else { iter with tail := iter.batchStart - 1 })
      else (.hangs, iter) := by
  have order := le_iff_toNat_le.mp open_
  have first := toNat_batchStart positive
  have ordered : iter.batchStart ≤ iter.tail := by
    rw [le_iff_toNat_le, first]
    omega
  have unfinished : ¬(iter.tailDone = true ∨ iter.tail < iter.start) := by
    rw [going]
    exact not_or.mpr ⟨Bool.false_ne_true, UInt64.not_lt.mpr open_⟩
  rw [DbBlockIterator.prev, if_neg unfinished, if_pos rfl,
    getBlocksRange_eq store.blocks ordered (by omega)]
  by_cases room : iter.tail.toNat + 1 < 2 ^ 64
  · rw [if_pos room, if_pos room]
    dsimp only
    rw [store.padded_eq ordered (by omega)]
  · rw [if_neg room, if_neg room]

/-- A batch after which more of the range is left. -/
theorem backward_far (room : iter.tail.toNat + 1 < 2 ^ 64)
    (far : iter.start.toNat + iter.batchsize.toNat ≤ iter.tail.toNat) :
    store.backward iter =
      (some (store.positions (iter.tail - iter.batchsize + 1) iter.tail).reverse,
        { iter with tail := iter.tail - iter.batchsize }) := by
  have open_ : iter.start ≤ iter.tail := le_iff_toNat_le.mpr (by omega)
  have long : iter.batchsize ≤ iter.tail := le_iff_toNat_le.mpr (by omega)
  have first := toNat_batchStart positive
  have cut : iter.batchStart = iter.tail - iter.batchsize + 1 := by
    apply UInt64.toNat_inj.mp
    rw [first, UInt64.toNat_add, UInt64.toNat_sub_of_le _ _ long, toNat_one,
      Nat.mod_eq_of_lt (by omega)]
    omega
  have more : ¬ iter.batchStart ≤ iter.start := by
    rw [le_iff_toNat_le, first]
    omega
  have call := prev_eq store positive small going open_
  rw [if_pos room, if_neg more, cut, UInt64.add_sub_cancel] at call
  rw [BlockStore.backward, call]
  rfl

/-- The batch that reaches the start of the range. -/
theorem backward_near (room : iter.tail.toNat + 1 < 2 ^ 64) (open_ : iter.start ≤ iter.tail)
    (near : iter.tail.toNat < iter.start.toNat + iter.batchsize.toNat) :
    store.backward iter =
      (some (store.positions iter.start iter.tail).reverse, { iter with tailDone := true }) := by
  have cut : iter.batchStart = iter.start := by
    apply UInt64.toNat_inj.mp
    rw [toNat_batchStart positive]
    omega
  have call := prev_eq store positive small going open_
  rw [if_pos room, cut, if_pos UInt64.le_rfl] at call
  rw [BlockStore.backward, call]
  rfl

/-- Below the largest number `Prev` enumerates the rest of the range in reverse. -/
theorem enumerates_prev (windows : Nat) (room : iter.tail.toNat + 1 < 2 ^ 64)
    (open_ : iter.start ≤ iter.tail)
    (left : iter.tail.toNat < iter.start.toNat + windows * iter.batchsize.toNat) :
    Enumerates store.backward iter (store.positions iter.start iter.tail).reverse := by
  induction windows generalizing iter with
  | zero =>
    have order := le_iff_toNat_le.mp open_
    omega
  | succ windows ih =>
    rcases Nat.lt_or_ge iter.tail.toNat (iter.start.toNat + iter.batchsize.toNat) with near | far
    · have finished : store.backward { iter with tailDone := true } =
          (some [], { iter with tailDone := true }) := rfl
      have returned := backward_near store positive small going room open_ near
      have whole := Enumerates.cons returned (.exhausted finished)
      rw [append_nil] at whole
      exact whole
    · have long : iter.batchsize ≤ iter.tail := le_iff_toNat_le.mpr (by omega)
      have lower := UInt64.toNat_sub_of_le _ _ long
      have first : iter.start ≤ iter.tail - iter.batchsize := by
        rw [le_iff_toNat_le, lower]
        omega
      have last : iter.tail - iter.batchsize < iter.tail := by
        rw [lt_iff_toNat_lt, lower]
        omega
      rw [Nat.succ_mul] at left
      have later := @ih { iter with tail := iter.tail - iter.batchsize } positive small going
        (by dsimp only; omega) first (by dsimp only; omega)
      rw [store.positions_append first last, reverse_append]
      exact .cons (backward_far store positive small going room far) later

/-- `Prev` enumerates a range in reverse exactly if it ends before the largest
number. -/
theorem enumerates_prev_iff (open_ : iter.start ≤ iter.tail) :
    Enumerates store.backward iter (store.positions iter.start iter.tail).reverse ↔
      iter.tail.toNat + 1 < 2 ^ 64 := by
  constructor
  · intro enumerates
    by_contra tight
    have call := prev_eq store positive small going open_
    rw [if_neg tight] at call
    refine Yields.nil.not_enumerates ?_ _ enumerates
    rw [BlockStore.backward, call]
    rfl
  · intro room
    have least : iter.tail.toNat + 1 ≤ (iter.tail.toNat + 1) * iter.batchsize.toNat :=
      Nat.le_mul_of_pos_right _ positive
    exact enumerates_prev store positive small going (iter.tail.toNat + 1) room open_ (by omega)

end

/-! ## Both directions -/

theorem toNat_batchsize {batchsize : Int64} (positive : 1 ≤ batchsize) :
    0 < batchsize.toUInt64.toNat ∧ batchsize.toUInt64.toNat < 2 ^ 63 := by
  have least := Int64.le_iff_toInt_le.mp positive
  have one : (1 : Int64).toInt = 1 := by decide
  have value : batchsize.toInt = batchsize.toBitVec.toInt := rfl
  have word : batchsize.toUInt64.toNat = batchsize.toBitVec.toNat := rfl
  have bound := batchsize.toBitVec.isLt
  rw [one, value, BitVec.toInt_eq_toNat_cond] at least
  rw [word]
  split at least <;> omega

/-- Repeated calls of `Next` yield the positions of a range, each once and in
ascending order, and repeated calls of `Prev` yield the reversed sequence, exactly
if the range ends before the largest number and its last window does not pass
it. -/
theorem iterator_enumerates_iff (store : BlockStore) {start end_ : UInt64} {batchsize : Int64}
    (ordered : start ≤ end_) (positive : 1 ≤ batchsize) :
    Enumerates store.forward (newBlockIterator start end_ batchsize)
          (store.positions start end_) ∧
        Enumerates store.backward (newBlockIterator start end_ batchsize)
          (store.positions start end_).reverse ↔
      end_.toNat + 1 < 2 ^ 64 ∧
        start.toNat + (end_.toNat - start.toNat) / batchsize.toUInt64.toNat *
          batchsize.toUInt64.toNat + batchsize.toUInt64.toNat ≤ 2 ^ 64 := by
  obtain ⟨least, most⟩ := toNat_batchsize positive
  have forward := @enumerates_next_iff store (newBlockIterator start end_ batchsize) least most
    ordered
  have backward := @enumerates_prev_iff store (newBlockIterator start end_ batchsize) least most
    rfl ordered
  have last := (lastWindow_spec least ordered).start
  rw [newBlockIterator] at forward backward ⊢
  dsimp only at forward backward
  rw [forward, backward, last]
  constructor
  · rintro ⟨⟨fits, room⟩, -⟩
    exact ⟨room, fits⟩
  · rintro ⟨room, fits⟩
    exact ⟨⟨fits, room⟩, room⟩

/-- A store with block 1 only. -/
def oneBlock : BlockStore where
  blocks number := if number = 1 then some { blockNumber := 1 } else none
  keyed := by
    intro number block found
    dsimp only at found
    split at found
    · next same =>
      cases found
      exact same.symm
    · cases found

theorem four_positions_enumerated :
    Enumerates oneBlock.forward (newBlockIterator 0 3 2)
        [none, some { blockNumber := 1 }, none, none] ∧
      Enumerates oneBlock.backward (newBlockIterator 0 3 2)
        [none, none, some { blockNumber := 1 }, none] := by
  have ordered : (0 : UInt64) ≤ 3 := by decide
  exact (iterator_enumerates_iff oneBlock ordered (by decide : (1 : Int64) ≤ 2)).mpr (by decide)

/-- The last two numbers are not enumerated in batches of one, in either direction:
the read of the largest number does not come back.  In batches of 1000 the two
numbers before them are not enumerated either, as the window fails. -/
theorem largest_numbers_not_enumerated :
    ¬ Enumerates oneBlock.forward
        (newBlockIterator 18446744073709551614 18446744073709551615 1) [none, none] ∧
      ¬ Enumerates oneBlock.backward
        (newBlockIterator 18446744073709551614 18446744073709551615 1) [none, none] ∧
      ¬ Enumerates oneBlock.forward
        (newBlockIterator 18446744073709551613 18446744073709551614 1000) [none, none] := by
  refine ⟨?_, ?_, ?_⟩
  · have call : oneBlock.forward (newBlockIterator 18446744073709551614 18446744073709551615 1) =
        (some [none], { newBlockIterator 18446744073709551614 18446744073709551615 1 with
          current := 18446744073709551615 }) := by
      decide +kernel
    exact (Yields.snoc .nil call).not_enumerates (by decide +kernel) _
  · exact Yields.nil.not_enumerates (by decide +kernel) _
  · exact Yields.nil.not_enumerates (by decide +kernel) _

end Jmdn.Nodeinfo
