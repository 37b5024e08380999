import Mathlib.Data.List.AList
import Mathlib.Data.Nat.ModEq
import Jmdn.Transition.Loop

/-!
# The listener of a vote

`PickListnerWithOffset` of `Vote/Trigger.go`: a voter sends its vote to one entry
of the buddies map of the proposal, chosen by the hash of its own peer ID.  The
keys of the map come with the message; the search for a key visits the numbers
below the size of the map in a circle.
-/

namespace Jmdn.Vote

open Transition

/-- `Buddy_PeerMultiaddr`, with the zero values of its Go type as defaults. -/
structure Buddy where
  peerID : String := ""
  multiaddr : Option String := none
  deriving DecidableEq, Repr

/-- `map[int]Buddy_PeerMultiaddr`.  An entry takes at least eight bytes, so no map
has more entries than a quarter of the values of an `int`. -/
structure Buddies where
  map : AList fun _ : Int64 => Buddy
  fits : map.entries.length < 2 ^ 62

namespace Buddies

/-- `len(buddies)`. -/
def len (buddies : Buddies) : Int64 :=
  Int64.ofNat buddies.map.entries.length

/-- `buddies[key]` with the test for the key. -/
def get (buddies : Buddies) (key : Int64) : Option Buddy :=
  buddies.map.lookup key

theorem toInt_len (buddies : Buddies) :
    buddies.len.toInt = buddies.map.entries.length := by
  have fits := buddies.fits
  exact Int64.toInt_ofNat_of_lt (by omega)

theorem toNat_len (buddies : Buddies) :
    buddies.len.toUInt64.toNat = buddies.map.entries.length := by
  have fits := buddies.fits
  change (UInt64.ofNat buddies.map.entries.length).toNat = _
  exact UInt64.toNat_ofNat_of_lt' (lt_of_lt_of_le fits (by decide))

end Buddies

/-- The hash of a peer ID: the first eight bytes of SHA-256 of its text. -/
abbrev PeerHash := String → UInt64

/-- `consistentHashing`. -/
def consistentHashing (peerHash : PeerHash) (peerID : String) (num : Int64) : Int64 :=
  (peerHash peerID % num.toUInt64).toInt64

/-- One call of `PickListnerWithOffset`, which answers or calls itself with
another offset. -/
def pickRound (peerHash : PeerHash) (buddies : Buddies) (peerID : String) (offset : Int64) :
    Buddy ⊕ Int64 :=
  let numKeys := buddies.len
  if numKeys = 0 then .inl {}
  else
    let selectedKey := (consistentHashing peerHash peerID numKeys + offset) % numKeys
    match buddies.get selectedKey with
    | some buddy => .inl buddy
    | none =>
      if offset < numKeys then .inr ((offset + 1) % numKeys)
      else .inl ((buddies.get 0).getD {})

/-- `PickListnerWithOffset` returns the given entry. -/
def PickListnerWithOffset (peerHash : PeerHash) (buddies : Buddies) (peerID : String)
    (offset : Int64) (buddy : Buddy) : Prop :=
  Returns (pickRound peerHash buddies peerID) offset buddy

section

variable {peerHash : PeerHash} {buddies : Buddies} {peerID : String} {offset : Int64}

/-- The hash selects a number below the size of the map. -/
theorem toInt_consistentHashing (nonempty : 0 < buddies.map.entries.length) :
    (consistentHashing peerHash peerID buddies.len).toInt =
      ((peerHash peerID).toNat % buddies.map.entries.length : Nat) := by
  have fits := buddies.fits
  have below := Nat.mod_lt (peerHash peerID).toNat nonempty
  have value : (peerHash peerID % buddies.len.toUInt64).toNat =
      (peerHash peerID).toNat % buddies.map.entries.length := by
    rw [UInt64.toNat_mod, buddies.toNat_len]
  rw [consistentHashing, ← value, ← Int64.toInt_toBitVec, UInt64.toBitVec_toInt64,
    BitVec.toInt_eq_toNat_of_lt]
  · rfl
  · change 2 * (peerHash peerID % buddies.len.toUInt64).toNat < 2 ^ 64
    rw [value]
    omega

variable {position : Nat} (inside : position < buddies.map.entries.length)
  (here : offset.toInt = position)
include inside here

theorem toInt_selectedKey :
    ((consistentHashing peerHash peerID buddies.len + offset) % buddies.len).toInt =
      (((peerHash peerID).toNat + position) % buddies.map.entries.length : Nat) := by
  have fits := buddies.fits
  have below := Nat.mod_lt (peerHash peerID).toNat (Nat.zero_lt_of_lt inside)
  rw [Int64.toInt_mod, Int64.toInt_add, here, buddies.toInt_len,
    toInt_consistentHashing (Nat.zero_lt_of_lt inside), Int.bmod_eq_of_le (by omega) (by omega),
    ← Int.natCast_add, Int.tmod_eq_emod_of_nonneg (by omega), ← Int.natCast_mod, Nat.mod_add_mod]

theorem toInt_nextOffset :
    ((offset + 1) % buddies.len).toInt =
      ((position + 1) % buddies.map.entries.length : Nat) := by
  have fits := buddies.fits
  have one : (1 : Int64).toInt = 1 := rfl
  rw [Int64.toInt_mod, Int64.toInt_add, here, buddies.toInt_len, one,
    Int.bmod_eq_of_le (by omega) (by omega), Int.tmod_eq_emod_of_nonneg (by omega)]
  rfl

/-- A call with an offset in the circle answers with the entry of its key, or goes
on to the next offset. -/
theorem pickRound_circle :
    pickRound peerHash buddies peerID offset =
      match buddies.get ((consistentHashing peerHash peerID buddies.len + offset) %
        buddies.len) with
      | some buddy => .inl buddy
      | none => .inr ((offset + 1) % buddies.len) := by
  have nonempty : buddies.len ≠ 0 := by
    rw [ne_eq, ← Int64.toInt_inj, buddies.toInt_len]
    change ¬ (buddies.map.entries.length : Int) = 0
    omega
  have small : offset < buddies.len := by
    rw [Int64.lt_iff_toInt_lt, here, buddies.toInt_len]
    omega
  unfold pickRound
  rw [if_neg nonempty]
  dsimp only
  cases found : buddies.get ((consistentHashing peerHash peerID buddies.len + offset) %
      buddies.len) with
  | some buddy => rfl
  | none => rw [if_pos small]

end

section

variable {peerHash : PeerHash} {buddies : Buddies} {peerID : String} {offset : Int64}

/-- The values of the map. -/
def Buddies.Holds (buddies : Buddies) (buddy : Buddy) : Prop :=
  ∃ key, buddies.get key = some buddy

/-- A key below the size of the map is found from every offset in the circle. -/
theorem exists_pick_of_key {key : Int64} {position target : Nat}
    (stored : (buddies.get key).isSome) (isKey : key.toInt = target)
    (inside : position < buddies.map.entries.length) (here : offset.toInt = position)
    {distance : Nat} (away : ((peerHash peerID).toNat + position + distance) %
      buddies.map.entries.length = target) :
    ∃ buddy, PickListnerWithOffset peerHash buddies peerID offset buddy ∧ buddies.Holds buddy := by
  have selected := @toInt_selectedKey peerHash buddies peerID offset position inside here
  induction distance generalizing offset position with
  | zero =>
    obtain ⟨buddy, found⟩ := Option.isSome_iff_exists.mp stored
    have same : (consistentHashing peerHash peerID buddies.len + offset) % buddies.len = key := by
      rw [← Int64.toInt_inj, selected, isKey, ← away, Nat.add_zero]
    refine ⟨buddy, Returns.leave ?_, key, found⟩
    rw [pickRound_circle inside here, same, found]
  | succ distance ih =>
    have round := @pickRound_circle peerHash buddies peerID offset position inside here
    cases found : buddies.get ((consistentHashing peerHash peerID buddies.len + offset) %
        buddies.len) with
    | some buddy =>
      rw [found] at round
      exact ⟨buddy, Returns.leave round, _, found⟩
    | none =>
      rw [found] at round
      have next := @toInt_nextOffset buddies offset position inside here
      have nextInside := Nat.mod_lt (position + 1) (Nat.zero_lt_of_lt inside)
      obtain ⟨buddy, returns, held⟩ := ih nextInside next (by
        rw [← away, Nat.add_right_comm, Nat.add_mod_mod]
        congr 1
        omega) (toInt_selectedKey nextInside next)
      exact ⟨buddy, returns.step round, held⟩

/-- Without a key below the size of the map the search goes round for ever. -/
theorem not_pick_of_no_key
    (none : ∀ key, 0 ≤ key → key < buddies.len → buddies.get key = none)
    {position : Nat} (inside : position < buddies.map.entries.length)
    (here : offset.toInt = position) (buddy : Buddy) :
    ¬ PickListnerWithOffset peerHash buddies peerID offset buddy := by
  refine @not_returns _ _ (pickRound peerHash buddies peerID)
    (fun offset => ∃ position < buddies.map.entries.length, offset.toInt = position) ?_ offset
    ⟨position, inside, here⟩ buddy
  rintro offset ⟨position, inside, here⟩
  have selected := @toInt_selectedKey peerHash buddies peerID offset position inside here
  have missing := none ((consistentHashing peerHash peerID buddies.len + offset) % buddies.len)
    (by
      rw [Int64.le_iff_toInt_le, selected]
      change (0 : Int) ≤ _
      omega)
    (by
      have below := Nat.mod_lt ((peerHash peerID).toNat + position) (Nat.zero_lt_of_lt inside)
      rw [Int64.lt_iff_toInt_lt, selected, buddies.toInt_len]
      omega)
  refine ⟨(offset + 1) % buddies.len, ?_, (position + 1) % buddies.map.entries.length,
    Nat.mod_lt _ (Nat.zero_lt_of_lt inside), toInt_nextOffset inside here⟩
  rw [pickRound_circle inside here, missing]

/-- The search from an offset in the circle ends exactly when there is such a
key. -/
theorem exists_pick_iff (nonneg : 0 ≤ offset) (small : offset < buddies.len) :
    (∃ buddy, PickListnerWithOffset peerHash buddies peerID offset buddy ∧
        buddies.Holds buddy) ↔
      ∃ key, 0 ≤ key ∧ key < buddies.len ∧ (buddies.get key).isSome := by
  rw [Int64.le_iff_toInt_le] at nonneg
  rw [Int64.lt_iff_toInt_lt, buddies.toInt_len] at small
  obtain ⟨position, here⟩ := Int.eq_ofNat_of_zero_le nonneg
  have inside : position < buddies.map.entries.length := by omega
  constructor
  · rintro ⟨buddy, returns, -⟩
    by_contra absent
    refine not_pick_of_no_key ?_ inside here buddy returns
    intro key lower upper
    by_contra found
    exact absent ⟨key, lower, upper, Option.isSome_iff_ne_none.mpr found⟩
  · rintro ⟨key, lower, upper, stored⟩
    rw [Int64.le_iff_toInt_le] at lower
    rw [Int64.lt_iff_toInt_lt, buddies.toInt_len] at upper
    obtain ⟨target, isKey⟩ := Int.eq_ofNat_of_zero_le lower
    have below := Nat.mod_lt ((peerHash peerID).toNat + position) (Nat.zero_lt_of_lt inside)
    refine @exists_pick_of_key peerHash buddies peerID offset key position target stored isKey
      inside here (target + (buddies.map.entries.length -
        ((peerHash peerID).toNat + position) % buddies.map.entries.length)) ?_
    rw [← Nat.mod_add_mod, show ∀ rest : Nat, rest < buddies.map.entries.length →
      rest + (target + (buddies.map.entries.length - rest)) =
        target + buddies.map.entries.length by omega]
    · rw [Nat.add_mod_right, Nat.mod_eq_of_lt (by omega)]
    · exact below

/-- Any other offset is tried once; the entry of key 0 is the last resort. -/
theorem exists_pick_large_iff (nonempty : buddies.len ≠ 0) (large : ¬ offset < buddies.len) :
    (∃ buddy, PickListnerWithOffset peerHash buddies peerID offset buddy ∧
        buddies.Holds buddy) ↔
      (buddies.get ((consistentHashing peerHash peerID buddies.len + offset) %
        buddies.len)).isSome ∨ (buddies.get 0).isSome ∨ buddies.Holds {} := by
  cases selected : buddies.get ((consistentHashing peerHash peerID buddies.len + offset) %
      buddies.len) with
  | some found =>
    have round : pickRound peerHash buddies peerID offset = .inl found := by
      unfold pickRound
      rw [if_neg nonempty]
      dsimp only
      rw [selected]
    exact iff_of_true ⟨found, Returns.leave round, _, selected⟩ (.inl rfl)
  | none =>
    have round : pickRound peerHash buddies peerID offset =
        .inl ((buddies.get 0).getD {}) := by
      unfold pickRound
      rw [if_neg nonempty]
      dsimp only
      rw [selected]
      exact if_neg large
    cases first : buddies.get 0 with
    | some found =>
      rw [first] at round
      exact iff_of_true ⟨found, Returns.leave round, _, first⟩ (.inr (.inl rfl))
    | none =>
      rw [first] at round
      constructor
      · rintro ⟨buddy, returns, held⟩
        rw [returns.of_leave round] at held
        exact .inr (.inr held)
      · rintro (absent | absent | held)
        · cases absent
        · cases absent
        · exact ⟨_, Returns.leave round, held⟩

end

/-- The search ends with an entry of the map exactly when the map is empty, or the
offset is below its size and so is some key, or, for a larger offset, the
selected key or zero is a key or the zero entry is a value. -/
theorem pickListnerWithOffset_iff (peerHash : PeerHash) (buddies : Buddies) (peerID : String)
    {offset : Int64} (nonneg : 0 ≤ offset) :
    (∃ buddy, PickListnerWithOffset peerHash buddies peerID offset buddy ∧
        (buddies.len ≠ 0 → buddies.Holds buddy)) ↔
      buddies.len = 0 ∨
      (offset < buddies.len ∧ ∃ key, 0 ≤ key ∧ key < buddies.len ∧ (buddies.get key).isSome) ∨
      (¬ offset < buddies.len ∧
        ((buddies.get ((consistentHashing peerHash peerID buddies.len + offset) %
            buddies.len)).isSome ∨ (buddies.get 0).isSome ∨ buddies.Holds {})) := by
  by_cases empty : buddies.len = 0
  · have round : pickRound peerHash buddies peerID offset = .inl {} := if_pos empty
    exact iff_of_true ⟨{}, Returns.leave round, fun nonempty => absurd empty nonempty⟩
      (.inl empty)
  simp only [empty, ne_eq, not_false_eq_true, true_implies, false_or]
  by_cases small : offset < buddies.len
  · simp only [small, true_and, not_true_eq_false, false_and, or_false]
    exact exists_pick_iff nonneg small
  · simp only [small, false_and, not_false_eq_true, true_and, false_or]
    exact exists_pick_large_iff empty small

theorem length_singleton (key : Int64) (buddy : Buddy) :
    (AList.singleton key buddy : AList fun _ => Buddy).entries.length < 2 ^ 62 := by
  change 1 < 2 ^ 62
  decide

/-- One buddy under one key. -/
def oneBuddy (key : Int64) : Buddies where
  map := AList.singleton key { peerID := "buddy" }
  fits := length_singleton key _

/-- A key above the size of the map is never found; a larger offset ends with an
entry the map does not have. -/
theorem lone_key_is_never_found :
    (∀ buddy, ¬ PickListnerWithOffset (fun _ => 0) (oneBuddy 5) "voter" 0 buddy) ∧
      PickListnerWithOffset (fun _ => 0) (oneBuddy 5) "voter" 1 {} ∧
      ¬ (oneBuddy 5).Holds {} := by
  have zero : (oneBuddy 5).get 0 = none := rfl
  refine ⟨fun buddy => not_pick_of_no_key ?_ (Nat.zero_lt_one) rfl buddy, ⟨1, rfl⟩, ?_⟩
  · intro key lower upper
    have equal : key = 0 := by
      rw [Int64.le_iff_toInt_le] at lower
      rw [Int64.lt_iff_toInt_lt] at upper
      have small : key.toInt < 1 := upper
      have least : 0 ≤ key.toInt := lower
      rw [← Int64.toInt_inj]
      change key.toInt = 0
      omega
    rw [equal, zero]
  · rintro ⟨key, found⟩
    have member := AList.mem_lookup_iff.mp found
    have ids : "" = "buddy" := congrArg (fun entry => entry.2.peerID) (List.mem_singleton.mp member)
    exact absurd ids (by decide)

/-- Two buddies, one of them under a key below the size of the map. -/
def twoBuddies : Buddies where
  map := (AList.singleton 5 { peerID := "far" }).insert 1 { peerID := "buddy" }
  fits := by decide

/-- The first key that is tried is absent. -/
theorem second_key_is_found :
    twoBuddies.get 0 = none ∧
      ∃ buddy, PickListnerWithOffset (fun _ => 0) twoBuddies "voter" 0 buddy ∧
        twoBuddies.Holds buddy := by
  obtain ⟨buddy, returns, held⟩ := (pickListnerWithOffset_iff (fun _ => 0) twoBuddies "voter"
    (by decide : (0 : Int64) ≤ 0)).mpr (.inr (.inl ⟨by decide, 1, by decide, by decide, rfl⟩))
  exact ⟨rfl, buddy, returns, held (by decide)⟩

end Jmdn.Vote
