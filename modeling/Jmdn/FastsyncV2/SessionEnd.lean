import Jmdn.FastsyncV2.Node

/-!
# The marker after a sync session

`endSyncSession` moves the `latest_block` marker up in windows of 500 blocks,
to the last block that is stored without a gap and covered by the applied
anchor.  A marker of zero is never moved, and neither is one whose next window
would reach the largest number.
-/

namespace Jmdn.FastsyncV2

open Config DBOPs UInt64

/-- The last number up to which every block after the marker is stored. -/
structure IsHead (db : DB) (marker head : UInt64) : Prop where
  above : marker ≤ head
  stored : ∀ number, marker < number → number ≤ head → (db.blocks number).isSome
  last : head.toNat + 1 < UInt64.size → db.blocks (head + 1) = none

/-- Every call of the session's end succeeds. -/
structure SyncEnv.Undisturbed (env : SyncEnv) : Prop where
  blockNumber : env.blockNumberOk = true
  anchorRead : env.anchorReadOk = true
  scan : env.scanOk = true
  latest : env.latestOk = true

/-- The windows of 500 numbers from a marker up to a target stay below the largest
number. -/
def WindowsFit (marker target : Nat) : Prop :=
  marker + 500 * ((target - marker - 1) / 500 + 1) + 1 < UInt64.size

theorem WindowsFit.room {marker target : Nat} (fits : WindowsFit marker target) :
    marker + 501 < UInt64.size := by
  have window : 500 ≤ 500 * ((target - marker - 1) / 500 + 1) :=
    Nat.le_mul_of_pos_right 500 (Nat.succ_pos _)
  exact Nat.lt_of_le_of_lt (Nat.add_le_add_right (Nat.add_le_add_left window marker) 1) fits

theorem windowsFit_iff_of_le {marker target : Nat} (close : target ≤ marker + 500) :
    WindowsFit marker target ↔ marker + 501 < UInt64.size := by
  have single : (target - marker - 1) / 500 = 0 := Nat.div_eq_of_lt (by omega)
  rw [WindowsFit, single]

/-- A target out of reach needs the windows from the end of the first one on. -/
theorem windowsFit_iff_next {marker target : Nat} (far : marker + 500 < target) :
    WindowsFit marker target ↔ WindowsFit (marker + 500) target := by
  have split : (target - marker - 1) / 500 = (target - (marker + 500) - 1) / 500 + 1 := by
    rw [← Nat.add_div_right _ (by decide)]
    congr 1
    omega
  rw [WindowsFit, WindowsFit, split, Nat.mul_succ 500 (_ + 1)]
  omega

variable {db : DB} {marker head : UInt64}

section

variable (isHead : IsHead db marker head)
include isHead

theorem IsHead.lt_of_stored
    (below : marker.toNat + 1 < UInt64.size) (next : (db.blocks (marker + 1)).isSome) :
    marker.toNat < head.toNat := by
  have above := le_iff_toNat_le.mp isHead.above
  by_contra reached
  have same : marker = head := UInt64.toNat_inj.mp (by omega)
  rw [same, isHead.last (same ▸ below)] at next
  cases next

theorem IsHead.eq_of_missing
    (below : marker.toNat + 1 < UInt64.size) (next : ¬ (db.blocks (marker + 1)).isSome) :
    marker = head := by
  have above := le_iff_toNat_le.mp isHead.above
  have successor := toNat_succ below
  by_contra different
  have short : marker.toNat ≠ head.toNat := fun same => different (UInt64.toNat_inj.mp same)
  exact next (isHead.stored (marker + 1) (lt_iff_toNat_lt.mpr (by omega))
    (le_iff_toNat_le.mpr (by omega)))

/-- The head is the same seen from any number on the way. -/
theorem IsHead.later {middle : UInt64}
    (after : marker.toNat ≤ middle.toNat) (upTo : middle.toNat ≤ head.toNat) :
    IsHead db middle head :=
  ⟨le_iff_toNat_le.mpr upTo, fun number past =>
    isHead.stored number (UInt64.lt_of_le_of_lt (le_iff_toNat_le.mpr after) past),
    isHead.last⟩

/-- A scan that stays below the largest number finds the head or its own end. -/
theorem toNat_contiguousHead {ahead : Nat} (room : marker.toNat + ahead < UInt64.size) :
    (contiguousHead db marker ahead).toNat = min head.toNat (marker.toNat + ahead) := by
  induction ahead generalizing marker with
  | zero =>
    have above := le_iff_toNat_le.mp isHead.above
    rw [contiguousHead]
    omega
  | succ ahead ih =>
    have below : marker.toNat + 1 < UInt64.size := by omega
    have successor := toNat_succ below
    rw [contiguousHead]
    split
    · next next =>
      have short := isHead.lt_of_stored below next
      rw [ih (isHead.later (by omega) (by omega)) (by omega)]
      omega
    · next missing =>
      rw [← isHead.eq_of_missing below missing]
      omega

end

/-! ## The loop -/

variable {env : SyncEnv} {node : Node}

/-- The head one round works with; a scan that does not come back moves the marker no
more than one that finds nothing. -/
def roundHead (env : SyncEnv) (node : Node) : UInt64 :=
  (reconcileBlockNumber env node).getD node.latestBlock

/-- A window that stays below the largest number is scanned for the head. -/
theorem toNat_roundHead (calm : env.Undisturbed)
    (isHead : IsHead node.db node.latestBlock head) (started : node.latestBlock.toNat ≠ 0)
    (room : node.latestBlock.toNat + 501 < UInt64.size) :
    (roundHead env node).toNat = min head.toNat (node.latestBlock.toNat + 500) := by
  have marker : getBlockNumber env node = node.latestBlock := by
    rw [getBlockNumber, if_pos calm.blockNumber]
  have nonzero : node.latestBlock ≠ 0 := by
    intro zero
    rw [zero] at started
    exact started rfl
  have size : UInt64.size = 2 ^ 64 := rfl
  have next := toNat_succ (show node.latestBlock.toNat + 1 < 2 ^ 64 by omega)
  have ends : (node.latestBlock + 500).toNat = node.latestBlock.toNat + 500 := by
    rw [UInt64.toNat_add]
    exact Nat.mod_eq_of_lt (show node.latestBlock.toNat + 500 < 2 ^ 64 by omega)
  have inside : node.latestBlock + 500 ≠ 18446744073709551615 := by
    intro last
    rw [last, show (18446744073709551615 : UInt64).toNat = 2 ^ 64 - 1 from rfl] at ends
    omega
  have forward : ¬ node.latestBlock + 500 < node.latestBlock + 1 := by
    rw [lt_iff_toNat_lt]
    omega
  rw [roundHead, reconcileBlockNumber, marker, if_neg nonzero, if_neg (by simp [calm.scan]),
    if_neg inside, if_neg forward, Option.getD_some, toNat_contiguousHead isHead (by omega)]

/-- Any other window, or one that is not read, gives nothing above the marker. -/
theorem roundHead_le (idle : node.latestBlock = 0 ∨ env.blockNumberOk = false ∨
      env.scanOk = false ∨ UInt64.size ≤ node.latestBlock.toNat + 501) :
    (roundHead env node).toNat ≤ node.latestBlock.toNat := by
  have size : UInt64.size = 2 ^ 64 := rfl
  have read : getBlockNumber env node = 0 ∨ getBlockNumber env node = node.latestBlock := by
    rw [getBlockNumber]
    split
    · exact .inr rfl
    · exact .inl rfl
  rw [roundHead, reconcileBlockNumber]
  split
  · exact Nat.zero_le _
  next nonzero =>
  have marker := read.resolve_left nonzero
  rw [marker] at nonzero ⊢
  split
  · exact Nat.le_refl _
  next scanned =>
  split
  · exact Nat.le_refl _
  next inside =>
  split
  · exact Nat.le_refl _
  next forward =>
  -- what is left is the largest number, whose window starts at zero
  have tight : UInt64.size ≤ node.latestBlock.toNat + 501 := by
    rcases idle with zero | unread | unscanned | tight
    · exact absurd zero nonzero
    · rw [getBlockNumber, if_neg (by simp [unread])] at marker
      exact absurd marker.symm nonzero
    · rw [unscanned] at scanned
      exact absurd rfl scanned
    · exact tight
  have last : node.latestBlock = 18446744073709551615 := by
    apply UInt64.toNat_inj.mp
    have bound := node.latestBlock.toNat_lt
    have order : ¬ (node.latestBlock.toNat + 500) % 2 ^ 64 <
        (node.latestBlock.toNat + 1) % 2 ^ 64 := by
      intro less
      exact forward (lt_iff_toNat_lt.mpr less)
    have apart : (node.latestBlock.toNat + 500) % 2 ^ 64 ≠ 2 ^ 64 - 1 := by
      intro same
      exact inside (UInt64.toNat_inj.mp same)
    have largest : (18446744073709551615 : UInt64).toNat = 2 ^ 64 - 1 := rfl
    omega
  rw [last, Option.getD_some]
  exact Nat.le_of_lt_succ (UInt64.toNat_lt _)

/-- The target of one round. -/
def roundTarget (env : SyncEnv) (node : Node) (anchor : UInt64) : UInt64 :=
  if anchor < roundHead env node then anchor else roundHead env node

theorem toNat_roundTarget (anchor : UInt64) :
    (roundTarget env node anchor).toNat = min anchor.toNat (roundHead env node).toNat := by
  rw [roundTarget]
  split
  · next lower =>
    have less := lt_iff_toNat_lt.mp lower
    omega
  · next upper =>
    have least := le_iff_toNat_le.mp (UInt64.not_lt.mp upper)
    omega

theorem ratchet_succ (anchor : UInt64) (rounds : Nat) :
    ratchet env anchor (rounds + 1) node =
      if roundTarget env node anchor = 0 ∨ !env.latestOk ∨
          roundTarget env node anchor ≤ node.latestBlock then node
      else if roundTarget env node anchor ≥ anchor then
        { node with latestBlock := roundTarget env node anchor }
      else ratchet env anchor rounds { node with latestBlock := roundTarget env node anchor } := by
  rw [ratchet]
  split
  · next lost =>
    have stays : roundTarget env node anchor ≤ node.latestBlock := by
      rw [le_iff_toNat_le, toNat_roundTarget, roundHead, lost]
      exact Nat.min_le_right _ _
    rw [if_pos (.inr (.inr stays))]
  · next found =>
    rw [roundTarget, roundHead, found]
    rfl

/-- With enough rounds the marker goes where the head and the anchor allow it,
unless a window on the way does not fit. -/
theorem ratchet_latestBlock_iff (calm : env.Undisturbed) {anchor : UInt64} {rounds : Nat}
    (isHead : IsHead node.db node.latestBlock head) (started : node.latestBlock.toNat ≠ 0)
    (near : head.toNat ≤ node.latestBlock.toNat + 500 * rounds) :
    (ratchet env anchor rounds node).latestBlock.toNat =
        max node.latestBlock.toNat (min head.toNat anchor.toNat) ↔
      min head.toNat anchor.toNat ≤ node.latestBlock.toNat ∨
        WindowsFit node.latestBlock.toNat (min head.toNat anchor.toNat) := by
  induction rounds generalizing node with
  | zero =>
    rw [ratchet]
    omega
  | succ rounds ih =>
    have above := le_iff_toNat_le.mp isHead.above
    have target : (roundTarget env node anchor).toNat = _ := toNat_roundTarget anchor
    rw [ratchet_succ]
    split
    · next stops =>
      -- the marker stays: it is there already, or the window does not fit
      have low : (roundTarget env node anchor).toNat ≤ node.latestBlock.toNat := by
        rcases stops with zero | failed | reached
        · rw [zero]
          exact Nat.zero_le _
        · rw [calm.latest] at failed
          cases failed
        · exact le_iff_toNat_le.mp reached
      by_cases room : node.latestBlock.toNat + 501 < UInt64.size
      · rw [toNat_roundHead calm isHead started room] at target
        have reached : min head.toNat anchor.toNat ≤ node.latestBlock.toNat := by omega
        exact iff_of_true (max_eq_left reached).symm (.inl reached)
      · rw [or_iff_left fun fits => room fits.room, eq_comm, max_eq_left_iff]
    · next goes =>
      have moved : node.latestBlock.toNat < (roundTarget env node anchor).toNat := by
        by_contra still
        exact goes (.inr (.inr (le_iff_toNat_le.mpr (Nat.not_lt.mp still))))
      have room : node.latestBlock.toNat + 501 < UInt64.size := by
        by_contra tight
        have found := @roundHead_le env node (.inr (.inr (.inr (Nat.not_lt.mp tight))))
        omega
      rw [toNat_roundHead calm isHead started room] at target
      split
      · next capped =>
        have covered := le_iff_toNat_le.mp capped
        refine iff_of_true ?_ (.inr ((windowsFit_iff_of_le (by omega)).mpr room))
        dsimp only
        omega
      · next uncapped =>
        have covered := lt_iff_toNat_lt.mp (UInt64.not_le.mp uncapped)
        have onward : IsHead node.db (roundTarget env node anchor) head :=
          isHead.later (by omega) (by omega)
        have rest := @ih { node with latestBlock := roundTarget env node anchor }
          onward (by dsimp only; omega) (by dsimp only; omega)
        dsimp only at rest
        rcases Nat.lt_or_ge (node.latestBlock.toNat + 500) head.toNat with far | close
        · -- the window ends below the head, and the next round starts there
          have ends : (roundTarget env node anchor).toNat = node.latestBlock.toNat + 500 := by
            omega
          have beyond : node.latestBlock.toNat + 500 < min head.toNat anchor.toNat := by omega
          rw [ends, max_eq_right beyond.le, or_iff_right beyond.not_ge] at rest
          rw [windowsFit_iff_next beyond, max_eq_right (by omega), or_iff_right (by omega)]
          exact rest
        · have ends : (roundTarget env node anchor).toNat = min head.toNat anchor.toNat := by
            omega
          rw [ends, max_self] at rest
          rw [max_eq_right (by omega)]
          exact iff_of_true (rest.mpr (.inl le_rfl))
            (.inr ((windowsFit_iff_of_le (by omega)).mpr room))

/-- A loop that cannot read or write, or whose marker is zero, moves nothing. -/
theorem ratchet_eq_self {anchor : UInt64} (rounds : Nat)
    (idle : (node.latestBlock = 0 ∨ env.blockNumberOk = false ∨ env.scanOk = false) ∨
      env.latestOk = false) :
    ratchet env anchor rounds node = node := by
  cases rounds with
  | zero => rfl
  | succ rounds =>
    rw [ratchet_succ, if_pos]
    rcases idle with unscanned | unwritten
    · have found : (roundHead env node).toNat ≤ node.latestBlock.toNat := by
        refine roundHead_le ?_
        rcases unscanned with zero | unread | unscanned
        · exact .inl zero
        · exact .inr (.inl unread)
        · exact .inr (.inr (.inl unscanned))
      have target : (roundTarget env node anchor).toNat = _ := toNat_roundTarget anchor
      exact .inr (.inr (le_iff_toNat_le.mpr (by omega)))
    · exact .inr (.inl (by rw [unwritten]; rfl))

theorem endSyncSession_eq (env : SyncEnv) {anchor : UInt64}
    (present : node.db.appliedAnchor = some anchor) :
    ∃ session, endSyncSession env node =
      if env.anchorReadOk then ratchet env anchor 1000 { node with session }
      else { node with session } := by
  refine ⟨{ active := node.session.active - 1,
            tip := if node.session.active - 1 = 0 then 0 else node.session.tip }, ?_⟩
  rw [endSyncSession, present]
  cases env.anchorReadOk <;> rfl

/-- A session that cannot read or write, or whose marker is zero, leaves the
marker as it is. -/
theorem endSyncSession_latestBlock_eq {anchor : UInt64}
    (present : node.db.appliedAnchor = some anchor)
    (idle : ¬ (env.Undisturbed ∧ node.latestBlock.toNat ≠ 0)) :
    (endSyncSession env node).latestBlock = node.latestBlock := by
  obtain ⟨session, ended⟩ := endSyncSession_eq env present
  rw [ended]
  split
  · next anchorRead =>
    rw [ratchet_eq_self]
    by_contra busy
    refine idle ⟨⟨?_, anchorRead, ?_, ?_⟩, ?_⟩
    · by_contra unread
      exact busy (.inl (.inr (.inl (Bool.eq_false_iff.mpr unread))))
    · by_contra unscanned
      exact busy (.inl (.inr (.inr (Bool.eq_false_iff.mpr unscanned))))
    · by_contra unwritten
      exact busy (.inr (Bool.eq_false_iff.mpr unwritten))
    · intro zero
      exact busy (.inl (.inl (UInt64.toNat_inj.mp zero)))
  · rfl

/-- After the end of a session the marker is the head that is stored without a
gap and covered by the anchor, exactly when it was there already or every call
succeeds, the marker is not zero and the windows stay below the largest number. -/
theorem endSyncSession_latestBlock_iff (env : SyncEnv) (node : Node) {anchor head : UInt64}
    (present : node.db.appliedAnchor = some anchor)
    (isHead : IsHead node.db node.latestBlock head)
    (near : head.toNat - node.latestBlock.toNat ≤ 500000) :
    (endSyncSession env node).latestBlock.toNat =
        max node.latestBlock.toNat (min head.toNat anchor.toNat) ↔
      min head.toNat anchor.toNat ≤ node.latestBlock.toNat ∨
        (env.Undisturbed ∧ node.latestBlock.toNat ≠ 0 ∧
          WindowsFit node.latestBlock.toNat (min head.toNat anchor.toNat)) := by
  by_cases active : env.Undisturbed ∧ node.latestBlock.toNat ≠ 0
  · obtain ⟨session, ended⟩ := endSyncSession_eq env present
    rw [if_pos active.1.anchorRead] at ended
    rw [ended]
    have reached := @ratchet_latestBlock_iff head env { node with session } active.1 anchor 1000
      isHead active.2 (by dsimp only; omega)
    dsimp only at reached
    rw [reached]
    constructor
    · rintro (low | fits)
      · exact .inl low
      · exact .inr ⟨active.1, active.2, fits⟩
    · rintro (low | ⟨-, -, fits⟩)
      · exact .inl low
      · exact .inr fits
  · rw [endSyncSession_latestBlock_eq present active]
    constructor
    · intro reached
      exact .inl (by omega)
    · rintro (low | ⟨calm, started, -⟩)
      · omega
      · exact absurd ⟨calm, started⟩ active

/-- A database that holds the blocks one to three, applied up to three. -/
def threeBlocks : DB :=
  { blocks := fun number =>
      if 1 ≤ number ∧ number ≤ 3 then some { blockNumber := number } else none
    appliedAnchor := some 3 }

theorem isHead_threeBlocks {marker : UInt64} (low : marker ≤ 3) : IsHead threeBlocks marker 3 where
  above := low
  stored := by
    intro number past upTo
    have pos : 1 ≤ number := by
      have least := lt_iff_toNat_lt.mp past
      exact le_iff_toNat_le.mpr (Nat.one_le_of_lt least)
    have found : threeBlocks.blocks number = some { blockNumber := number } :=
      if_pos ⟨pos, upTo⟩
    rw [found]
    rfl
  last := fun _ => rfl

/-- From block one the marker goes to the last stored and applied block. -/
theorem marker_one_reaches_three :
    (endSyncSession {} { db := threeBlocks, latestBlock := 1 }).latestBlock.toNat = 3 := by
  have reached := (endSyncSession_latestBlock_iff {} { db := threeBlocks, latestBlock := 1 }
    (rfl : threeBlocks.appliedAnchor = some 3) (isHead_threeBlocks (by decide)) (by decide)).mpr
    (.inr ⟨⟨rfl, rfl, rfl, rfl⟩, by decide, by unfold WindowsFit; decide⟩)
  exact reached

/-- A node that stored and applied blocks one to three in its first session keeps
the marker zero. -/
theorem marker_zero_stays_zero :
    threeBlocks.appliedAnchor = some 3 ∧
      (∀ number ∈ [1, 2, 3], (threeBlocks.blocks number).isSome) ∧
      (endSyncSession {} { db := threeBlocks, latestBlock := 0 }).latestBlock = 0 := by
  refine ⟨rfl, ?_, by decide +kernel⟩
  -- decided for each listed number, not over all of `UInt64`
  rw [List.forall_mem_cons, List.forall_mem_cons, List.forall_mem_singleton]
  decide +kernel

end Jmdn.FastsyncV2
