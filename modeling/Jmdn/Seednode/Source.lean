import Jmdn.Seednode.Committee

/-!
# The committee source

`committeeSource` of `seednode/committee_snapshot_client.go`: the authority key is
taken from the operator, from the file of an earlier run or from the first
snapshot of the seed; a verified snapshot is kept and served again while it is
young, or while the seed does not answer and its epoch is close enough.  All
clock readings of one call are one time.
-/

namespace Jmdn.Seednode

open Go

variable {unix : Int64}

/-! ## Epochs -/

/-- A `time.Time`: Unix seconds, and nanoseconds within the second. -/
structure Time where
  unix : Int64
  nano : Nat
  small : nano < 1000000000

/-- Nanoseconds since the Unix epoch. -/
def Time.ns (time : Time) : Int :=
  time.unix.toInt * 1000000000 + time.nano

variable {first : Time}

def defaultCommitteeEpochSeconds : Int64 := 3600

/-- The seconds of an epoch. -/
def secondsOf (epochSeconds : Int64) : Int64 :=
  if epochSeconds ≤ 0 then defaultCommitteeEpochSeconds else epochSeconds

/-- `EpochForTime`. -/
def epochForTime (unix epochSeconds : Int64) : UInt64 :=
  if unix < 0 then 0 else (unix / secondsOf epochSeconds).toUInt64

/-- The comparison of `CheckSnapshotEpochFresh` with the current epoch, in signed
64-bit arithmetic. -/
def epochWithinWindow (snapEpoch cur : UInt64) : Bool :=
  let d := snapEpoch.toInt64 - cur.toInt64
  let d := if d < 0 then -d else d
  !(d > 1)

/-- `CheckSnapshotEpochFresh`. -/
def checkSnapshotEpochFresh (snapEpoch : UInt64) (nowUnix epochSeconds : Int64) : Bool :=
  epochWithinWindow snapEpoch (epochForTime nowUnix epochSeconds)

/-- Epochs that differ by at most one. -/
def Near (epoch cur : UInt64) : Prop :=
  epoch.toNat ≤ cur.toNat + 1 ∧ cur.toNat ≤ epoch.toNat + 1

/-- Epochs far apart whose signed difference is small: half the range apart, where
the difference has no absolute value, or at its two ends. -/
def Wraps (epoch cur : UInt64) : Prop :=
  epoch.toNat = cur.toNat + 2 ^ 63 ∨ cur.toNat = 0 ∧ epoch.toNat = 2 ^ 64 - 1

theorem secondsOf_pos (epochSeconds : Int64) : 0 < (secondsOf epochSeconds).toInt := by
  unfold secondsOf
  split
  · decide
  · next pos =>
    rw [Int64.not_le, Int64.lt_iff_toInt_lt] at pos
    exact pos

theorem toNat_epochForTime (nonneg : 0 ≤ unix.toInt) (epochSeconds : Int64) :
    (epochForTime unix epochSeconds).toNat =
      unix.toInt.toNat / (secondsOf epochSeconds).toInt.toNat := by
  have pos := secondsOf_pos epochSeconds
  have quotient : (unix / secondsOf epochSeconds).toInt =
      unix.toInt / (secondsOf epochSeconds).toInt := by
    rw [Int64.toInt_div_of_ne_left, Int.tdiv_eq_ediv_of_nonneg nonneg]
    rintro rfl
    exact absurd nonneg (by decide)
  have still : 0 ≤ unix / secondsOf epochSeconds := by
    rw [Int64.le_iff_toInt_le, quotient]
    exact Int.ediv_nonneg nonneg pos.le
  have past : ¬ unix < 0 := by
    rw [Int64.lt_iff_toInt_lt, Int.not_lt]
    exact nonneg
  rw [epochForTime, if_neg past, Int64.toNat_toUInt64_of_le still]
  change (unix / secondsOf epochSeconds).toInt.toNat = _
  obtain ⟨now, isNow⟩ := Int.eq_ofNat_of_zero_le nonneg
  obtain ⟨seconds, isSeconds⟩ := Int.eq_ofNat_of_zero_le pos.le
  rw [quotient, isNow, isSeconds, ← Int.natCast_ediv]
  rfl

theorem epochForTime_of_neg (negative : unix.toInt < 0) (epochSeconds : Int64) :
    epochForTime unix epochSeconds = 0 := by
  have past : unix < 0 := by
    rw [Int64.lt_iff_toInt_lt]
    exact negative
  rw [epochForTime, if_pos past]

theorem epochForTime_lt (unix epochSeconds : Int64) :
    (epochForTime unix epochSeconds).toNat < 2 ^ 63 := by
  by_cases nonneg : 0 ≤ unix.toInt
  · rw [toNat_epochForTime nonneg]
    have most := unix.toInt_lt
    refine lt_of_le_of_lt (Nat.div_le_self _ _) ?_
    omega
  · rw [epochForTime_of_neg (by omega)]
    decide

theorem Time.unix_le {second : Time} (before : first.ns ≤ second.ns) :
    first.unix.toInt ≤ second.unix.toInt := by
  have one := first.small
  have other := second.small
  unfold Time.ns at before
  omega

theorem epochForTime_mono {second : Time} (before : first.ns ≤ second.ns) (epochSeconds : Int64) :
    (epochForTime first.unix epochSeconds).toNat ≤
      (epochForTime second.unix epochSeconds).toNat := by
  have seconds := Time.unix_le before
  by_cases nonneg : 0 ≤ first.unix.toInt
  · rw [toNat_epochForTime nonneg, toNat_epochForTime (le_trans nonneg seconds)]
    exact Nat.div_le_div_right (Int.toNat_le_toNat seconds)
  · rw [epochForTime_of_neg (by omega)]
    exact Nat.zero_le _

/-- The signed difference of two epochs is their difference up to a turn. -/
theorem toInt_difference {epoch cur : UInt64} (low : cur.toNat < 2 ^ 63) :
    (epoch.toInt64 - cur.toInt64).toInt =
      if epoch.toNat < cur.toNat + 2 ^ 63 then (epoch.toNat : Int) - cur.toNat
      else (epoch.toNat : Int) - cur.toNat - 2 ^ 64 := by
  have size := epoch.toNat_lt
  have first : epoch.toInt64.toInt = Int.bmod epoch.toNat (2 ^ 64) :=
    BitVec.toInt_eq_toNat_bmod _
  have second : cur.toInt64.toInt = Int.bmod cur.toNat (2 ^ 64) := BitVec.toInt_eq_toNat_bmod _
  rw [Int64.toInt_sub, first, second, Int.bmod_sub_bmod, Int.sub_bmod_bmod]
  split
  · exact Int.bmod_eq_of_le (by omega) (by omega)
  · rw [← Int.sub_mul_bmod_self_right _ 1]
    exact Int.bmod_eq_of_le (by omega) (by omega)

theorem epochWithinWindow_iff {epoch cur : UInt64} (low : cur.toNat < 2 ^ 63) :
    epochWithinWindow epoch cur = true ↔ Near epoch cur ∨ Wraps epoch cur := by
  have size := epoch.toNat_lt
  have one : (1 : Int64).toInt = 1 := rfl
  have zero : (0 : Int64).toInt = 0 := rfl
  have difference := @toInt_difference epoch cur low
  simp only [epochWithinWindow, Bool.not_eq_true', decide_eq_false_iff_not, Near, Wraps]
  rw [gt_iff_lt, Int64.lt_iff_toInt_lt, one]
  split
  · next negative =>
    rw [Int64.lt_iff_toInt_lt, zero] at negative
    by_cases lowest : (epoch.toInt64 - cur.toInt64).toInt = -2 ^ 63
    · -- the lowest number is its own negative
      have same : (-(epoch.toInt64 - cur.toInt64)).toInt = -2 ^ 63 := by
        rw [Int64.toInt_neg, lowest]
        rfl
      rw [same]
      split at difference <;> omega
    · have least := Int64.le_toInt (epoch.toInt64 - cur.toInt64)
      rw [Int64.toInt_neg, Int.bmod_eq_of_le (by omega) (by omega)]
      split at difference <;> omega
  · next nonneg =>
    rw [Int64.lt_iff_toInt_lt, zero] at nonneg
    split at difference <;> omega

/-! ## The source -/

/-- What a source is started with. -/
structure SourceConfig where
  configPin : String := ""
  epochSeconds : Int64
  hasPinFile : Bool := false
  ttl : Int64

/-- The state of a source; the snapshot comes with the time it was stored. -/
structure Source where
  authority : String := ""
  cached : Option (CommitteeSnapshot × Time) := none

/-- A call of `eligible`: its time, the key the pin file holds if it can be read,
and the answers of the seed to the fetch of a first use and to the fetch. -/
structure Call where
  time : Time
  persisted : Option String := none
  first : Option CommitteeSnapshot := none
  fetched : Option CommitteeSnapshot := none

inductive SourceError where
  | fetchFailed
  | selfVerifyFailed (cause : SnapshotError)
  | noAuthorityKey
  | rejected (cause : SnapshotError)
  | stale
  deriving DecidableEq, Repr

section

variable (env : Contracts) (config : SourceConfig)

/-- Adopt the key of the seed's first snapshot. -/
def firstUse (call : Call) : Except SourceError String :=
  match call.first with
  | none => .error .fetchFailed
  | some snap =>
    match verifyCommitteeSnapshot env (some snap) "" with
    | some cause => .error (.selfVerifyFailed cause)
    | none =>
      let adopted := normalize env snap.authorityPubHex
      if adopted = "" then .error .noAuthorityKey else .ok adopted

/-- `resolveAuthority`. -/
def resolveAuthority (call : Call) (source : Source) : Except SourceError String :=
  if source.authority ≠ "" then .ok source.authority
  else if normalize env config.configPin ≠ "" then .ok (normalize env config.configPin)
  else
    match (if config.hasPinFile then call.persisted else none) with
    | none => firstUse env call
    | some key => if normalize env key ≠ "" then .ok (normalize env key) else firstUse env call

/-- The snapshot of the fast path. -/
def withinTTL (source : Source) (now : Time) : Option CommitteeSnapshot :=
  source.cached.bind fun cached =>
    if now.ns - cached.2.ns < config.ttl.toInt then some cached.1 else none

/-- `serveLastGoodOr`. -/
def serveLastGoodOr (source : Source) (now : Time) (cause : SourceError) :
    Except SourceError CommitteeSnapshot :=
  match source.cached with
  | none => .error cause
  | some cached =>
    if checkSnapshotEpochFresh cached.1.epoch now.unix config.epochSeconds then .ok cached.1
    else .error cause

/-- Fetch, verify and check the epoch. -/
def fetchSnapshot (call : Call) (authority : String) : Except SourceError CommitteeSnapshot :=
  match call.fetched with
  | none => .error .fetchFailed
  | some snap =>
    match verifyCommitteeSnapshot env (some snap) authority with
    | some cause => .error (.rejected cause)
    | none =>
      if checkSnapshotEpochFresh snap.epoch call.time.unix config.epochSeconds then .ok snap
      else .error .stale

/-- `eligible`: the snapshot whose map `BLSPubByPeer` is returned. -/
def eligible (source : Source) (call : Call) : Except SourceError CommitteeSnapshot × Source :=
  match withinTTL config source call.time with
  | some snap => (.ok snap, source)
  | none =>
    match resolveAuthority env config call source with
    | .error cause => (serveLastGoodOr config source call.time cause, source)
    | .ok authority =>
      match fetchSnapshot env config call authority with
      | .error cause => (serveLastGoodOr config source call.time cause, { source with authority })
      | .ok snap => (.ok snap, { authority, cached := some (snap, call.time) })

/-- The source after a sequence of calls. -/
def sourceAfter (calls : List Call) : Source :=
  calls.foldl (fun source call => (eligible env config source call).2) {}

end

end Jmdn.Seednode
