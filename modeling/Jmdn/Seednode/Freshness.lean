import Jmdn.Seednode.Source
import Mathlib.Data.List.Induction

/-!
# What a committee source serves

Every snapshot a source serves was verified under one key, the operator's if
there is one.  Its epoch is close to the current one except in two cases: a
snapshot that aged within its time to live, and a fetched snapshot whose epoch is
so far away that the signed difference wraps.
-/

namespace Jmdn.Seednode

open Go List

variable {snap : CommitteeSnapshot} {authority : String}
  {result : Except SourceError CommitteeSnapshot} {calls : List Call} {epoch : UInt64}
  {next : Source} {now : Time}

section

variable {env : Contracts} {config : SourceConfig} {source : Source} {call : Call}

theorem firstUse_ne_empty (adopted : firstUse env call = .ok authority) :
    authority ≠ "" := by
  unfold firstUse at adopted
  split at adopted
  · cases adopted
  split at adopted
  · cases adopted
  dsimp only at adopted
  split at adopted
  · cases adopted
  · next nonempty =>
    rw [← Except.ok.inj adopted]
    exact nonempty

/-- A resolved key is never empty, never replaces a key and is the operator's if
there is one. -/
theorem resolveAuthority_ok (resolved : resolveAuthority env config call source = .ok authority) :
    authority ≠ "" ∧ (source.authority ≠ "" → authority = source.authority) ∧
      (source.authority = "" → normalize env config.configPin ≠ "" →
        authority = normalize env config.configPin) := by
  unfold resolveAuthority at resolved
  split at resolved
  · next known =>
    rw [← Except.ok.inj resolved]
    exact ⟨known, fun _ => rfl, fun unknown => absurd unknown known⟩
  next unknown =>
  have kept : source.authority ≠ "" → authority = source.authority := fun known =>
    absurd known unknown
  split at resolved
  · next pinned =>
    have key := Except.ok.inj resolved
    exact ⟨key ▸ pinned, kept, fun _ _ => key.symm⟩
  next unpinned =>
  refine ⟨?_, kept, fun _ pinned => absurd pinned unpinned⟩
  split at resolved
  · exact firstUse_ne_empty resolved
  split at resolved
  · next nonempty =>
    rw [← Except.ok.inj resolved]
    exact nonempty
  · exact firstUse_ne_empty resolved

theorem fetchSnapshot_ok (fetched : fetchSnapshot env config call authority = .ok snap) :
    call.fetched = some snap ∧ verifyCommitteeSnapshot env (some snap) authority = none ∧
      checkSnapshotEpochFresh snap.epoch call.time.unix config.epochSeconds = true := by
  unfold fetchSnapshot at fetched
  split at fetched
  · cases fetched
  next answered =>
  split at fetched
  · cases fetched
  next verified =>
  split at fetched
  · next fresh =>
    cases fetched
    exact ⟨answered, verified, fresh⟩
  · cases fetched

theorem serveLastGoodOr_ok {cause : SourceError}
    (served : serveLastGoodOr config source now cause = .ok snap) :
    ∃ stored, source.cached = some (snap, stored) ∧
      checkSnapshotEpochFresh snap.epoch now.unix config.epochSeconds = true := by
  unfold serveLastGoodOr at served
  split at served
  · cases served
  next cached found =>
  split at served
  · next fresh =>
    cases served
    exact ⟨cached.2, found, fresh⟩
  · cases served

theorem withinTTL_eq_some (young : withinTTL config source now = some snap) :
    ∃ stored, source.cached = some (snap, stored) ∧ now.ns - stored.ns < config.ttl.toInt := by
  obtain ⟨⟨cached, stored⟩, found, kept⟩ := Option.bind_eq_some_iff.mp young
  split at kept
  · next within =>
    cases kept
    exact ⟨stored, found, within⟩
  · cases kept

/-- What a call can do: serve the young snapshot, try in vain and perhaps serve the
old one, or store and serve a new one. -/
inductive Calls (env : Contracts) (config : SourceConfig) (source : Source) (call : Call) :
    Except SourceError CommitteeSnapshot → Source → Prop
  | young {snap : CommitteeSnapshot} (kept : withinTTL config source call.time = some snap) :
      Calls env config source call (.ok snap) source
  | unresolved {cause : SourceError} (expired : withinTTL config source call.time = none) :
      Calls env config source call (serveLastGoodOr config source call.time cause) source
  | unanswered {authority : String} {cause : SourceError}
      (expired : withinTTL config source call.time = none)
      (resolved : resolveAuthority env config call source = .ok authority) :
      Calls env config source call (serveLastGoodOr config source call.time cause)
        { source with authority }
  | fetched {authority : String} {snap : CommitteeSnapshot}
      (expired : withinTTL config source call.time = none)
      (resolved : resolveAuthority env config call source = .ok authority)
      (accepted : fetchSnapshot env config call authority = .ok snap) :
      Calls env config source call (.ok snap) { authority, cached := some (snap, call.time) }

theorem eligible_calls :
    Calls env config source call (eligible env config source call).1
      (eligible env config source call).2 := by
  unfold eligible
  split
  · next kept => exact Calls.young kept
  next expired =>
  split
  · exact Calls.unresolved expired
  next resolved =>
  split
  · exact Calls.unanswered expired resolved
  · next accepted => exact Calls.fetched expired resolved accepted

/-- The key and the stored snapshot of a source. -/
structure Trusted (env : Contracts) (config : SourceConfig) (source : Source) : Prop where
  cached : ∀ snap stored, source.cached = some (snap, stored) →
    source.authority ≠ "" ∧ verifyCommitteeSnapshot env (some snap) source.authority = none
  pinned : source.authority ≠ "" → normalize env config.configPin ≠ "" →
    source.authority = normalize env config.configPin

theorem Trusted.initial : Trusted env config {} := by
  constructor
  · intro snap stored none
    cases none
  · intro nonempty
    exact absurd rfl nonempty

/-- A new key of a trusted source. -/
theorem Trusted.resolved (trusted : Trusted env config source)
    (resolved : resolveAuthority env config call source = .ok authority) :
    Trusted env config { source with authority } := by
  obtain ⟨nonempty, kept, adopted⟩ := resolveAuthority_ok resolved
  constructor
  · intro snap stored found
    obtain ⟨known, verified⟩ := trusted.cached snap stored found
    refine ⟨nonempty, ?_⟩
    rw [kept known]
    exact verified
  · intro _ pin
    by_cases unknown : source.authority = ""
    · exact adopted unknown pin
    · exact (kept unknown).trans (trusted.pinned unknown pin)

/-- A call keeps the key, and serves what was verified under it. -/
theorem Trusted.step (trusted : Trusted env config source)
    (calls : Calls env config source call result next) :
    Trusted env config next ∧ (source.authority ≠ "" → next.authority = source.authority) ∧
      ∀ snap, result = .ok snap →
        next.authority ≠ "" ∧ verifyCommitteeSnapshot env (some snap) next.authority = none := by
  cases calls with
  | young kept =>
    refine ⟨trusted, fun _ => rfl, fun snap served => ?_⟩
    obtain ⟨stored, found, -⟩ := withinTTL_eq_some kept
    cases served
    exact trusted.cached _ stored found
  | unresolved expired =>
    refine ⟨trusted, fun _ => rfl, fun snap served => ?_⟩
    obtain ⟨stored, found, -⟩ := serveLastGoodOr_ok served
    exact trusted.cached _ stored found
  | unanswered expired resolved =>
    have renewed := trusted.resolved resolved
    refine ⟨renewed, (resolveAuthority_ok resolved).2.1, fun snap served => ?_⟩
    obtain ⟨stored, found, -⟩ := serveLastGoodOr_ok served
    exact renewed.cached snap stored found
  | fetched expired resolved accepted =>
    have nonempty := (resolveAuthority_ok resolved).1
    obtain ⟨-, verified, -⟩ := fetchSnapshot_ok accepted
    refine ⟨⟨fun snap stored found => ?_, (trusted.resolved resolved).pinned⟩,
      (resolveAuthority_ok resolved).2.1, fun snap served => ?_⟩
    · cases found
      exact ⟨nonempty, verified⟩
    · cases served
      exact ⟨nonempty, verified⟩

theorem sourceAfter_snoc (calls : List Call) (call : Call) :
    sourceAfter env config (calls ++ [call]) =
      (eligible env config (sourceAfter env config calls) call).2 := by
  rw [sourceAfter, foldl_append]
  rfl

theorem sourceAfter_trusted (calls : List Call) :
    Trusted env config (sourceAfter env config calls) := by
  induction calls using List.reverseRecOn with
  | nil => exact Trusted.initial
  | append_singleton calls call ih =>
    rw [sourceAfter_snoc]
    exact (ih.step eligible_calls).1

theorem authority_stable (history later : List Call)
    (known : (sourceAfter env config history).authority ≠ "") :
    (sourceAfter env config (history ++ later)).authority =
      (sourceAfter env config history).authority := by
  induction later using List.reverseRecOn with
  | nil => rw [append_nil]
  | append_singleton later call ih =>
    rw [← append_assoc, sourceAfter_snoc, ← ih]
    refine ((sourceAfter_trusted (history ++ later)).step eligible_calls).2.1 ?_
    rw [ih]
    exact known

end

section

variable {env : Contracts} {config : SourceConfig} {source : Source} {call : Call}

/-- The epoch at the time of a call. -/
def currentEpoch (config : SourceConfig) (call : Call) : UInt64 :=
  epochForTime call.time.unix config.epochSeconds

/-- A call asks the seed, which answers with a snapshot that verifies under the
resolved key. -/
structure Fetches (env : Contracts) (config : SourceConfig) (source : Source) (call : Call)
    (snap : CommitteeSnapshot) : Prop where
  expired : withinTTL config source call.time = none
  answered : call.fetched = some snap
  verified : ∃ authority, resolveAuthority env config call source = .ok authority ∧
    verifyCommitteeSnapshot env (some snap) authority = none

/-- A verified snapshot of the seed is not so far away that its distance wraps, and
one that is close stays close for all calls within the time to live. -/
structure Guarded (env : Contracts) (config : SourceConfig) (source : Source) (call : Call)
    (later : List Call) : Prop where
  fetched : ∀ snap, Fetches env config source call snap →
    ¬ Wraps snap.epoch (currentEpoch config call)
  cached : ∀ snap, Fetches env config source call snap →
    Near snap.epoch (currentEpoch config call) → ∀ next ∈ later,
      next.time.ns - call.time.ns < config.ttl.toInt → Near snap.epoch (currentEpoch config next)

/-- The stored snapshot was fetched by one of the calls and close to its epoch. -/
def StoredNear (env : Contracts) (config : SourceConfig) (calls : List Call) : Prop :=
  ∀ snap stored, (sourceAfter env config calls).cached = some (snap, stored) →
    ∃ history call later, calls = history ++ call :: later ∧ call.time = stored ∧
      Fetches env config (sourceAfter env config history) call snap ∧
      Near snap.epoch (currentEpoch config call)

theorem checkSnapshotEpochFresh_iff (epoch : UInt64) :
    checkSnapshotEpochFresh epoch call.time.unix config.epochSeconds = true ↔
      Near epoch (currentEpoch config call) ∨ Wraps epoch (currentEpoch config call) :=
  epochWithinWindow_iff (epochForTime_lt _ _)

/-- A snapshot that was close to an earlier epoch cannot wrap. -/
theorem not_wraps_of_near {earlier : Call} (before : earlier.time.ns ≤ call.time.ns)
    (near : Near epoch (currentEpoch config earlier)) :
    ¬ Wraps epoch (currentEpoch config call) := by
  have later := epochForTime_mono before config.epochSeconds
  change (currentEpoch config earlier).toNat ≤ (currentEpoch config call).toNat at later
  unfold Near at near
  unfold Wraps
  omega

theorem not_near_of_wraps (wraps : Wraps epoch (currentEpoch config call)) :
    ¬ Near epoch (currentEpoch config call) := by
  have low := epochForTime_lt call.time.unix config.epochSeconds
  change (currentEpoch config call).toNat < 2 ^ 63 at low
  unfold Wraps at wraps
  unfold Near
  omega

/-- A guarded call stores a close epoch or nothing. -/
theorem StoredNear.snoc (storedNear : StoredNear env config calls)
    (guarded : Guarded env config (sourceAfter env config calls) call []) :
    StoredNear env config (calls ++ [call]) := by
  intro snap stored found
  have taken := @eligible_calls env config (sourceAfter env config calls) call
  rw [sourceAfter_snoc] at found
  generalize eligible env config (sourceAfter env config calls) call = outcome at taken found
  obtain ⟨result, next⟩ := outcome
  cases taken with
  | @fetched authority accepted expired resolved answer =>
    cases found
    obtain ⟨answered, verified, fresh⟩ := fetchSnapshot_ok answer
    have fetches : Fetches env config (sourceAfter env config calls) call snap :=
      ⟨expired, answered, authority, resolved, verified⟩
    exact ⟨calls, call, [], rfl, rfl, fetches,
      ((checkSnapshotEpochFresh_iff _).mp fresh).resolve_right (guarded.fetched snap fetches)⟩
  | _ =>
    obtain ⟨history, other, later, parts, rest⟩ := storedNear snap stored found
    exact ⟨history, other, later ++ [call], by rw [parts, append_assoc]; rfl, rest⟩

theorem sourceAfter_storedNear
    (guarded : ∀ history call later, calls = history ++ call :: later →
      Guarded env config (sourceAfter env config history) call later) :
    StoredNear env config calls := by
  induction calls using List.reverseRecOn with
  | nil =>
    intro snap stored none
    cases none
  | append_singleton calls call ih =>
    refine (ih fun history other later parts => ?_).snoc (guarded calls call [] rfl)
    have whole := guarded history other (later ++ [call]) (by rw [parts, append_assoc]; rfl)
    exact ⟨whole.fetched, fun snap fetches near next mem =>
      whole.cached snap fetches near next (mem_append_left _ mem)⟩

/-- A call after guarded ones serves a close epoch. -/
theorem served_near {history later : List Call}
    (ordered : ∀ earlier ∈ history, earlier.time.ns ≤ call.time.ns)
    (guarded : ∀ earlier other rest, history ++ call :: later = earlier ++ other :: rest →
      Guarded env config (sourceAfter env config earlier) other rest)
    (served : (eligible env config (sourceAfter env config history) call).1 = .ok snap) :
    Near snap.epoch (currentEpoch config call) := by
  have storedNear : StoredNear env config history := sourceAfter_storedNear
    fun earlier other rest parts => by
      have whole := guarded earlier other (rest ++ call :: later) (by rw [parts, append_assoc]; rfl)
      exact ⟨whole.fetched, fun snap fetches near next mem =>
        whole.cached snap fetches near next (mem_append_left _ mem)⟩
  have lastGood : ∀ {cause : SourceError},
      serveLastGoodOr config (sourceAfter env config history) call.time cause = .ok snap →
        Near snap.epoch (currentEpoch config call) := by
    intro cause last
    obtain ⟨stored, found, fresh⟩ := serveLastGoodOr_ok last
    obtain ⟨before, earlier, after, rfl, rfl, -, near⟩ := storedNear snap stored found
    exact ((checkSnapshotEpochFresh_iff _).mp fresh).resolve_right
      (not_wraps_of_near (ordered earlier (by simp)) near)
  have taken := @eligible_calls env config (sourceAfter env config history) call
  generalize eligible env config (sourceAfter env config history) call = outcome at taken served
  obtain ⟨result, next⟩ := outcome
  cases taken with
  | young kept =>
    cases served
    obtain ⟨stored, found, young⟩ := withinTTL_eq_some kept
    obtain ⟨before, earlier, after, rfl, rfl, fetches, near⟩ := storedNear snap stored found
    exact (guarded before earlier (after ++ call :: later) (by rw [append_assoc]; rfl)).cached
      snap fetches near call (by simp) young
  | @fetched authority _ expired resolved accepted =>
    cases served
    obtain ⟨answered, verified, fresh⟩ := fetchSnapshot_ok accepted
    exact ((checkSnapshotEpochFresh_iff _).mp fresh).resolve_right
      ((guarded history call later rfl).fetched snap
        ⟨expired, answered, authority, resolved, verified⟩)
  | _ => exact lastGood served

theorem eligible_fetched (fetches : Fetches env config source call snap)
    (fresh : Near snap.epoch (currentEpoch config call) ∨
      Wraps snap.epoch (currentEpoch config call)) :
    (eligible env config source call).1 = .ok snap ∧
      (eligible env config source call).2.cached = some (snap, call.time) := by
  obtain ⟨expired, answered, authority, resolved, verified⟩ := fetches
  have accepted : fetchSnapshot env config call authority = .ok snap := by
    rw [fetchSnapshot, answered]
    dsimp only
    rw [verified]
    dsimp only
    rw [if_pos ((checkSnapshotEpochFresh_iff _).mpr fresh)]
  rw [eligible, expired]
  dsimp only
  rw [resolved]
  dsimp only
  rw [accepted]
  exact ⟨rfl, rfl⟩

/-- Within the time to live a snapshot is served and kept. -/
theorem eligible_young {stored : Time} (found : source.cached = some (snap, stored))
    (young : call.time.ns - stored.ns < config.ttl.toInt) :
    eligible env config source call = (.ok snap, source) := by
  have kept : withinTTL config source call.time = some snap := by
    rw [withinTTL, found, Option.bind_some, if_pos young]
  rw [eligible, kept]

theorem cached_of_young {stored : Time} {later : List Call}
    (found : (sourceAfter env config calls).cached = some (snap, stored))
    (young : ∀ next ∈ later, next.time.ns - stored.ns < config.ttl.toInt) :
    (sourceAfter env config (calls ++ later)).cached = some (snap, stored) := by
  induction later using List.reverseRecOn with
  | nil => rwa [append_nil]
  | append_singleton later call ih =>
    have kept := ih fun next mem => young next (mem_append_left _ mem)
    rw [← append_assoc, sourceAfter_snoc, eligible_young kept (young call (by simp))]
    exact kept

/-- The key of a run; without one nothing was served. -/
def runAuthority (env : Contracts) (config : SourceConfig) (calls : List Call) : String :=
  if (sourceAfter env config calls).authority = "" then normalize env config.configPin
  else (sourceAfter env config calls).authority

theorem runAuthority_eq {history later : List Call}
    (known : (sourceAfter env config history).authority ≠ "") :
    runAuthority env config (history ++ later) = (sourceAfter env config history).authority := by
  have stable := authority_stable history later known
  rw [runAuthority, stable, if_neg known]

end

/-- Contracts under which every signature is valid. -/
def acceptingContracts : Contracts where
  slice := SortSlice.insertion
  blsVerify _ _ _ := true

/-- One-hour epochs, a minute of caching, and a pinned key. -/
def hourlyConfig : SourceConfig :=
  { configPin := "ab", epochSeconds := 3600, ttl := 60000000000 }

def epochSnapshot (epoch : UInt64) : CommitteeSnapshot :=
  { epoch, entries := [⟨"peer", "cd"⟩], authorityPubHex := "ab", signature := "ef" }

theorem zero_lt_second : 0 < 1000000000 := by decide

/-- A call at some second that the seed answers with the snapshot of an epoch. -/
def callAt (unix : Int64) (epoch : UInt64) : Call :=
  { time := ⟨unix, 0, zero_lt_second⟩, fetched := some (epochSnapshot epoch) }

/-- A fetched snapshot, the same from the cache, and after its time to live once more
because the seed does not answer. -/
def freshCalls : List Call :=
  [callAt 363550 100, callAt 363590 7, { time := ⟨363620, 0, zero_lt_second⟩, fetched := none }]

theorem guarded_freshCalls (history : List Call) (call : Call) (later : List Call)
    (parts : freshCalls = history ++ call :: later) :
    Guarded acceptingContracts hourlyConfig
      (sourceAfter acceptingContracts hourlyConfig history) call later := by
  rcases history with _ | ⟨first, _ | ⟨second, _ | ⟨third, rest⟩⟩⟩
  · cases parts
    have only : ∀ snap, Fetches acceptingContracts hourlyConfig {} (callAt 363550 100) snap →
        snap = epochSnapshot 100 := fun _ fetches => (Option.some.inj fetches.answered).symm
    refine ⟨fun snap fetches => ?_, fun snap fetches _ => ?_⟩
    · obtain rfl := only snap fetches
      unfold Wraps
      decide +kernel
    · obtain rfl := only snap fetches
      unfold Near
      decide +kernel
  · cases parts
    have kept : withinTTL hourlyConfig (sourceAfter acceptingContracts hourlyConfig
        [callAt 363550 100]) (callAt 363590 7).time = some (epochSnapshot 100) := by
      decide +kernel
    have cached : ∀ snap, ¬ Fetches acceptingContracts hourlyConfig (sourceAfter
        acceptingContracts hourlyConfig [callAt 363550 100]) (callAt 363590 7) snap :=
      fun snap fetches => nomatch kept.symm.trans fetches.expired
    exact ⟨fun snap fetches => absurd fetches (cached snap),
      fun snap fetches => absurd fetches (cached snap)⟩
  · cases parts
    exact ⟨fun _ fetches => (nomatch fetches.answered), fun _ fetches =>
      (nomatch fetches.answered)⟩
  · have lengths := congrArg List.length parts
    simp [freshCalls] at lengths

end Jmdn.Seednode
