import Jmdn.FastsyncV2.ReconScan
import Jmdn.Interval.Runs

/-!
# The ranges a catch-up asks for

`buildMissingTag` and `buildDataMissingTag` of `catchup.go`: two loops over the
batches of a range with a cursor, the next number that is not accounted for.  The
first tags the numbers without a block; the second also those whose block lacks
data, and joins neighbours into one run.
-/

namespace Jmdn.FastsyncV2

open Config DBOPs Jmdn.Interval List Merkle Nodeinfo Transition UInt64

variable {number : UInt64}

/-! ## Absent blocks -/

/-- The variables of `buildMissingTag`. -/
structure MissingScan where
  cursor : UInt64
  ranges : List (UInt64 × UInt64) := []

/-- The body of the loop for one element of a batch. -/
def MissingScan.step (scan : MissingScan) : Option ZKBlock → MissingScan
  | none => scan
  | some block =>
    let b := block.blockNumber
    if b < scan.cursor then scan
    else
      { cursor := b + 1
        ranges := if b > scan.cursor then scan.ranges ++ [(scan.cursor, b - 1)]
          else scan.ranges }

/-- The trailing gap. -/
def MissingScan.tag (scan : MissingScan) (remoteTip : UInt64) : List (UInt64 × UInt64) :=
  if scan.cursor ≤ remoteTip then scan.ranges ++ [(scan.cursor, remoteTip)] else scan.ranges

/-- `buildMissingTag` returns the given ranges or, without, an error. -/
def BuildMissingTag (store : BlockStore) (env : ScanCalls) (batchsize : Int64)
    (fromBlock remoteTip : UInt64) (result : Option (List (UInt64 × UInt64))) : Prop :=
  ∃ scan calls, Returns (batchRound store.blocks env fun scan batch => batch.foldl .step scan)
      { iter := newBlockIterator fromBlock remoteTip batchsize
        acc := { cursor := fromBlock : MissingScan } } (scan, calls) ∧
    result = scan.map (·.tag remoteTip)

/-! ## Absent and incomplete blocks -/

/-- `buildDataMissingTag` returns the given ranges or, without, an error. -/
def BuildDataMissingTag (store : BlockStore) (env : ScanCalls) (batchsize : Int64)
    (fromBlock remoteTip : UInt64) (result : Option (List (UInt64 × UInt64))) : Prop :=
  ∃ scan calls, Returns (batchRound store.blocks env fun scan batch =>
        batch.foldl (.step blockNeedsDataSync) scan)
      { iter := newBlockIterator fromBlock remoteTip batchsize
        acc := { cursor := fromBlock : DataScan } } (scan, calls) ∧
    result = scan.map (·.tag remoteTip)

/-! ## The scan of a range -/

/-- The numbers of a range that have no block or one that needs a sync. -/
def Wanted (store : BlockStore) (needs : ZKBlock → Bool) (fromBlock remoteTip : UInt64)
    (number : Nat) : Prop :=
  fromBlock.toNat ≤ number ∧ number ≤ remoteTip.toNat ∧
    (store.blocks (UInt64.ofNat number)).all needs = true

def natRange (range : UInt64 × UInt64) : Nat × Nat :=
  (range.1.toNat, range.2.toNat)

namespace DataScan

variable {store : BlockStore} {needs : ZKBlock → Bool} {fromBlock remoteTip : UInt64}
  {scan : DataScan} {number : UInt64}

/-- The numbers below the given one have been scanned: those below the cursor are
accounted for, and the others have no block. -/
structure UpTo (store : BlockStore) (needs : ZKBlock → Bool) (fromBlock remoteTip : UInt64)
    (position : Nat) (scan : DataScan) : Prop where
  scanned : Scanned (Wanted store needs fromBlock remoteTip) scan.cursor.toNat
    (scan.ranges.map natRange) (scan.run.map UInt64.toNat)
  lower : fromBlock ≤ scan.cursor
  behind : scan.cursor.toNat ≤ position
  absent : ∀ number, scan.cursor.toNat ≤ number → number < position →
    store.blocks (UInt64.ofNat number) = none

theorem UpTo.wanted {position : Nat} (upTo : UpTo store needs fromBlock remoteTip position scan)
    (inside : position ≤ remoteTip.toNat + 1) {number : Nat} (above : scan.cursor.toNat ≤ number)
    (below : number < position) : Wanted store needs fromBlock remoteTip number := by
  have lower := le_iff_toNat_le.mp upTo.lower
  refine ⟨by omega, by omega, ?_⟩
  rw [upTo.absent number above below]
  rfl

theorem map_addToRun (scan : DataScan) (b : UInt64) :
    (scan.addToRun b).run.map UInt64.toNat = (scan.run.map UInt64.toNat <|> some b.toNat) := by
  rw [addToRun]
  cases scan.run <;> rfl

theorem map_endRunAt (scan : DataScan) (end_ : UInt64) :
    (scan.endRunAt end_).ranges.map natRange =
      scan.ranges.map natRange ++ endedRun (scan.run.map UInt64.toNat) end_.toNat := by
  rw [endRunAt, map_append]
  cases scan.run <;> rfl

theorem joinGap_ranges (scan : DataScan) (b : UInt64) : (scan.joinGap b).ranges = scan.ranges := by
  rw [joinGap]
  split <;> rfl

/-- The absent numbers before the next one join the run. -/
theorem UpTo.joinGap (upTo : UpTo store needs fromBlock remoteTip number.toNat scan)
    (inside : number.toNat ≤ remoteTip.toNat + 1) :
    Scanned (Wanted store needs fromBlock remoteTip) number.toNat
      ((scan.joinGap number).ranges.map natRange)
      ((scan.joinGap number).run.map UInt64.toNat) := by
  rw [joinGap_ranges, DataScan.joinGap]
  split
  · next gap =>
    rw [map_addToRun]
    exact upTo.scanned.extend_to (lt_iff_toNat_lt.mp gap)
      fun _ above below => upTo.wanted inside above below
  · next level =>
    have reached : number.toNat = scan.cursor.toNat := by
      have bound := le_iff_toNat_le.mp (UInt64.not_lt.mp level)
      have behind := upTo.behind
      omega
    rw [reached]
    exact upTo.scanned

/-- A block that needs a sync keeps the run open, any other ends it before its number. -/
theorem step_stored {block : ZKBlock} (own : block.blockNumber = number)
    (behind : scan.cursor.toNat ≤ number.toNat) :
    scan.step needs (some block) =
      { if needs block then (scan.joinGap number).addToRun number
        else (scan.joinGap number).endRunAt (number - 1) with
        cursor := number + 1 } := by
  have ahead : ¬ block.blockNumber < scan.cursor := by
    rw [own, lt_iff_toNat_lt]
    omega
  rw [step]
  dsimp only
  rw [if_neg ahead, own]

/-- A run ends at the number before the next one; before zero there is none. -/
theorem endedRun_pred {property : Nat → Prop} {runs : List (Nat × Nat)} {start : Option Nat}
    (scanned : Scanned property number.toNat runs start) :
    endedRun start (number - 1).toNat = endedRun start (number.toNat - 1) := by
  cases start with
  | none => rfl
  | some first =>
    have positive : 1 ≤ number := by
      rw [le_iff_toNat_le]
      exact Nat.succ_le_of_lt (Nat.zero_lt_of_lt scanned.opened.1)
    rw [UInt64.toNat_sub_of_le _ _ positive, toNat_one]

theorem UpTo.step (upTo : UpTo store needs fromBlock remoteTip number.toNat scan)
    (visible : ∀ block, needs (configToFastsyncBlock block) = needs block)
    (inside : number ≤ remoteTip) (room : remoteTip.toNat + 1 < 2 ^ 64) :
    UpTo store needs fromBlock remoteTip (number.toNat + 1)
      (scan.step needs ((store.blocks number).map configToFastsyncBlock)) := by
  have upper := le_iff_toNat_le.mp inside
  have lower := le_iff_toNat_le.mp upTo.lower
  have behind := upTo.behind
  have back : UInt64.ofNat number.toNat = number := UInt64.ofNat_toNat
  cases found : store.blocks number with
  | none =>
    refine ⟨upTo.scanned, upTo.lower, Nat.le_succ_of_le behind, fun other above below => ?_⟩
    rcases Nat.lt_succ_iff_lt_or_eq.mp below with earlier | rfl
    · exact upTo.absent other above earlier
    · rw [back, found]
  | some block =>
    have joined := upTo.joinGap (by omega)
    have next : (number + 1).toNat = number.toNat + 1 := toNat_succ (by omega)
    have own : (configToFastsyncBlock block).blockNumber = number :=
      store.keyed number block found
    have wanted : Wanted store needs fromBlock remoteTip number.toNat ↔ needs block = true := by
      rw [Wanted, back, found, Option.all_some, and_iff_right (by omega), and_iff_right upper]
    rw [Option.map_some, step_stored own behind, visible]
    have start : fromBlock ≤ number + 1 := by
      rw [le_iff_toNat_le]
      omega
    have scanned : Scanned (Wanted store needs fromBlock remoteTip) (number.toNat + 1)
        ((if needs block then (scan.joinGap number).addToRun number
          else (scan.joinGap number).endRunAt (number - 1)).ranges.map natRange)
        ((if needs block then (scan.joinGap number).addToRun number
          else (scan.joinGap number).endRunAt (number - 1)).run.map UInt64.toNat) := by
      split
      · next incomplete =>
        rw [map_addToRun]
        exact joined.extend (wanted.mpr incomplete)
      · next complete =>
        rw [map_endRunAt, endedRun_pred joined]
        exact joined.close fun needed => complete (wanted.mp needed)
    rw [← next] at scanned
    refine ⟨scanned, start, next.le, fun other above below => ?_⟩
    have reached : (number + 1).toNat ≤ other := above
    omega

theorem UpTo.positions (visible : ∀ block, needs (configToFastsyncBlock block) = needs block)
    (room : remoteTip.toNat + 1 < 2 ^ 64) (count : Nat) {scan : DataScan}
    (upTo : UpTo store needs fromBlock remoteTip number.toNat scan)
    (rest : number.toNat + count = remoteTip.toNat + 1) :
    UpTo store needs fromBlock remoteTip (remoteTip.toNat + 1)
      ((store.positions number remoteTip).foldl (DataScan.step needs) scan) := by
  induction count generalizing number scan with
  | zero =>
    have past : remoteTip < number := by
      rw [lt_iff_toNat_lt]
      omega
    rw [BlockStore.positions, blockNumbers_eq_nil past, ← rest]
    exact upTo
  | succ count ih =>
    have inside : number ≤ remoteTip := by
      rw [le_iff_toNat_le]
      omega
    have next : (number + 1).toNat = number.toNat + 1 := toNat_succ (by omega)
    have stepped := upTo.step visible inside room
    rw [← next] at stepped
    have whole := ih stepped (by omega)
    rw [BlockStore.positions, blockNumbers_cons inside room, map_cons, foldl_cons]
    exact whole

theorem UpTo.start (store : BlockStore) (needs : ZKBlock → Bool) (fromBlock remoteTip : UInt64) :
    UpTo store needs fromBlock remoteTip fromBlock.toNat { cursor := fromBlock } where
  scanned := Scanned.empty fun _ below wanted => absurd wanted.1 (Nat.not_le_of_lt below)
  lower := UInt64.le_rfl
  behind := Nat.le_refl _
  absent := fun _ above below => absurd above (Nat.not_le_of_lt below)

/-- The tag of a scan of the whole range lists the runs of wanted numbers. -/
theorem UpTo.listsRuns
    (upTo : UpTo store needs fromBlock remoteTip (remoteTip.toNat + 1) scan)
    (room : remoteTip.toNat + 1 < 2 ^ 64) :
    ListsRuns (Wanted store needs fromBlock remoteTip) ((scan.tag remoteTip).map natRange) := by
  have next : (remoteTip + 1).toNat = remoteTip.toNat + 1 := toNat_succ room
  rw [← next] at upTo
  have joined := upTo.joinGap next.le
  have same : scan.tag remoteTip = ((scan.joinGap (remoteTip + 1)).endRunAt remoteTip).ranges := by
    have order : scan.cursor ≤ remoteTip ↔ remoteTip + 1 > scan.cursor := by
      rw [le_iff_toNat_le, gt_iff_lt, lt_iff_toNat_lt, next, Nat.lt_succ_iff]
    rw [tag, DataScan.joinGap]
    simp only [order]
  have finished := joined.finish fun number above wanted =>
    absurd wanted.2.1 (by omega)
  rw [same, map_endRunAt]
  rw [next, Nat.add_sub_cancel] at finished
  exact finished

end DataScan

/-- The scan for absent blocks is the one in which no block needs a sync. -/
def MissingScan.toData (scan : MissingScan) : DataScan :=
  { cursor := scan.cursor, ranges := scan.ranges }

theorem MissingScan.toData_step (scan : MissingScan) (element : Option ZKBlock) :
    (scan.step element).toData = scan.toData.step (fun _ => false) element := by
  cases element with
  | none => rfl
  | some block =>
    by_cases old : block.blockNumber < scan.cursor
    · simp [step, DataScan.step, toData, old]
    by_cases gap : scan.cursor < block.blockNumber
    · simp [step, DataScan.step, toData, DataScan.joinGap, DataScan.addToRun,
        DataScan.endRunAt, old, gap]
    · simp [step, DataScan.step, toData, DataScan.joinGap, DataScan.endRunAt, old, gap]

theorem MissingScan.toData_tag (scan : MissingScan) (remoteTip : UInt64) :
    scan.tag remoteTip = scan.toData.tag remoteTip := by
  by_cases gap : scan.cursor ≤ remoteTip
  · simp [tag, DataScan.tag, toData, DataScan.addToRun, DataScan.endRunAt, gap]
  · simp [tag, DataScan.tag, toData, DataScan.endRunAt, gap]

theorem MissingScan.toData_foldl (scan : MissingScan) (elements : List (Option ZKBlock)) :
    (elements.foldl MissingScan.step scan).toData =
      elements.foldl (DataScan.step fun _ => false) scan.toData :=
  (foldl_hom MissingScan.toData fun scan element =>
    (MissingScan.toData_step scan element).symm).symm

/-! ## The tags -/

/-- A longest run of numbers of the range with the property. -/
structure TaggedRun (property : UInt64 → Prop) (fromBlock remoteTip : UInt64)
    (range : UInt64 × UInt64) : Prop where
  lower : fromBlock ≤ range.1
  ordered : range.1 ≤ range.2
  upper : range.2 ≤ remoteTip
  inside : ∀ number, range.1 ≤ number → number ≤ range.2 → property number
  before : range.1 = fromBlock ∨ ¬ property (range.1 - 1)
  after : range.2 = remoteTip ∨ ¬ property (range.2 + 1)

/-- The ranges are exactly the longest runs, ascending, and no two of them overlap or
touch. -/
structure TagsRuns (property : UInt64 → Prop) (fromBlock remoteTip : UInt64)
    (ranges : List (UInt64 × UInt64)) : Prop where
  exact : ∀ range, range ∈ ranges ↔ TaggedRun property fromBlock remoteTip range
  apart : ranges.Pairwise fun one other => one.2.toNat + 1 < other.1.toNat

theorem natRange_injective : Function.Injective natRange := by
  intro one other same
  rw [natRange, natRange, Prod.mk.injEq] at same
  exact Prod.ext (UInt64.toNat_inj.mp same.1) (UInt64.toNat_inj.mp same.2)

theorem ofNat_toNat_pred (positive : 0 < number.toNat) :
    UInt64.ofNat (number.toNat - 1) = number - 1 := by
  apply UInt64.toNat_inj.mp
  have one : (1 : UInt64) ≤ number := le_iff_toNat_le.mpr positive
  have bound := number.toNat_lt
  rw [UInt64.toNat_sub_of_le _ _ one, toNat_one, toNat_ofNat',
    Nat.mod_eq_of_lt (by omega)]

theorem ofNat_toNat_succ (number : UInt64) : UInt64.ofNat (number.toNat + 1) = number + 1 := by
  rw [ofNat_add, UInt64.ofNat_toNat]
  rfl

theorem toNat_ne {one other : UInt64} (differ : one ≠ other) : one.toNat ≠ other.toNat :=
  fun same => differ (UInt64.toNat_inj.mp same)

section

variable {property : UInt64 → Prop} {fromBlock remoteTip first last : UInt64}

theorem taggedRun_of_maximalRun
    (run : MaximalRun (fun number => fromBlock.toNat ≤ number ∧ number ≤ remoteTip.toNat ∧
      property (UInt64.ofNat number)) first.toNat last.toNat) :
    TaggedRun property fromBlock remoteTip (first, last) := by
  have atFirst := run.inside first.toNat (Nat.le_refl _) run.ordered
  have atLast := run.inside last.toNat run.ordered (Nat.le_refl _)
  refine ⟨le_iff_toNat_le.mpr atFirst.1, le_iff_toNat_le.mpr run.ordered,
    le_iff_toNat_le.mpr atLast.2.1, fun number above below => ?_, ?_, ?_⟩
  · have holds := run.inside number.toNat (le_iff_toNat_le.mp above)
      (le_iff_toNat_le.mp below)
    rw [UInt64.ofNat_toNat] at holds
    exact holds.2.2
  · by_cases same : first = fromBlock
    · exact .inl same
    · have different := toNat_ne same
      have outside := run.before.resolve_left (by omega)
      rw [ofNat_toNat_pred (by omega)] at outside
      exact .inr fun holds => outside ⟨by omega, by omega, holds⟩
  · by_cases same : last = remoteTip
    · exact .inl same
    · have different := toNat_ne same
      have outside := run.after
      rw [ofNat_toNat_succ] at outside
      exact .inr fun holds => outside ⟨by omega, by omega, holds⟩

theorem maximalRun_of_taggedRun (room : remoteTip.toNat + 1 < 2 ^ 64)
    (run : TaggedRun property fromBlock remoteTip (first, last)) :
    MaximalRun (fun number => fromBlock.toNat ≤ number ∧ number ≤ remoteTip.toNat ∧
      property (UInt64.ofNat number)) first.toNat last.toNat := by
  have lower := le_iff_toNat_le.mp run.lower
  have ordered := le_iff_toNat_le.mp run.ordered
  have upper := le_iff_toNat_le.mp run.upper
  dsimp only at lower ordered upper
  refine ⟨ordered, fun number above below => ⟨by omega, by omega, run.inside _ ?_ ?_⟩, ?_, ?_⟩
  · rw [le_iff_toNat_le, toNat_ofNat', Nat.mod_eq_of_lt (by omega)]
    exact above
  · rw [le_iff_toNat_le, toNat_ofNat', Nat.mod_eq_of_lt (by omega)]
    exact below
  · rcases Nat.eq_zero_or_pos first.toNat with zero | positive
    · exact .inl zero
    · right
      rintro ⟨inRange, -, holds⟩
      rw [ofNat_toNat_pred positive] at holds
      rcases run.before with same | absent
      · have equal := congrArg UInt64.toNat same
        dsimp only at equal
        omega
      · exact absent holds
  · rintro ⟨-, inRange, holds⟩
    rw [ofNat_toNat_succ] at holds
    rcases run.after with same | absent
    · have equal := congrArg UInt64.toNat same
      dsimp only at equal
      omega
    · exact absent holds

end

theorem tagsRuns_of_listsRuns {property : UInt64 → Prop} {fromBlock remoteTip : UInt64}
    (room : remoteTip.toNat + 1 < 2 ^ 64) {ranges : List (UInt64 × UInt64)}
    (lists : ListsRuns (fun number => fromBlock.toNat ≤ number ∧ number ≤ remoteTip.toNat ∧
      property (UInt64.ofNat number)) (ranges.map natRange)) :
    TagsRuns property fromBlock remoteTip ranges where
  exact := by
    intro range
    rw [← Iff.intro taggedRun_of_maximalRun (maximalRun_of_taggedRun room),
      ← mem_map_of_injective natRange_injective]
    exact lists.all (natRange range)
  apart := pairwise_map.mp lists.apart

/-- A scan of a whole range from its first number tags the wanted ones. -/
theorem DataScan.tagsRuns (store : BlockStore) {needs : ZKBlock → Bool}
    (visible : ∀ block, needs (configToFastsyncBlock block) = needs block)
    {fromBlock remoteTip : UInt64} (ordered : fromBlock ≤ remoteTip)
    (room : remoteTip.toNat + 1 < 2 ^ 64) :
    TagsRuns (fun number => (store.blocks number).all needs = true) fromBlock remoteTip
      (((store.positions fromBlock remoteTip).foldl (DataScan.step needs)
        { cursor := fromBlock }).tag remoteTip) := by
  have order := le_iff_toNat_le.mp ordered
  have whole := (UpTo.start store needs fromBlock remoteTip).positions visible room
    (remoteTip.toNat + 1 - fromBlock.toNat) (by omega)
  exact tagsRuns_of_listsRuns room (whole.listsRuns room)

/-- A block that is absent, or incomplete as `blockNeedsDataSync` has it. -/
def Incomplete (store : BlockStore) (number : UInt64) : Prop :=
  store.blocks number = none ∨
    ∃ block, store.blocks number = some block ∧ blockNeedsDataSync block = true

section

variable (store : BlockStore) {env : ScanCalls} (answers : env.Answers) {batchsize : Int64}
  (positive : 1 ≤ batchsize) {fromBlock remoteTip : UInt64} (ordered : fromBlock ≤ remoteTip)
  (room : remoteTip.toNat + batchsize.toUInt64.toNat < 2 ^ 64)
  {result : Option (List (UInt64 × UInt64))}

include answers positive ordered room

/-- What is made of the accumulator of a loop over the positions. -/
theorem scanned_iff {σ : Type} {step : σ → Option ZKBlock → σ} {acc : σ}
    {tag : σ → List (UInt64 × UInt64)} :
    (∃ scan calls, Returns (batchRound store.blocks env fun acc batch => batch.foldl step acc)
        { iter := newBlockIterator fromBlock remoteTip batchsize, acc } (scan, calls) ∧
      result = scan.map tag) ↔
      result = some (tag ((store.positions fromBlock remoteTip).foldl step acc)) := by
  obtain ⟨least, -⟩ := toNat_batchsize positive
  have upper := le_iff_toNat_le.mp (lastWindow_spec least ordered).lower
  have fits : remoteTip.toNat + 1 < 2 ^ 64 := by omega
  have whole : ¬ 2 ^ 64 < (lastWindow fromBlock remoteTip batchsize.toUInt64).toNat +
      batchsize.toUInt64.toNat := by omega
  rw [← store.flatten_batches least ordered, foldl_flatten]
  simp only [returns_batchLoop_iff answers positive ordered, whole, if_false, fits, true_and,
    Prod.mk.injEq]
  constructor
  · rintro ⟨_, _, ⟨rfl, rfl⟩, rfl⟩
    rfl
  · rintro rfl
    exact ⟨_, _, ⟨rfl, rfl⟩, rfl⟩

end

/-- Over any range whose last window stays below the largest number both functions
return, the first with the longest runs of numbers without a block, the second with
those of numbers without a block or with an incomplete one. -/
theorem missing_tags_are_runs (store : BlockStore) {env : ScanCalls} (answers : env.Answers)
    {batchsize : Int64} (positive : 1 ≤ batchsize) {fromBlock remoteTip : UInt64}
    (ordered : fromBlock ≤ remoteTip)
    (room : remoteTip.toNat + batchsize.toUInt64.toNat < 2 ^ 64) :
    (∃ ranges, (∀ result, BuildMissingTag store env batchsize fromBlock remoteTip result ↔
        result = some ranges) ∧
      TagsRuns (fun number => store.blocks number = none) fromBlock remoteTip ranges) ∧
    ∃ ranges, (∀ result, BuildDataMissingTag store env batchsize fromBlock remoteTip result ↔
        result = some ranges) ∧
      TagsRuns (Incomplete store) fromBlock remoteTip ranges := by
  obtain ⟨least, -⟩ := toNat_batchsize positive
  have next : remoteTip.toNat + 1 < 2 ^ 64 := by omega
  constructor
  · refine ⟨_, fun result => scanned_iff store answers positive ordered room, ?_⟩
    have tags := @DataScan.tagsRuns store (fun _ => false) (fun _ => rfl) _ _ ordered next
    rw [MissingScan.toData_tag, MissingScan.toData_foldl]
    simp only [Option.all_false, Option.isNone_iff_eq_none] at tags
    exact tags
  · refine ⟨_, fun result => scanned_iff store answers positive ordered room, ?_⟩
    have tags := @DataScan.tagsRuns store blockNeedsDataSync (fun _ => rfl) _ _ ordered next
    have same : (fun number => (store.blocks number).all blockNeedsDataSync = true) =
        Incomplete store := by
      funext number
      rw [Incomplete]
      cases store.blocks number <;> simp
    rwa [same] at tags

/-- The positions without a block leave the scan as it is. -/
theorem DataScan.foldl_positions (store : BlockStore) {needs : ZKBlock → Bool}
    (visible : ∀ block, needs (configToFastsyncBlock block) = needs block) (first last : UInt64)
    (scan : DataScan) :
    (store.positions first last).foldl (DataScan.step needs) scan =
      (((blockNumbers first last).filterMap store.blocks).map some).foldl
        (DataScan.step needs) scan := by
  rw [BlockStore.positions]
  induction blockNumbers first last generalizing scan with
  | nil => rfl
  | cons number rest ih =>
    rw [map_cons, foldl_cons, ih]
    cases found : store.blocks number with
    | none =>
      rw [filterMap_cons_none found]
      rfl
    | some block =>
      have same : scan.step needs (some (configToFastsyncBlock block)) =
          scan.step needs (some block) := by
        simp only [step, visible]
        rfl
      rw [filterMap_cons_some found, map_cons, foldl_cons, Option.map_some, same]

/-- The function a node's runs use gives what the loop over the batches returns. -/
theorem buildDataMissingTag_iff {node : Node} (keyed : Keyed node.db.blocks) {env : ScanCalls}
    (answers : env.Answers) {sync : SyncEnv} (reads : sync.scanOk = true)
    {fromBlock remoteTip : UInt64} (ordered : fromBlock ≤ remoteTip)
    (room : remoteTip.toNat + 500 < 2 ^ 64) {result : Option (List (UInt64 × UInt64))} :
    BuildDataMissingTag ⟨node.db.blocks, keyed⟩ env 500 fromBlock remoteTip result ↔
      result = buildDataMissingTag sync node.db fromBlock remoteTip := by
  have ends : scanEnds fromBlock remoteTip = true := by
    have order := le_iff_toNat_le.mp ordered
    rw [scanEnds_eq_true_iff ordered, WindowFits]
    omega
  have fits : remoteTip.toNat + (500 : Int64).toUInt64.toNat < 2 ^ 64 := room
  rw [BuildDataMissingTag, scanned_iff ⟨node.db.blocks, keyed⟩ answers (by decide) ordered fits,
    DataScan.foldl_positions _ fun _ => rfl, buildDataMissingTag, scan, reads, ends]
  rfl

/-- Block 1 of four without data: it separates the absent numbers, and joins them in the
second tag. -/
example : ((oneBlock.positions 0 3).foldl MissingScan.step { cursor := 0 }).tag 3 =
      [(0, 0), (2, 3)] ∧
    ((oneBlock.positions 0 3).foldl (DataScan.step blockNeedsDataSync) { cursor := 0 }).tag 3 =
      [(0, 3)] := by
  decide

theorem one_block_splits_the_missing :
    (∃ ranges, (∀ result, BuildMissingTag oneBlock {} 2 0 3 result ↔ result = some ranges) ∧
      TagsRuns (fun number => oneBlock.blocks number = none) 0 3 ranges) ∧
    ∃ ranges, (∀ result, BuildDataMissingTag oneBlock {} 2 0 3 result ↔ result = some ranges) ∧
      TagsRuns (Incomplete oneBlock) 0 3 ranges :=
  missing_tags_are_runs oneBlock ⟨fun _ => rfl, fun _ => rfl⟩ (by decide) (by decide) (by decide)

end Jmdn.FastsyncV2
