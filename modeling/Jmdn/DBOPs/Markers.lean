import Jmdn.Config.Types
import Jmdn.Go.Decimal

/-!
# Processed markers

The value-aware marker layer of `DB_OPs/tx_markers.go`, and the batch filter of
`DB_OPs/sync_anchor.go`.  A marker is decimal text under a `tx_processed:` or
`block_processed:` key; `-1` is the revocation left by a rollback, and text that
does not parse counts as applied.  The copy in accountsdb decides when it
exists, the legacy copy in defaultdb otherwise.
-/

namespace Jmdn.DBOPs

open Config Go List

variable {α κ ν : Type} {size : Nat} {values : κ → Option ν} {hashes : List Hash} {keys : List κ}
  {entry : κ × ν}

/-- The value a rollback writes over the markers it takes back. -/
def markerRevoked : Int := -1

/-- `markerValueApplied`. -/
def markerValueApplied (raw : String) : Bool :=
  match parseInt raw with
  | none => true
  | some value => value ≠ markerRevoked

/-- One kind of marker in the two databases. -/
structure Markers where
  accountsdb : Hash → Option String := fun _ => none
  defaultdb : Hash → Option String := fun _ => none

variable {markers : Markers}

namespace Markers

/-- `IsMarkerApplied` when both reads succeed. -/
def isApplied (markers : Markers) (hash : Hash) : Bool :=
  match markers.accountsdb hash with
  | some raw => markerValueApplied raw
  | none => (markers.defaultdb hash).elim false markerValueApplied

/-- Write a marker; all writers write to accountsdb. -/
def write (markers : Markers) (hash : Hash) (value : Int) : Markers :=
  { markers with accountsdb := Function.update markers.accountsdb hash (some (formatInt value)) }

/-- Write one value under several keys. -/
def writeAll (markers : Markers) (hashes : List Hash) (value : Int) : Markers :=
  hashes.foldl (fun written hash => written.write hash value) markers

/-- `RevokeTxProcessedMarkers`. -/
def revoke (markers : Markers) (hashes : List Hash) : Markers :=
  markers.writeAll hashes markerRevoked

end Markers

/-- A marker written with a time is applied: the clock shows a time after 1970. -/
@[simp]
theorem markerValueApplied_time (time : Nat) :
    markerValueApplied (formatInt (time : Int)) = true := by
  unfold markerValueApplied
  split
  · rfl
  next value parsed =>
  have different : value ≠ markerRevoked := by
    rintro rfl
    exact parseInt_formatInt_ne (n := (time : Int)) (m := -1) (by omega) parsed
  simpa using different

@[simp]
theorem markerValueApplied_revoked : markerValueApplied (formatInt markerRevoked) = false := by
  simp [markerValueApplied, markerRevoked]

namespace Markers

theorem isApplied_write (markers : Markers) (written : Hash) (value : Int) (hash : Hash) :
    (markers.write written value).isApplied hash =
      if hash = written then markerValueApplied (formatInt value) else markers.isApplied hash := by
  by_cases same : hash = written
  · subst same
    simp [write, isApplied]
  · simp [write, isApplied, same]

theorem isApplied_foldl_write (value : Hash → Int) (written : List Hash) (markers : Markers)
    (hash : Hash) :
    (written.foldl (fun current hash => current.write hash (value hash)) markers).isApplied hash =
      if hash ∈ written then markerValueApplied (formatInt (value hash))
      else markers.isApplied hash := by
  induction written generalizing markers with
  | nil => simp
  | cons first rest ih =>
    rw [foldl_cons, ih, isApplied_write]
    by_cases later : hash ∈ rest <;> by_cases same : hash = first <;> simp [later, same]

theorem isApplied_writeAll (markers : Markers) (written : List Hash) (value : Int) (hash : Hash) :
    (markers.writeAll written value).isApplied hash =
      if hash ∈ written then markerValueApplied (formatInt value) else markers.isApplied hash :=
  isApplied_foldl_write (fun _ => value) written markers hash

theorem isApplied_revoke (markers : Markers) (revoked : List Hash) (hash : Hash) :
    (markers.revoke revoked).isApplied hash =
      (decide (hash ∉ revoked) && markers.isApplied hash) := by
  rw [revoke, isApplied_writeAll]
  by_cases mem : hash ∈ revoked <;> simp [mem]

end Markers

/-! ## The batch filter -/

/-- `GetAll`: the entries found among the requested keys. -/
def getAll (values : κ → Option ν) (keys : List κ) : List (κ × ν) :=
  keys.filterMap fun key => (values key).map fun raw => (key, raw)

/-- The slices `keys[i:end]` of a chunk loop. -/
def chunks {α : Type} (size : Nat) (keys : List α) : List (List α) :=
  (List.range ((keys.length + size - 1) / size)).map fun i => (keys.drop (i * size)).take size

/-- `collectMarkerValues` with the source's chunk size. -/
def collectMarkerValues (values : κ → Option ν) (keys : List κ) : List (κ × ν) :=
  (chunks 1000 keys).flatMap (getAll values)

/-- `FilterProcessedTxMarkers` when no read fails: the applied ones among the
given hashes, as the list of keys set in the returned map. -/
def filterProcessedTxMarkers (markers : Markers) (hashes : List Hash) : List Hash :=
  let acctValues := collectMarkerValues markers.accountsdb hashes
  let processed := (acctValues.filter fun entry => markerValueApplied entry.2).map Prod.fst
  let legacyKeys := hashes.filter fun hash => hash ∉ acctValues.map Prod.fst
  let mainValues := collectMarkerValues markers.defaultdb legacyKeys
  processed ++ (mainValues.filter fun entry => markerValueApplied entry.2).map Prod.fst

theorem mem_getAll :
    entry ∈ getAll values keys ↔ entry.1 ∈ keys ∧ values entry.1 = some entry.2 := by
  simp only [getAll, mem_filterMap, Option.map_eq_some_iff]
  constructor
  · rintro ⟨key, mem, raw, stored, rfl⟩
    exact ⟨mem, stored⟩
  · rintro ⟨mem, stored⟩
    exact ⟨entry.1, mem, entry.2, stored, rfl⟩

theorem mem_chunks (pos : 0 < size) {keys : List α} {key : α} :
    (∃ chunk ∈ chunks size keys, key ∈ chunk) ↔ key ∈ keys := by
  simp only [chunks, mem_map, mem_range]
  constructor
  · rintro ⟨chunk, ⟨i, _, rfl⟩, mem⟩
    exact mem_of_mem_drop (mem_of_mem_take mem)
  · intro mem
    obtain ⟨position, bound, found⟩ := mem_iff_getElem.mp mem
    have slice : position / size < (keys.length + size - 1) / size := by
      rw [Nat.div_lt_iff_lt_mul pos]
      have covered := Nat.div_add_mod (keys.length + size - 1) size
      have remainder := Nat.mod_lt (keys.length + size - 1) pos
      have product : (keys.length + size - 1) / size * size =
          size * ((keys.length + size - 1) / size) := Nat.mul_comm _ _
      omega
    refine ⟨(keys.drop (position / size * size)).take size, ⟨position / size, slice, rfl⟩, ?_⟩
    have offset : position / size * size + position % size = position := Nat.div_add_mod' _ _
    rw [mem_iff_getElem]
    refine ⟨position % size, ?_, ?_⟩
    · have below := Nat.mod_lt position pos
      simp only [length_take, length_drop]
      omega
    · rw [getElem_take, getElem_drop]
      simp only [offset, found]

theorem flatten_slices (size count : Nat) (list : List α) :
    ((List.range count).map fun i => (list.drop (i * size)).take size).flatten =
      list.take (count * size) := by
  induction count with
  | zero => rw [range_zero, Nat.zero_mul, take_zero]; rfl
  | succ count ih =>
    rw [range_succ, map_append, flatten_append, ih, Nat.succ_mul, take_add]
    simp

/-- Cutting a list into slices loses and reorders nothing. -/
theorem flatten_chunks (pos : 0 < size) (list : List α) :
    (chunks size list).flatten = list := by
  rw [chunks, flatten_slices]
  apply take_of_length_le
  have covered := Nat.div_add_mod (list.length + size - 1) size
  have remainder := Nat.mod_lt (list.length + size - 1) pos
  have product : (list.length + size - 1) / size * size =
      size * ((list.length + size - 1) / size) := Nat.mul_comm _ _
  omega

theorem chunks_nil (pos : 0 < size) :
    chunks size ([] : List α) = [] := by
  have none : (0 + size - 1) / size = 0 := Nat.div_eq_of_lt (by omega)
  rw [chunks, length_nil, none]
  rfl

theorem mem_collectMarkerValues :
    entry ∈ collectMarkerValues values keys ↔
      entry.1 ∈ keys ∧ values entry.1 = some entry.2 := by
  simp only [collectMarkerValues, mem_flatMap, mem_getAll]
  rw [← @mem_chunks κ 1000 (by decide)]
  constructor
  · rintro ⟨chunk, mem, found, stored⟩
    exact ⟨⟨chunk, mem, found⟩, stored⟩
  · rintro ⟨⟨chunk, mem, found⟩, stored⟩
    exact ⟨chunk, mem, found, stored⟩

/-- The batch filter answers, for each requested hash, what the single read
answers. -/
theorem mem_filterProcessedTxMarkers {hash : Hash} :
    hash ∈ filterProcessedTxMarkers markers hashes ↔
      hash ∈ hashes ∧ markers.isApplied hash = true := by
  have decided : (hash ∈ (collectMarkerValues markers.accountsdb hashes).map Prod.fst) ↔
      hash ∈ hashes ∧ ∃ raw, markers.accountsdb hash = some raw := by
    simp only [mem_map, Prod.exists, mem_collectMarkerValues]
    constructor
    · rintro ⟨key, raw, ⟨mem, stored⟩, rfl⟩
      exact ⟨mem, raw, stored⟩
    · rintro ⟨mem, raw, stored⟩
      exact ⟨hash, raw, ⟨mem, stored⟩, rfl⟩
  simp only [filterProcessedTxMarkers, mem_append, mem_map, mem_filter,
    Prod.exists, mem_collectMarkerValues, Markers.isApplied]
  cases accounts : markers.accountsdb hash with
  | none =>
    cases legacy : markers.defaultdb hash with
    | none => simp [accounts, legacy]
    | some raw => simp [decided, accounts, legacy]
  | some raw => simp [decided, accounts]

theorem filterProcessedTxMarkers_eq_nil (unmarked : ∀ hash ∈ hashes, markers.isApplied hash = false) :
    filterProcessedTxMarkers markers hashes = [] := by
  rw [eq_nil_iff_forall_not_mem]
  intro hash found
  obtain ⟨listed, applied⟩ := mem_filterProcessedTxMarkers.mp found
  rw [unmarked hash listed] at applied
  cases applied

end Jmdn.DBOPs
