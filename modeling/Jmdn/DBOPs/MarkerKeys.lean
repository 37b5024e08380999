import Jmdn.DBOPs.Markers

/-!
# Marker keys

The two readers of the `tx_processed:` markers, over the stored keys and bytes:
`IsMarkerApplied` of `DB_OPs/tx_markers.go` reads one key, and
`FilterProcessedTxMarkers` of `DB_OPs/sync_anchor.go` reads both databases in
batches and merges the answers into maps.
-/

namespace Jmdn.DBOPs

open List

variable {values : String → Option (List UInt8)} {txHashes keys : List String}

/-- The bytes stored under each key of the two databases. -/
structure MarkerStores where
  accountsdb : String → Option (List UInt8)
  defaultdb : String → Option (List UInt8)

/-- `TxProcessedKey`. -/
def txProcessedKey (txHash : String) : String :=
  "tx_processed:" ++ txHash

/-- `markerValueApplied` on stored bytes.  A character stands for each byte:
`ParseInt` rejects every byte outside ASCII. -/
def rawApplied (raw : List UInt8) : Bool :=
  markerValueApplied (String.ofList (raw.map fun byte => Char.ofNat byte.toNat))

/-- `IsMarkerApplied` when no read fails. -/
def MarkerStores.isMarkerApplied (stores : MarkerStores) (key : String) : Bool :=
  match stores.accountsdb key with
  | some raw => rawApplied raw
  | none => (stores.defaultdb key).any rawApplied

/-- `keyToHash`: the hash that each requested key was built from. -/
def keyToHash (txHashes : List String) : String → Option String :=
  txHashes.foldl (fun built hash => Function.update built (txProcessedKey hash) (some hash))
    fun _ => none

/-- One entry of an answer goes into the map under its hash. -/
def recordEntry (hashOf : String → Option String) (out : String → Option (List UInt8))
    (entry : String × List UInt8) : String → Option (List UInt8) :=
  match hashOf entry.1 with
  | some hash => Function.update out hash (some entry.2)
  | none => out

/-- `collectMarkerValues` with the map it fills, empty at first. -/
def collectRaw (values : String → Option (List UInt8)) (hashOf : String → Option String)
    (keys : List String) : String → Option (List UInt8) :=
  (collectMarkerValues values keys).foldl (recordEntry hashOf) fun _ => none

/-- `FilterProcessedTxMarkers` when no read fails: the hashes set in the map. -/
def MarkerStores.filterProcessedTxMarkers (stores : MarkerStores) (txHashes : List String) :
    String → Bool :=
  let keys := txHashes.map txProcessedKey
  let hashOf := keyToHash txHashes
  let acctValues := collectRaw stores.accountsdb hashOf keys
  let legacyKeys := keys.filter fun key => (acctValues ((hashOf key).getD "")).isNone
  let mainValues := collectRaw stores.defaultdb hashOf legacyKeys
  fun hash => (acctValues hash).any rawApplied || (mainValues hash).any rawApplied

@[simp]
theorem txProcessedKey_inj {first second : String} :
    txProcessedKey first = txProcessedKey second ↔ first = second := by
  rw [txProcessedKey, txProcessedKey, ← String.toList_inj, String.toList_append,
    String.toList_append, append_cancel_left_eq, String.toList_inj]

theorem keyToHash_txProcessedKey {hash : String} (requested : hash ∈ txHashes) :
    keyToHash txHashes (txProcessedKey hash) = some hash := by
  have built : ∀ start : String → Option String,
      txHashes.foldl (fun built hash => Function.update built (txProcessedKey hash) (some hash))
        start (txProcessedKey hash) =
      if hash ∈ txHashes then some hash else start (txProcessedKey hash) := by
    clear requested
    induction txHashes with
    | nil => simp
    | cons first rest ih =>
      intro start
      rw [foldl_cons, ih]
      by_cases same : hash = first <;> simp [same]
  rw [keyToHash, built, if_pos requested]

/-- The map has the stored bytes of the requested hashes, repeated or not. -/
theorem collectRaw_apply (built : keys ⊆ txHashes.map txProcessedKey) (hash : String) :
    collectRaw values (keyToHash txHashes) keys hash =
      if txProcessedKey hash ∈ keys then values (txProcessedKey hash) else none := by
  have recorded : ∀ (entries : List (String × List UInt8)) (out : String → Option (List UInt8)),
      (∀ entry ∈ entries, entry ∈ collectMarkerValues values keys) →
      entries.foldl (recordEntry (keyToHash txHashes)) out hash =
        if txProcessedKey hash ∈ entries.map Prod.fst then values (txProcessedKey hash)
        else out hash := by
    intro entries
    induction entries with
    | nil => simp
    | cons entry rest ih =>
      intro out found
      obtain ⟨requested, stored⟩ := mem_collectMarkerValues.mp (found entry mem_cons_self)
      obtain ⟨owner, listed, key⟩ := mem_map.mp (built requested)
      rw [foldl_cons, ih _ fun later mem => found later (mem_cons_of_mem _ mem)]
      rw [recordEntry, map_cons, ← key, keyToHash_txProcessedKey listed]
      by_cases same : hash = owner
      · subst same
        simp [← stored, key]
      · simp only [mem_cons, txProcessedKey_inj, same, false_or, ne_eq, not_false_eq_true,
          Function.update_of_ne]
  rw [collectRaw, recorded _ _ fun _ mem => mem]
  cases stored : values (txProcessedKey hash) <;> simp [mem_collectMarkerValues, stored]

/-- The batch filter of the reconciliation and the single check of the live
execution agree on every requested hash. -/
theorem filterProcessedTxMarkers_agrees (stores : MarkerStores) (txHashes : List String)
    (hash : String) :
    stores.filterProcessedTxMarkers txHashes hash = true ↔
      hash ∈ txHashes ∧ stores.isMarkerApplied (txProcessedKey hash) = true := by
  simp only [MarkerStores.filterProcessedTxMarkers, MarkerStores.isMarkerApplied,
    collectRaw_apply filter_sublist.subset, collectRaw_apply (List.Subset.refl _)]
  by_cases requested : hash ∈ txHashes
  · cases stored : stores.accountsdb (txProcessedKey hash) <;>
      simp [requested, keyToHash_txProcessedKey, stored]
  · simp [requested]

end Jmdn.DBOPs
