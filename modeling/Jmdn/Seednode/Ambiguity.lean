import Jmdn.Seednode.Committee
import Jmdn.Text.Join
import Mathlib.Data.List.Induction

/-!
# What a signature pins down

The signed text joins its fields with `|`, `:` and `,`, which the fields may
contain.  The epoch can be read back from it; the entries, in general, cannot:
two snapshots of different committees may have one signed text, and then one
signature serves both.
-/

namespace Jmdn.Seednode

open Go List Text

variable {entries entries' : List CommitteeEntry} {entry : CommitteeEntry}
  {seed peerID blsPub seed' previous text : String} {snap : CommitteeSnapshot} {epoch : UInt64}

section

variable (env : Contracts)

/-- A text that some key field normalizes to. -/
def IsNormal (text : String) : Prop :=
  ∃ raw, normalize env raw = text

/-- A text that reads as the rest of a list of entries up to the last peer id,
the peer ids not descending. -/
inductive ReadsFrom : String → String → Prop
  | last {previous peerID : String} : previous ≤ peerID → ReadsFrom previous peerID
  | entry {previous peerID blsPub rest : String} : previous ≤ peerID → IsNormal env blsPub →
      ReadsFrom peerID rest → ReadsFrom previous (peerID ++ ":" ++ blsPub ++ "," ++ rest)

/-- A seed and one entry whose joined text can be cut in no other way. -/
structure Unmistakable (seed peerID blsPub : String) : Prop where
  seedBar : '|' ∉ seed.toList
  peerBar : '|' ∉ peerID.toList
  pubColon : ∀ left right, blsPub = left ++ ":" ++ right → ¬ IsNormal env right
  peerColon : ∀ left right, peerID = left ++ ":" ++ right → ¬ IsNormal env (right ++ ":" ++ blsPub)
  peerList : ∀ first pub rest, peerID = first ++ ":" ++ pub ++ "," ++ rest → IsNormal env pub →
    ¬ ReadsFrom env first rest

end

/-- An entry as a pair of texts. -/
def CommitteeEntry.pair (entry : CommitteeEntry) : List Char × List Char :=
  (entry.peerID.toList, entry.blsPub.toList)

/-- The joined text of some entries. -/
def entriesText (entries : List CommitteeEntry) : List Char :=
  joined ':' ',' (entries.map CommitteeEntry.pair)

theorem entriesText_single (entry : CommitteeEntry) :
    entriesText [entry] = entry.peerID.toList ++ ':' :: entry.blsPub.toList := by
  simp [entriesText, joined, pairText, CommitteeEntry.pair]

section

variable {env : Contracts}

theorem canonicalCommitteeBytes_toList (epoch : UInt64) (seed : String)
    (entries : List CommitteeEntry) :
    (canonicalCommitteeBytes env epoch seed entries).toList =
      (committeeSnapshotVersion.toList ++ ['|']) ++ ((toString epoch.toNat).toList ++
        '|' :: (seed.toList ++ '|' :: entriesText (sortedEntries env entries))) := by
  simp [canonicalCommitteeBytes, entriesText, joined, String.toList_intercalate, pairText,
    CommitteeEntry.pair, Function.comp_def]

/-- One signed text has one epoch, and one text of seed and entries. -/
theorem of_canonicalCommitteeBytes_eq {epoch' : UInt64}
    (same : canonicalCommitteeBytes env epoch seed entries =
      canonicalCommitteeBytes env epoch' seed' entries') :
    epoch = epoch' ∧ seed.toList ++ '|' :: entriesText (sortedEntries env entries) =
      seed'.toList ++ '|' :: entriesText (sortedEntries env entries') := by
  have lists := congrArg String.toList same
  rw [canonicalCommitteeBytes_toList, canonicalCommitteeBytes_toList, append_right_inj] at lists
  obtain ⟨digits, texts⟩ := split_eq_of_not_mem lists
    (not_mem_toString rfl _) (not_mem_toString rfl _)
  exact ⟨UInt64.toNat_inj.mp (toString_injective (String.toList_inj.mp digits)), texts⟩

theorem canonicalCommitteeBytes_congr
    (same : seed.toList ++ '|' :: entriesText (sortedEntries env entries) =
      seed'.toList ++ '|' :: entriesText (sortedEntries env entries')) :
    canonicalCommitteeBytes env epoch seed entries =
      canonicalCommitteeBytes env epoch seed' entries' := by
  apply String.toList_inj.mp
  rw [canonicalCommitteeBytes_toList, canonicalCommitteeBytes_toList, same]

end

/-! ## One way to read -/

/-- Entries as the signed text lists them: in the order of their peer ids, with
normalized keys. -/
structure Listed (env : Contracts) (entries : List CommitteeEntry) : Prop where
  sorted : entries.Pairwise fun first second => first.peerID ≤ second.peerID
  normal : ∀ entry ∈ entries, IsNormal env entry.blsPub

section

variable {env : Contracts}

variable {rest : List CommitteeEntry} {first : CommitteeEntry}

theorem sortedEntries_perm (env : Contracts) (entries : List CommitteeEntry) :
    (sortedEntries env entries).Perm
      (entries.map fun entry => { entry with blsPub := normalize env entry.blsPub }) :=
  env.slice.perm _

theorem sortedEntries_ne_nil (nonempty : entries ≠ []) :
    sortedEntries env entries ≠ [] :=
  env.slice.sort_ne_nil (mt map_eq_nil_iff.mp nonempty)

theorem listed_sortedEntries (env : Contracts) (entries : List CommitteeEntry) :
    Listed env (sortedEntries env entries) where
  sorted := env.slice.sorted _
  normal entry mem := by
    obtain ⟨original, _, rfl⟩ := mem_map.mp ((sortedEntries_perm env entries).mem_iff.mp mem)
    exact ⟨original.blsPub, rfl⟩

theorem Listed.tail (listed : Listed env (first :: rest)) : Listed env rest where
  sorted := listed.sorted.tail
  normal entry mem := listed.normal entry (mem_cons_of_mem _ mem)

/-- The text before the last key. -/
def frontText (first : CommitteeEntry) (rest : List CommitteeEntry) : List Char :=
  front ':' ',' first.pair (rest.map CommitteeEntry.pair)

/-- The text of the last key. -/
def lastPub (first : CommitteeEntry) (rest : List CommitteeEntry) : List Char :=
  lastValue first.pair (rest.map CommitteeEntry.pair)

theorem frontText_cons (first next : CommitteeEntry) (rest : List CommitteeEntry) :
    frontText first (next :: rest) =
      first.peerID.toList ++ ':' :: (first.blsPub.toList ++ ',' :: frontText next rest) := by
  simp [frontText, front, pairText, CommitteeEntry.pair]

theorem lastPub_cons (first next : CommitteeEntry) (rest : List CommitteeEntry) :
    lastPub first (next :: rest) = lastPub next rest :=
  rfl

theorem entriesText_cons (first : CommitteeEntry) (rest : List CommitteeEntry) :
    entriesText (first :: rest) = frontText first rest ++ ':' :: lastPub first rest :=
  joined_eq_front ':' ',' first.pair (rest.map CommitteeEntry.pair)

theorem Listed.lastPub_normal (listed : Listed env (first :: rest)) :
    IsNormal env (String.ofList (lastPub first rest)) := by
  obtain ⟨pair, mem, value⟩ := lastValue_mem first.pair (rest.map CommitteeEntry.pair)
  rw [← map_cons] at mem
  obtain ⟨entry, inList, rfl⟩ := mem_map.mp mem
  have text : String.ofList (lastPub first rest) = entry.blsPub := by
    rw [lastPub, ← value, CommitteeEntry.pair, String.ofList_toList]
  rw [text]
  exact listed.normal entry inList

theorem eq_of_colon {left right : List Char} (split : text.toList = left ++ ':' :: right) :
    text = String.ofList left ++ ":" ++ String.ofList right := by
  apply String.toList_inj.mp
  simp [split]

/-- Listed entries read as a list up to the last peer id. -/
theorem Listed.readsFrom {next : CommitteeEntry} (listed : Listed env (next :: rest))
    (above : previous ≤ next.peerID) :
    ReadsFrom env previous (String.ofList (frontText next rest)) := by
  induction rest generalizing next previous with
  | nil => simpa [frontText, front, CommitteeEntry.pair] using ReadsFrom.last above
  | cons following rest ih =>
    have order := (pairwise_cons.mp listed.sorted).1 following mem_cons_self
    have text : String.ofList (frontText next (following :: rest)) =
        next.peerID ++ ":" ++ next.blsPub ++ "," ++
          String.ofList (frontText following rest) := by
      apply String.toList_inj.mp
      simp [frontText_cons]
    rw [text]
    exact ReadsFrom.entry above (listed.normal next mem_cons_self) (ih listed.tail order)

/-- An unmistakable entry is the only list with its text. -/
theorem Unmistakable.unique (single : Unmistakable env seed peerID blsPub)
    (listed : Listed env (first :: rest))
    (same : seed.toList ++ '|' :: (peerID.toList ++ ':' :: blsPub.toList) =
      seed'.toList ++ '|' :: entriesText (first :: rest)) :
    first :: rest = [{ peerID, blsPub }] := by
  have normal := listed.lastPub_normal
  rw [entriesText_cons] at same
  -- a key that starts inside the one key
  have inside : ∀ {middle}, blsPub.toList = middle ++ ':' :: lastPub first rest → False :=
    fun split => single.pubColon _ _ (eq_of_colon split) normal
  rcases split_cases same with ⟨-, entries⟩ | ⟨middle, -, entries⟩ | ⟨middle, seeds, -⟩
  · rcases split_cases entries with ⟨peers, keys⟩ | ⟨middle, -, keys⟩ | ⟨middle, peers, keys⟩
    · cases rest with
      | nil =>
        have key : first.blsPub = blsPub := String.toList_inj.mp keys.symm
        have peer : first.peerID = peerID := String.toList_inj.mp peers.symm
        rw [← key, ← peer]
      | cons next rest =>
        have order := (pairwise_cons.mp listed.sorted).1 next mem_cons_self
        refine absurd (listed.tail.readsFrom order) (single.peerList _ first.blsPub _ ?_
          (listed.normal first mem_cons_self))
        apply String.toList_inj.mp
        rw [peers]
        simp [frontText_cons]
    · exact (inside keys).elim
    · refine absurd normal ?_
      have text : String.ofList (lastPub first rest) = String.ofList middle ++ ":" ++ blsPub := by
        apply String.toList_inj.mp
        simp [keys]
      rw [text]
      exact single.peerColon _ _ (eq_of_colon peers)
  · -- the other seed ends inside the entry
    have entry : peerID.toList ++ ':' :: blsPub.toList =
        (middle ++ '|' :: frontText first rest) ++ ':' :: lastPub first rest := by
      rw [entries, append_assoc, cons_append]
    rcases split_cases entry with ⟨peers, -⟩ | ⟨between, -, keys⟩ | ⟨between, peers, -⟩
    · exact absurd (by simp [peers]) single.peerBar
    · exact (inside keys).elim
    · exact absurd (by simp [peers]) single.peerBar
  · exact absurd (by simp [seeds]) single.seedBar

end

/-! ## Other ways to read -/

section

variable {env : Contracts}

/-- A text that reads as the rest of a list is one, up to its last key. -/
theorem ReadsFrom.listed (reads : ReadsFrom env previous text) (normal : IsNormal env blsPub) :
    ∃ next rest, previous ≤ next.peerID ∧ Listed env (next :: rest) ∧
      frontText next rest = text.toList ∧ lastPub next rest = blsPub.toList := by
  induction reads with
  | @last previous peerID above =>
    refine ⟨⟨peerID, blsPub⟩, [], above, ⟨pairwise_singleton _ _, ?_⟩, rfl, rfl⟩
    intro entry mem
    rw [mem_singleton.mp mem]
    exact normal
  | @entry previous peerID pub rest above pubNormal _ ih =>
    obtain ⟨next, others, order, listed, front, last⟩ := ih
    refine ⟨⟨peerID, pub⟩, next :: others, above, ⟨?_, ?_⟩, ?_, last⟩
    · refine pairwise_cons.mpr ⟨fun entry mem => ?_, listed.sorted⟩
      rcases mem_cons.mp mem with rfl | later
      · exact order
      · exact le_trans order ((pairwise_cons.mp listed.sorted).1 entry later)
    · rw [forall_mem_cons]
      exact ⟨pubNormal, listed.normal⟩
    · simp [frontText_cons, front]

/-- Listed entries are what some entries are signed as. -/
theorem Listed.signed (listed : Listed env entries) :
    ∃ raw, sortedEntries env raw = entries ∧
      raw.map CommitteeEntry.peerID = entries.map CommitteeEntry.peerID := by
  have unnormalized : ∃ raw : List CommitteeEntry,
      raw.map (fun entry => { entry with blsPub := normalize env entry.blsPub }) = entries ∧
        raw.map CommitteeEntry.peerID = entries.map CommitteeEntry.peerID := by
    have normal := listed.normal
    clear listed
    induction entries with
    | nil => exact ⟨[], rfl, rfl⟩
    | cons first rest ih =>
      rw [forall_mem_cons] at normal
      obtain ⟨pub, normalized⟩ := normal.1
      obtain ⟨raw, keys, peers⟩ := ih normal.2
      exact ⟨⟨first.peerID, pub⟩ :: raw, by simp [keys, normalized], by simp [peers]⟩
  obtain ⟨raw, keys, peers⟩ := unnormalized
  exact ⟨raw, by rw [sortedEntries, keys, env.slice.fixed entries listed.sorted], peers⟩

theorem verifyCommitteeSnapshot_eq_none_iff {pin : String} :
    verifyCommitteeSnapshot env (some snap) pin = none ↔
      snap.entries ≠ [] ∧
        (normalize env pin = "" ∨ normalize env snap.authorityPubHex = normalize env pin) ∧
        ∃ pub sig, hexDecodeString (trimSpace snap.authorityPubHex) = some pub ∧
          hexDecodeString (trimSpace snap.signature) = some sig ∧
          env.blsVerify pub (canonicalCommitteeBytes env snap.epoch snap.seed snap.entries) sig =
            true := by
  simp only [verifyCommitteeSnapshot, checkSnapshotSignature]
  split
  · next empty => simp [empty]
  next nonempty =>
  split
  · next unpinned => simp [unpinned.1, unpinned.2]
  next pinned =>
  rw [not_and_or, not_not, not_not] at pinned
  rw [and_iff_right nonempty, and_iff_right pinned]
  cases hexDecodeString (trimSpace snap.authorityPubHex) with
  | none => simp
  | some pub =>
    cases hexDecodeString (trimSpace snap.signature) with
    | none => simp
    | some sig => simp

/-- The peers of the map are those of the entries. -/
theorem blsPubByPeer_isSome (env : Contracts) (snap : CommitteeSnapshot) (peerID : String) :
    (blsPubByPeer env snap peerID).isSome ↔ peerID ∈ snap.entries.map CommitteeEntry.peerID := by
  rw [blsPubByPeer]
  induction snap.entries using List.reverseRecOn with
  | nil => simp
  | append_singleton entries last ih =>
    rw [foldl_append, foldl_cons, foldl_nil, map_append, mem_append, ← ih]
    by_cases same : peerID = last.peerID <;> simp [same]

/-- The map of a snapshot that is signed as one entry. -/
theorem blsPubByPeer_of_single (single : sortedEntries env snap.entries = [entry]) :
    blsPubByPeer env snap = Function.update (fun _ => none) entry.peerID (some entry.blsPub) := by
  have perm := sortedEntries_perm env snap.entries
  rw [single] at perm
  obtain ⟨original, one, rfl⟩ := map_eq_singleton_iff.mp (perm_singleton.mp perm.symm)
  rw [blsPubByPeer, one]
  rfl

/-- A snapshot with a peer that another one does not have has another map. -/
theorem blsPubByPeer_ne (snap other : CommitteeSnapshot) (one : snap.entries = [entry])
    (mem : peerID ∈ other.entries.map CommitteeEntry.peerID) (different : peerID ≠ entry.peerID) :
    blsPubByPeer env other ≠ blsPubByPeer env snap := by
  intro same
  rw [← blsPubByPeer_isSome env, same, blsPubByPeer_isSome, one] at mem
  exact different (by simpa using mem)

end

/-! ## What one signature admits -/

section

variable {env : Contracts} {pin : String} {snap : CommitteeSnapshot}

/-- Everything else accepted under the signature of a snapshot shows its
committee. -/
def Pinned (env : Contracts) (pin : String) (snap : CommitteeSnapshot) : Prop :=
  ∀ other, verifyCommitteeSnapshot env (some other) pin = none →
    other.signature = snap.signature →
      other.epoch = snap.epoch ∧ blsPubByPeer env other = blsPubByPeer env snap

section

variable (accepted : verifyCommitteeSnapshot env (some snap) pin = none)
include accepted

section

variable (pinned : Pinned env pin snap)
include pinned

/-- The signature of an accepted snapshot serves every snapshot of the same
text. -/
theorem Pinned.same_map (seed : String) (entries : List CommitteeEntry) (nonempty : entries ≠ [])
    (same : seed.toList ++ '|' :: entriesText (sortedEntries env entries) =
      snap.seed.toList ++ '|' :: entriesText (sortedEntries env snap.entries)) :
    blsPubByPeer env { snap with seed, entries } = blsPubByPeer env snap := by
  rw [verifyCommitteeSnapshot_eq_none_iff] at accepted
  obtain ⟨_, authority, pub, sig, pubHex, sigHex, verified⟩ := accepted
  refine (pinned { snap with seed, entries } ?_ rfl).2
  rw [verifyCommitteeSnapshot_eq_none_iff]
  refine ⟨nonempty, authority, pub, sig, pubHex, sigHex, ?_⟩
  rw [← verified]
  exact congrArg (env.blsVerify pub · sig) (canonicalCommitteeBytes_congr same)

/-- A snapshot of several entries reads as one entry, too. -/
theorem Pinned.single :
    ∃ entry, snap.entries = [entry] := by
  have nonempty := (verifyCommitteeSnapshot_eq_none_iff.mp accepted).1
  have perm := sortedEntries_perm env snap.entries
  have listed := listed_sortedEntries env snap.entries
  cases sorted : sortedEntries env snap.entries with
  | nil => exact absurd sorted (sortedEntries_ne_nil nonempty)
  | cons first rest =>
    rw [sorted] at perm listed
    cases rest with
    | nil =>
      obtain ⟨entry, one, _⟩ := map_eq_singleton_iff.mp (perm_singleton.mp perm.symm)
      exact ⟨entry, one⟩
    | cons next rest =>
      obtain ⟨raw, normalized⟩ := listed.lastPub_normal
      let merged : CommitteeEntry :=
        { peerID := String.ofList (frontText first (next :: rest)), blsPub := raw }
      have same := pinned.same_map accepted snap.seed [merged]
        (cons_ne_nil _ _) (by
          rw [sorted, entriesText_cons]
          simp [sortedEntries, merged, entriesText_single, normalized])
      have mem : first.peerID ∈ snap.entries.map CommitteeEntry.peerID := by
        have inList := perm.mem_iff.mp (mem_cons_self (a := first))
        obtain ⟨entry, inEntries, equal⟩ := mem_map.mp inList
        exact mem_map.mpr ⟨entry, inEntries, by rw [← equal]⟩
      refine absurd same.symm (blsPubByPeer_ne { snap with entries := [merged] } snap
        rfl mem fun equal => ?_)
      have lengths := congrArg (fun text => text.toList.length) equal
      simp [merged, frontText_cons] at lengths

/-- The one entry can be cut in no other way. -/
theorem Pinned.unmistakable (one : snap.entries = [entry]) :
    Unmistakable env snap.seed entry.peerID (normalize env entry.blsPub) := by
  -- no accepted snapshot of the same text has another peer
  have refute : ∀ (seed : String) (entries : List CommitteeEntry) (peerID : String),
      peerID ∈ entries.map CommitteeEntry.peerID → peerID.toList.length ≠ entry.peerID.toList.length →
      seed.toList ++ '|' :: entriesText (sortedEntries env entries) =
        snap.seed.toList ++ '|' ::
          (entry.peerID.toList ++ ':' :: (normalize env entry.blsPub).toList) → False := by
    intro seed entries peerID mem length same
    have nonempty : entries ≠ [] := by
      rintro rfl
      cases mem
    refine blsPubByPeer_ne snap { snap with seed, entries } one mem
      (fun equal => length (by rw [equal])) (pinned.same_map accepted seed entries nonempty ?_)
    rw [same, one]
    simp [sortedEntries, entriesText_single]
  -- the case of one other entry
  have refuteOne : ∀ (seed peerID raw : String),
      peerID.toList.length ≠ entry.peerID.toList.length →
      seed.toList ++ '|' :: (peerID.toList ++ ':' :: (normalize env raw).toList) =
        snap.seed.toList ++ '|' ::
          (entry.peerID.toList ++ ':' :: (normalize env entry.blsPub).toList) → False := by
    intro seed peerID raw length same
    refine refute seed [⟨peerID, raw⟩] peerID (by simp) length ?_
    rw [← same]
    simp [sortedEntries, entriesText_single]
  refine ⟨fun bar => ?_, fun bar => ?_, ?_, ?_, ?_⟩
  · obtain ⟨left, right, split⟩ := append_of_mem bar
    refine refuteOne (String.ofList left) (String.ofList right ++ "|" ++ entry.peerID) entry.blsPub
      ?_ ?_
    · simp
      omega
    · simp [split]
  · obtain ⟨left, right, split⟩ := append_of_mem bar
    refine refuteOne (snap.seed ++ "|" ++ String.ofList left) (String.ofList right) entry.blsPub
      ?_ ?_
    · simp [split]
      omega
    · simp [split]
  · rintro left right split ⟨raw, normalized⟩
    refine refuteOne snap.seed (entry.peerID ++ ":" ++ left) raw ?_ ?_
    · simp
    · simp [split, normalized]
  · rintro left right split ⟨raw, normalized⟩
    refine refuteOne snap.seed left raw ?_ ?_
    · simp [split]
    · simp [split, normalized]
  · intro first pub rest split pubNormal reads
    obtain ⟨next, others, order, listed, front, last⟩ := reads.listed ⟨entry.blsPub, rfl⟩
    have whole : Listed env (⟨first, pub⟩ :: next :: others) := by
      refine ⟨pairwise_cons.mpr ⟨fun other mem => ?_, listed.sorted⟩, ?_⟩
      · rcases mem_cons.mp mem with rfl | later
        · exact order
        · exact le_trans order ((pairwise_cons.mp listed.sorted).1 other later)
      · rw [forall_mem_cons]
        exact ⟨pubNormal, listed.normal⟩
    obtain ⟨raw, sorted, peers⟩ := whole.signed
    refine refute snap.seed raw first (by rw [peers]; simp) ?_ ?_
    · simp [split]
    · rw [sorted, entriesText_cons, frontText_cons, lastPub_cons, front, last, split]
      simp

end

end

/-- An accepted snapshot fixes the committee that its signature stands for exactly
when it has one entry, and this entry and the seed can be cut in no other way. -/
theorem pinned_iff_unmistakable
    (oneText : ∀ pub pub' text text' sig, env.blsVerify pub text sig = true →
      env.blsVerify pub' text' sig = true → text = text')
    (accepted : verifyCommitteeSnapshot env (some snap) pin = none) :
    (∀ other, verifyCommitteeSnapshot env (some other) pin = none →
      other.signature = snap.signature →
        other.epoch = snap.epoch ∧ blsPubByPeer env other = blsPubByPeer env snap) ↔
      ∃ entry, snap.entries = [entry] ∧
        Unmistakable env snap.seed entry.peerID (normalize env entry.blsPub) := by
  constructor
  · intro pinned
    obtain ⟨entry, one⟩ := Pinned.single accepted pinned
    exact ⟨entry, one, Pinned.unmistakable accepted pinned one⟩
  · rintro ⟨entry, one, single⟩ other otherAccepted signature
    obtain ⟨_, _, pub, sig, _, sigHex, verified⟩ :=
      verifyCommitteeSnapshot_eq_none_iff.mp accepted
    obtain ⟨nonempty, _, pub', sig', _, sigHex', verified'⟩ :=
      verifyCommitteeSnapshot_eq_none_iff.mp otherAccepted
    rw [signature, sigHex] at sigHex'
    cases sigHex'
    obtain ⟨epochs, texts⟩ :=
      of_canonicalCommitteeBytes_eq (oneText _ _ _ _ _ verified verified')
    have own : sortedEntries env snap.entries = [⟨entry.peerID, normalize env entry.blsPub⟩] := by
      rw [one, sortedEntries]
      exact env.slice.sort_singleton _
    have theirs : sortedEntries env other.entries =
        [⟨entry.peerID, normalize env entry.blsPub⟩] := by
      have listed := listed_sortedEntries env other.entries
      rw [own, entriesText_single] at texts
      cases sorted : sortedEntries env other.entries with
      | nil => exact absurd sorted (sortedEntries_ne_nil nonempty)
      | cons first rest =>
        rw [sorted] at listed texts
        exact single.unique listed texts
    exact ⟨epochs.symm, (blsPubByPeer_of_single theirs).trans (blsPubByPeer_of_single own).symm⟩

end

/-- One entry without delimiters in its fields. -/
theorem unmistakable_of_clean {env : Contracts} (seedBar : '|' ∉ seed.toList)
    (peerBar : '|' ∉ peerID.toList) (peerColon : ':' ∉ peerID.toList)
    (pubColon : ':' ∉ blsPub.toList) :
    Unmistakable env seed peerID blsPub where
  seedBar := seedBar
  peerBar := peerBar
  pubColon left right split := absurd (by simp [split]) pubColon
  peerColon left right split := absurd (by simp [split]) peerColon
  peerList first pub rest split := absurd (by simp [split]) peerColon

/-- Contracts with an authority that signed one text. -/
def signedOnce (text : String) : Contracts where
  slice := SortSlice.insertion
  blsVerify _ message _ := message = text

theorem signedOnce_oneText (signed : String) :
    ∀ pub pub' text text' sig, (signedOnce signed).blsVerify pub text sig = true →
      (signedOnce signed).blsVerify pub' text' sig = true → text = text' := by
  intro _ _ text text' _ first second
  exact (of_decide_eq_true first).trans (of_decide_eq_true second).symm

/-- A snapshot of epoch 5. -/
def snapshotOf (entries : List CommitteeEntry) : CommitteeSnapshot :=
  { epoch := 5, entries, authorityPubHex := "aa", signature := "bb" }

theorem single_member_is_pinned :
    verifyCommitteeSnapshot (signedOnce "jmdt/committee/v1|5||a:01")
      (some (snapshotOf [⟨"a", "01"⟩])) "aa" = none ∧
    ∀ other, verifyCommitteeSnapshot (signedOnce "jmdt/committee/v1|5||a:01") (some other) "aa" =
        none → other.signature = "bb" →
      other.epoch = 5 ∧ blsPubByPeer (signedOnce "jmdt/committee/v1|5||a:01") other =
        blsPubByPeer (signedOnce "jmdt/committee/v1|5||a:01") (snapshotOf [⟨"a", "01"⟩]) := by
  have accepted : verifyCommitteeSnapshot (signedOnce "jmdt/committee/v1|5||a:01")
      (some (snapshotOf [⟨"a", "01"⟩])) "aa" = none := by decide +kernel
  refine ⟨accepted, (pinned_iff_unmistakable (signedOnce_oneText _) accepted).mpr ⟨_, rfl, ?_⟩⟩
  exact unmistakable_of_clean (by decide +kernel) (by decide +kernel) (by decide +kernel)
    (by decide +kernel)

/-- Two validators are presented as one under the same signature. -/
theorem two_members_presented_as_one :
    (∀ pub pub' text text' sig,
      (signedOnce "jmdt/committee/v1|5||a:01,b:02").blsVerify pub text sig = true →
        (signedOnce "jmdt/committee/v1|5||a:01,b:02").blsVerify pub' text' sig = true →
          text = text') ∧
      verifyCommitteeSnapshot (signedOnce "jmdt/committee/v1|5||a:01,b:02")
        (some (snapshotOf [⟨"a", "01"⟩, ⟨"b", "02"⟩])) "aa" = none ∧
      verifyCommitteeSnapshot (signedOnce "jmdt/committee/v1|5||a:01,b:02")
        (some (snapshotOf [⟨"a:01,b", "02"⟩])) "aa" = none ∧
      blsPubByPeer (signedOnce "jmdt/committee/v1|5||a:01,b:02")
        (snapshotOf [⟨"a", "01"⟩, ⟨"b", "02"⟩]) "a" = some "01" ∧
      blsPubByPeer (signedOnce "jmdt/committee/v1|5||a:01,b:02")
        (snapshotOf [⟨"a:01,b", "02"⟩]) "a" = none :=
  ⟨signedOnce_oneText _, by decide +kernel⟩

end Jmdn.Seednode
