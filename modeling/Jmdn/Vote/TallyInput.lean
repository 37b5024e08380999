import Jmdn.Vote.Tally

/-!
# What reaches the aggregation

Elements of the CRDT are written by other peers.  A vote that is neither a number nor a
string crashes the reader, and a number is cut to eight bits without a check.
-/

namespace Jmdn.Vote

open Go List

variable {narrowing : Narrowing} {target element : String} {votes : List (String × PeerVote)}

/-! ## Elements -/

/-- An object whose vote, if it has one, is a number or a string. -/
def WellTyped (element : String) : Prop :=
  ∀ members, unmarshalMap element = some members →
    ∀ value, jsonMember members "vote" = some value →
      (∃ number, value = .number number) ∨ ∃ text, value = .string text

/-- The element casts a vote of the given value for the block. -/
def Casts (target element : String) (value : Float.Model) : Prop :=
  ∃ members, unmarshalMap element = some members ∧
    jsonMember members "vote" = some (.number value) ∧
    jsonMember members "block_hash" = some (.string target)

/-- The value of the vote an element casts for the block. -/
def castNumber (target element : String) : Option Float.Model :=
  match unmarshalMap element with
  | none => none
  | some members =>
    match jsonMember members "vote", jsonMember members "block_hash" with
    | some (.number value), some (.string blockHash) =>
      if blockHash = target then some value else none
    | _, _ => none

theorem casts_of_castNumber {value : Float.Model} (cast : castNumber target element = some value) :
    Casts target element value := by
  unfold castNumber at cast
  cases decoded : unmarshalMap element with
  | none =>
    rw [decoded] at cast
    cases cast
  | some members =>
    rw [decoded] at cast
    dsimp only at cast
    split at cast
    · next number blockHash voteIs hashIs =>
      split at cast
      · next same =>
        cases cast
        exact ⟨members, decoded, voteIs, same ▸ hashIs⟩
      · cases cast
    · cases cast

/-- The vote an element leaves, if the reader gets past it. -/
def Read.vote : Read → Option PeerVote
  | .votes vote => some vote
  | _ => none

theorem readElement_ne_panics_iff (element : String) :
    readElement narrowing target element ≠ .panics ↔ WellTyped element := by
  unfold readElement WellTyped
  cases unmarshalMap element with
  | none => simp
  | some members =>
    simp only [Option.some.injEq, forall_eq']
    cases jsonMember members "vote" with
    | none => simp
    | some value =>
      cases value with
      | number number =>
        dsimp only
        cases numberVote narrowing target members number <;> simp
      | _ => simp

/-- What is read of an element is its vote for the block, cut to eight bits. -/
theorem vote_readElement (element : String) :
    (readElement narrowing target element).vote.map PeerVote.vote =
      (castNumber target element).map narrowing.int8 := by
  unfold readElement castNumber
  cases unmarshalMap element with
  | none => rfl
  | some members =>
    dsimp only
    cases jsonMember members "vote" with
    | none => rfl
    | some value =>
      cases value with
      | number number =>
        unfold numberVote
        cases jsonMember members "block_hash" with
        | none => rfl
        | some hash =>
          cases hash with
          | string blockHash =>
            by_cases same : blockHash = target <;> simp [same, Read.vote]
          | _ => rfl
      | _ => rfl

/-! ## Keys -/

/-- The value of the last vote for the block. -/
def lastNumber (target : String) (elements : List String) : Option Float.Model :=
  (elements.filterMap (castNumber target)).getLast?

/-- The vote of a key is the last one that is read. -/
theorem keyVote_eq (elements : List String) (latest : Option PeerVote)
    (typed : ∀ element ∈ elements, WellTyped element) :
    keyVote narrowing target elements latest =
      some ((elements.filterMap fun element =>
        (readElement narrowing target element).vote).getLast?.or latest) := by
  induction elements generalizing latest with
  | nil => rfl
  | cons element rest ih =>
    have calm := (@readElement_ne_panics_iff narrowing target element).mpr
      (typed element (mem_cons_self ..))
    have later := fun latest => ih latest fun other mem =>
      typed other (mem_cons_of_mem _ mem)
    rw [keyVote, filterMap_cons]
    cases read : readElement narrowing target element with
    | panics => exact absurd read calm
    | skips => exact later latest
    | votes vote =>
      have kept : (Read.votes vote).vote = some vote := rfl
      rw [kept]
      dsimp only
      rw [later, List.getLast?_cons]
      cases (rest.filterMap fun element =>
        (readElement narrowing target element).vote).getLast? <;> rfl

theorem keyVote_eq_none_iff (elements : List String) (latest : Option PeerVote) :
    keyVote narrowing target elements latest = none ↔
      ∃ element ∈ elements, ¬ WellTyped element := by
  induction elements generalizing latest with
  | nil => simp [keyVote]
  | cons element rest ih =>
    have calm := @readElement_ne_panics_iff narrowing target element
    rw [keyVote, exists_mem_cons_iff]
    cases read : readElement narrowing target element with
    | panics => simp [← calm, read]
    | skips =>
      rw [ih latest, or_iff_right (by simp [← calm, read])]
    | votes vote =>
      rw [ih (some vote), or_iff_right (by simp [← calm, read])]

/-- The vote of a key comes from one of its elements, and its value is that of the last
vote for the block. -/
theorem keyVote_value {elements : List String} {vote : Option PeerVote}
    (read : keyVote narrowing target elements none = some vote) :
    vote.map PeerVote.vote = (lastNumber target elements).map narrowing.int8 := by
  have typed : ∀ element ∈ elements, WellTyped element := by
    intro element mem
    by_contra wild
    rw [(keyVote_eq_none_iff elements none).mpr ⟨element, mem, wild⟩] at read
    cases read
  rw [keyVote_eq elements none typed, Option.or_none] at read
  rw [← Option.some.inj read, lastNumber, ← List.getLast?_map, ← List.getLast?_map,
    map_filterMap, map_filterMap]
  simp only [vote_readElement]

theorem mem_getSet {elements : List String} :
    element ∈ (CrdtObject.set elements).getSet ↔ element ∈ elements :=
  (perm_insertionSort _ elements).mem_iff

theorem collectVotes_spec {objects : List (String × CrdtObject)}
    (collected : collectVotes narrowing target objects = some votes) (key : String)
    (vote : PeerVote) :
    (key, vote) ∈ votes ↔ ∃ object, (key, object) ∈ objects ∧
      keyVote narrowing target object.getSet none = some (some vote) := by
  induction objects generalizing votes with
  | nil =>
    cases collected
    simp
  | cons entry rest ih =>
    obtain ⟨first, object⟩ := entry
    rw [collectVotes] at collected
    split at collected
    · next latest others own more =>
      rw [← Option.some.inj collected, mem_append, ih more, Option.mem_toList,
        Option.map_eq_some_iff]
      constructor
      · rintro (⟨latest, rfl, same⟩ | ⟨other, mem, voted⟩)
        · cases same
          exact ⟨object, mem_cons_self .., own⟩
        · exact ⟨other, mem_cons_of_mem _ mem, voted⟩
      · rintro ⟨other, mem, voted⟩
        rcases mem_cons.mp mem with same | later
        · cases same
          rw [own] at voted
          exact .inl ⟨vote, Option.some.inj voted, rfl⟩
        · exact .inr ⟨other, later, voted⟩
    · cases collected

theorem collectVotes_eq_none_iff (objects : List (String × CrdtObject)) :
    collectVotes narrowing target objects = none ↔
      ∃ key object, (key, object) ∈ objects ∧
        ∃ element ∈ object.getSet, ¬ WellTyped element := by
  induction objects with
  | nil => simp [collectVotes]
  | cons entry rest ih =>
    obtain ⟨first, object⟩ := entry
    have split : collectVotes narrowing target ((first, object) :: rest) = none ↔
        keyVote narrowing target object.getSet none = none ∨
          collectVotes narrowing target rest = none := by
      rw [collectVotes]
      cases keyVote narrowing target object.getSet none <;>
        cases collectVotes narrowing target rest <;> simp
    rw [split, ih, keyVote_eq_none_iff]
    constructor
    · rintro (wild | ⟨key, other, mem, wild⟩)
      · exact ⟨first, object, mem_cons_self .., wild⟩
      · exact ⟨key, other, mem_cons_of_mem _ mem, wild⟩
    · rintro ⟨key, other, mem, wild⟩
      rcases mem_cons.mp mem with same | later
      · cases same
        exact .inl wild
      · exact .inr ⟨key, other, later, wild⟩

/-! ## The call -/

section

variable {mapOrder : MapOrder (String × CrdtObject)} {env : TallyEnv} {crdt : Crdt}

theorem mem_weighted {entry : WeightedVote} :
    entry ∈ weighted env votes ↔
      (entry.peer, entry.vote) ∈ votes ∧ env.weight entry.peer = some entry.weight := by
  rw [weighted, mem_filterMap]
  constructor
  · rintro ⟨⟨key, vote⟩, mem, found⟩
    obtain ⟨weight, weighs, rfl⟩ := Option.map_eq_some_iff.mp found
    exact ⟨mem, weighs⟩
  · rintro ⟨mem, weighs⟩
    refine ⟨(entry.peer, entry.vote), mem, ?_⟩
    rw [weighs]
    rfl

theorem passedVotes_eq_votes_iff (named : target ≠ "") {passed : List WeightedVote} :
    passedVotes narrowing mapOrder env (some crdt) target = .votes passed ↔
      passed ≠ [] ∧ env.clientError = none ∧ ∃ votes,
        collectVotes narrowing target (mapOrder.order crdt.objects) = some votes ∧
        weighted env votes = passed := by
  unfold passedVotes
  dsimp only
  rw [if_neg named]
  cases collectVotes narrowing target (mapOrder.order crdt.objects) with
  | none => simp
  | some votes =>
    cases votes with
    | nil =>
      refine iff_of_false (by rintro ⟨⟩) ?_
      rintro ⟨nonempty, -, votes, collected, rfl⟩
      cases collected
      exact nonempty rfl
    | cons first rest =>
      dsimp only
      cases env.clientError with
      | some error => simp
      | none =>
        dsimp only
        cases weighs : weighted env (first :: rest) with
        | nil =>
          refine iff_of_false (by rintro ⟨⟩) ?_
          rintro ⟨nonempty, -, votes, collected, rfl⟩
          cases collected
          exact nonempty weighs
        | cons one more =>
          constructor
          · rintro ⟨⟩
            exact ⟨cons_ne_nil _ _, rfl, _, rfl, weighs⟩
          · rintro ⟨-, -, votes, collected, rfl⟩
            cases collected
            rw [weighs]

theorem passedVotes_eq_panics_iff (named : target ≠ "") :
    passedVotes narrowing mapOrder env (some crdt) target = .panics ↔
      collectVotes narrowing target (mapOrder.order crdt.objects) = none := by
  unfold passedVotes
  dsimp only
  rw [if_neg named]
  cases collectVotes narrowing target (mapOrder.order crdt.objects) with
  | none => simp
  | some votes =>
    cases votes with
    | nil => simp
    | cons first rest =>
      dsimp only
      cases env.clientError with
      | some error => simp
      | none =>
        dsimp only
        cases weighted env (first :: rest) <;> simp

/-- The call passes only votes of one or minus one, each from an element under the
peer's key for the block. -/
def PassesVotes (narrowing : Narrowing) (layer : Option Crdt) (target : String)
    (passed : Passed) : Prop :=
  ∀ votes, passed = .votes votes → ∀ entry ∈ votes,
    (entry.vote.vote = 1 ∨ entry.vote.vote = -1) ∧
      ∃ crdt elements element value, layer = some crdt ∧
        (entry.peer, CrdtObject.set elements) ∈ crdt.objects ∧ element ∈ elements ∧
        Casts target element value ∧ entry.vote.vote = narrowing.int8 value

/-- The vote of a key comes from one of its elements. -/
theorem exists_cast {object : CrdtObject} {vote : PeerVote}
    (read : keyVote narrowing target object.getSet none = some (some vote)) :
    ∃ elements element value, object = .set elements ∧ element ∈ elements ∧
      Casts target element value ∧ lastNumber target object.getSet = some value ∧
      vote.vote = narrowing.int8 value := by
  have same := keyVote_value read
  rw [Option.map_some] at same
  obtain ⟨value, last, equal⟩ := Option.map_eq_some_iff.mp same.symm
  have listed := mem_of_getLast? last
  obtain ⟨element, mem, cast⟩ := mem_filterMap.mp listed
  cases object with
  | counter => cases mem
  | set elements =>
    exact ⟨elements, element, value, rfl, mem_getSet.mp mem, casts_of_castNumber cast, last,
      equal.symm⟩

theorem collectVotes_ne_none_iff :
    collectVotes narrowing target (mapOrder.order crdt.objects) ≠ none ↔
      ∀ key elements, (key, CrdtObject.set elements) ∈ crdt.objects →
        ∀ element ∈ elements, WellTyped element := by
  rw [Ne, collectVotes_eq_none_iff]
  constructor
  · intro calm key elements mem element listed
    by_contra wild
    exact calm ⟨key, .set elements, mapOrder.mem_order.mpr mem, element,
      mem_getSet.mpr listed, wild⟩
  · rintro typed ⟨key, object, mem, element, listed, wild⟩
    cases object with
    | counter => cases listed
    | set elements =>
      exact wild (typed key elements (mapOrder.mem_order.mp mem) element
        (mem_getSet.mp listed))

/-- The vote of a key that is passed on if its peer has a weight. -/
theorem exists_passed {key : String} {elements : List String} {value weight : Float.Model}
    (named : target ≠ "") (connected : env.clientError = none)
    (typed : ∀ key elements, (key, CrdtObject.set elements) ∈ crdt.objects →
      ∀ element ∈ elements, WellTyped element)
    (mem : (key, CrdtObject.set elements) ∈ crdt.objects)
    (weighs : env.weight key = some weight)
    (last : lastNumber target (CrdtObject.set elements).getSet = some value) :
    ∃ passed, passedVotes narrowing mapOrder env (some crdt) target = .votes passed ∧
      ∃ entry ∈ passed, entry.vote.vote = narrowing.int8 value := by
  obtain ⟨votes, collected⟩ := Option.ne_none_iff_exists'.mp
    ((@collectVotes_ne_none_iff narrowing target mapOrder crdt).mpr typed)
  have readable : keyVote narrowing target (CrdtObject.set elements).getSet none ≠ none := by
    rw [Ne, keyVote_eq_none_iff]
    rintro ⟨element, listed, wild⟩
    exact wild (typed key elements mem element (mem_getSet.mp listed))
  obtain ⟨latest, read⟩ := Option.ne_none_iff_exists'.mp readable
  have same := keyVote_value read
  rw [last, Option.map_some] at same
  obtain ⟨vote, rfl, equal⟩ := Option.map_eq_some_iff.mp same
  have stored := (collectVotes_spec collected key vote).mpr
    ⟨_, mapOrder.mem_order.mpr mem, read⟩
  have entered : ({ peer := key, vote, weight } : WeightedVote) ∈ weighted env votes :=
    mem_weighted.mpr ⟨stored, weighs⟩
  exact ⟨weighted env votes, (passedVotes_eq_votes_iff named).mpr
    ⟨ne_nil_of_mem entered, connected, votes, collected, rfl⟩, _, entered, equal⟩

theorem processVotesFromCRDT_eq_panics_iff {sumOrder : MapOrder WeightedVote}
    {layer : Option Crdt} :
    processVotesFromCRDT narrowing mapOrder sumOrder env layer target = .panics ↔
      passedVotes narrowing mapOrder env layer target = .panics := by
  unfold processVotesFromCRDT
  cases passedVotes narrowing mapOrder env layer target with
  | panics => simp
  | fails error => simp
  | votes votes =>
    dsimp only
    split <;> simp

end

/-- A call neither panics nor passes a vote that is not one or minus one, exactly if the
node has no CRDT or no target, or: every element with a vote has a number or a string
there, and, unless there is no client for the seed node, the last vote for the block of
every peer with a weight is cut to one or minus one.  What is passed always comes from
an element of the peer's key. -/
theorem votes_passed_iff (narrowing : Narrowing) (mapOrder : MapOrder (String × CrdtObject))
    (sumOrder : MapOrder WeightedVote) (env : TallyEnv) (layer : Option Crdt) (target : String) :
    (processVotesFromCRDT narrowing mapOrder sumOrder env layer target ≠ .panics ∧
      PassesVotes narrowing layer target (passedVotes narrowing mapOrder env layer target)) ↔
    ∀ crdt, layer = some crdt → target ≠ "" →
      (∀ key elements, (key, CrdtObject.set elements) ∈ crdt.objects →
        ∀ element ∈ elements, WellTyped element) ∧
      (env.clientError = none →
        ∀ key elements value, (key, CrdtObject.set elements) ∈ crdt.objects →
          (env.weight key).isSome = true →
          lastNumber target (CrdtObject.set elements).getSet = some value →
          narrowing.int8 value = 1 ∨ narrowing.int8 value = -1) := by
  rw [Ne, processVotesFromCRDT_eq_panics_iff]
  cases layer with
  | none =>
    refine iff_of_true ⟨by rintro ⟨⟩, ?_⟩ (by rintro _ ⟨⟩)
    rintro votes ⟨⟩
  | some crdt =>
    by_cases named : target = ""
    · have refused : passedVotes narrowing mapOrder env (some crdt) target =
          .fails targetRequired := if_pos named
      rw [refused]
      refine iff_of_true ⟨by rintro ⟨⟩, ?_⟩ fun _ _ other => absurd named other
      rintro votes ⟨⟩
    · rw [passedVotes_eq_panics_iff named, ← Ne, collectVotes_ne_none_iff]
      constructor
      · rintro ⟨typed, passes⟩ _ ⟨⟩ -
        refine ⟨typed, fun connected key elements value member weighs last => ?_⟩
        obtain ⟨weight, weighs⟩ := Option.isSome_iff_exists.mp weighs
        obtain ⟨passed, outcome, entry, entered, equal⟩ :=
          @exists_passed narrowing target mapOrder env crdt _ _ _ _ named connected typed member
            weighs last
        rw [← equal]
        exact (passes passed outcome entry entered).1
      · intro condition
        obtain ⟨typed, votes⟩ := condition crdt rfl named
        refine ⟨typed, fun passed outcome entry entered => ?_⟩
        obtain ⟨-, connected, collected, read, rfl⟩ := (passedVotes_eq_votes_iff named).mp outcome
        obtain ⟨stored, weighs⟩ := mem_weighted.mp entered
        obtain ⟨object, member, voted⟩ := (collectVotes_spec read _ _).mp stored
        obtain ⟨elements, element, value, rfl, listed, casts, last, equal⟩ := exists_cast voted
        have inside := mapOrder.mem_order.mp member
        refine ⟨?_, crdt, elements, element, value, rfl, inside, listed, casts, equal⟩
        rw [equal]
        exact votes connected _ elements value inside (Option.isSome_iff_exists.mpr ⟨_, weighs⟩)
          last

/-! ## Two elements -/

/-- The conversion that takes no other liberty than to cut. -/
def cutting : Narrowing where
  int8 value := Int8.ofInt (value.unpack.toInt 0 0)
  fits _ _ _ := rfl

/-- A CRDT with one element under one key. -/
def lone (element : String) : Crdt where
  objects := [("peer", .set [element])]
  keys := List.nodup_singleton _

/-- A vote that is a truth value. -/
def truthVote : Crdt :=
  lone "\x7b\"vote\":true\x7d"

/-- A vote of five. -/
def fiveVote : Crdt :=
  lone "\x7b\"vote\":5,\"block_hash\":\"0xab\"\x7d"

/-- The first crashes the reader, and the second reaches the aggregation, which then
refuses all votes. -/
theorem untyped_vote_panics :
    processVotesFromCRDT cutting .listed .listed {} (some truthVote) "0xab" = .panics ∧
      processVotesFromCRDT cutting .listed .listed {} (some fiveVote) "0xab" =
        .fails "failed to aggregate votes: invalid vote value" ∧
      ¬ PassesVotes cutting (some fiveVote) "0xab"
        (passedVotes cutting .listed {} (some fiveVote) "0xab") := by
  refine ⟨by decide +kernel, by decide +kernel, fun passes => ?_⟩
  have typed : ∀ key elements, (key, CrdtObject.set elements) ∈ fiveVote.objects →
      ∀ element ∈ elements, WellTyped element := by
    intro key elements member element listed
    cases mem_singleton.mp member
    rw [mem_singleton.mp listed]
    exact (@readElement_ne_panics_iff cutting "0xab" _).mp (by decide +kernel)
  have last : lastNumber "0xab" (CrdtObject.set
      ["\x7b\"vote\":5,\"block_hash\":\"0xab\"\x7d"]).getSet =
      some (Float.Model.ofScientific 5 0) := by
    decide +kernel
  obtain ⟨passed, outcome, entry, entered, equal⟩ :=
    @exists_passed cutting "0xab" .listed {} fiveVote "peer" _ _ _ (by decide) rfl typed
      (mem_singleton_self _) rfl last
  have unit := (passes passed outcome entry entered).1
  rw [equal] at unit
  exact absurd unit (by decide +kernel)

end Jmdn.Vote
