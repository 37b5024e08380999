import Jmdn.BFT.Rounds

/-!
# Honest buddies and the Byzantine detector

`detectConflicts` marks a buddy whose vote in the proof of a COMMIT differs from
the vote the engine holds.  An honest buddy casts one vote per round and block, so
it is safe as long as every vote shown in its name is a vote of the round; the
engine itself only makes sure of that for the votes it receives directly.
-/

namespace Jmdn.BFT

open List Transition

variable {δ : Type} {network : Network δ}

variable {action : Nat × Bytes × Event} {setup : Setup δ} {id : Bytes} {msg : PrepareMessage}

/-- What an honest buddy signs in its call: its PREPARE, and COMMITs. -/
def SignedIn (network : Network δ) (id : Bytes) (digest : δ) : Prop :=
  (∃ seq decision timestamp, digest = network.signatures.sha256
      (payload prepareVersionV1 seq network.round network.blockHash id decision timestamp) ∧
      network.input id = some decision ∧ Meaningful decision) ∨
    ∃ seq decision timestamp, digest = network.signatures.sha256
      (payload commitVersionV1 seq network.round network.blockHash id decision timestamp)

/-- A vote in the name of an honest buddy is the one the buddy casts. -/
def Faithful (network : Network δ) (msg : PrepareMessage) : Prop :=
  network.honest msg.buddyID = true → msg.round = network.round ∧
    msg.blockHash = network.blockHash ∧ network.input msg.buddyID = some msg.decision

/-- A well-formed PREPARE with a digest that its buddy signed in a round is the vote
the buddy cast there. -/
theorem cast_of_signedIn (collisionFree : Function.Injective network.signatures.sha256)
    (wellFormed : WellFormed msg)
    (signed : SignedIn network msg.buddyID (digestPrepare network.signatures msg)) :
    msg.round = network.round ∧ msg.blockHash = network.blockHash ∧
      network.input msg.buddyID = some msg.decision := by
  rcases signed with ⟨seq, decision, timestamp, digest, entered, meaningful⟩ |
    ⟨seq, decision, timestamp, digest⟩
  · let cast : SignedFields :=
      ⟨prepareVersionV1, seq, network.round, network.blockHash, msg.buddyID, decision, timestamp⟩
    have same : msg.signedFields.payload = cast.payload := collisionFree digest
    have decisions := wellFormed.2.length.trans meaningful.length.symm
    have hashes : msg.blockHash.length = network.blockHash.length := by
      have total := congrArg List.length same
      rw [length_payload, length_payload, Nat.add_right_cancel_iff] at total
      dsimp only [SignedFields.lengths, Lengths.total, PrepareMessage.signedFields, cast] at total
      rw [wellFormed.1, decisions] at total
      omega
    have lengths : msg.signedFields.lengths = cast.lengths := by
      simp only [SignedFields.lengths, PrepareMessage.signedFields, cast, wellFormed.1, hashes,
        decisions]
    obtain ⟨-, -, round, blockHash, -, decided, -⟩ :=
      SignedFields.mk.inj (SignedFields.eq_of_payload_eq lengths same)
    exact ⟨round, blockHash, decided ▸ entered⟩
  · let signed : SignedFields :=
      ⟨commitVersionV1, seq, network.round, network.blockHash, msg.buddyID, decision, timestamp⟩
    have same : msg.signedFields.payload = signed.payload := collisionFree digest
    exact absurd same (own_versions_separate wellFormed.1 rfl)

/-- Where all votes are faithful, no honest buddy is in conflict with itself. -/
theorem honest_notMem_detectConflicts {commit : CommitMessage} {ours : List PrepareMessage}
    (held : ∀ msg ∈ ours, Faithful network msg)
    (shown : ∀ vote ∈ commit.prepareProof, Faithful network vote)
    (honest : network.honest id = true) : id ∉ detectConflicts commit ours := by
  intro mem
  obtain ⟨vote, conflicting, rfl⟩ := mem_map.mp mem
  obtain ⟨listed, conflict⟩ := mem_filter.mp conflicting
  obtain ⟨own, found, differ⟩ := (Option.any_eq_true _ _).mp conflict
  have sameBuddy : own.buddyID = vote.buddyID := by simpa using List.find?_some found
  obtain ⟨round, blockHash, decision⟩ :=
    held own (mem_of_find?_eq_some found) (by rw [sameBuddy]; exact honest)
  obtain ⟨round', blockHash', decision'⟩ := shown vote listed honest
  rw [sameBuddy, decision', Option.some.injEq] at decision
  simp [round, round', blockHash, blockHash', decision] at differ

/-! ## The invariant -/

/-- The votes a buddy holds, is about to store or is about to compare are faithful,
and no honest buddy is marked. -/
structure NodeClean (network : Network δ) (node : Node) : Prop where
  votes : ∀ msg ∈ node.engine.prepareMsgs, Faithful network msg
  pending : ∀ msg, node.prepareThread = some msg → Faithful network msg
  judged : ∀ msg, node.commitThread = .validated msg →
    ∀ vote ∈ msg.prepareProof, Faithful network vote
  unmarked : ∀ id, network.honest id = true → node.engine.byzantine id = none

theorem NodeClean.step {signatures : Signatures δ} {node after : Node} {event : Event}
    {digests : List δ} (clean : NodeClean network node)
    (effect : Effect signatures setup node event after digests)
    (received : ∀ now msg, event = .validatePrepare now msg →
      (validatePrepare signatures setup now node.engine msg).1 = none → Faithful network msg)
    (shown : ∀ now msg, event = .validateCommit now msg →
      (validateCommit signatures setup now node.engine msg).1 = none →
      ∀ vote ∈ msg.prepareProof, Faithful network vote) : NodeClean network after where
  votes := by
    intro msg listed
    rcases effect.votes msg listed with old | stored
    · exact clean.votes msg old
    · exact clean.pending msg stored
  pending := by
    intro msg held
    rcases effect.pending msg held with old | ⟨now, rfl, accepted⟩
    · exact clean.pending msg old
    · exact received now msg rfl accepted
  judged := by
    intro msg held
    rcases effect.judged msg held with old | ⟨now, rfl, accepted⟩
    · exact clean.judged msg old
    · exact shown now msg rfl accepted
  unmarked := by
    intro id honest
    rcases effect.marks id with same | ⟨msg, held, conflict⟩
    · rw [same]
      exact clean.unmarked id honest
    · exact absurd conflict
        (honest_notMem_detectConflicts clean.votes (clean.judged msg held) honest)

theorem Fits.signedIn_myPrepare (fits : Fits network id setup) (now : Int) (seq : UInt64) :
    SignedIn network id (network.signatures.sha256 (myPrepare setup now seq).payload) := by
  dsimp only [PrepareMessage.payload, myPrepare]
  rw [fits.round, fits.blockHash, fits.myBuddyID]
  exact .inl ⟨seq, _, _, rfl, fits.input, fits.meaningful⟩

theorem Fits.signedIn_myCommit (fits : Fits network id setup) (now : Int) (seq : UInt64)
    (decision : Bytes) (proof : List PrepareMessage) :
    SignedIn network id
      (digestCommit network.signatures (myCommit setup now seq decision proof)) := by
  dsimp only [digestCommit, CommitMessage.payload, myCommit]
  rw [fits.round, fits.blockHash, fits.myBuddyID]
  exact .inr ⟨seq, decision, _, rfl⟩

/-- A buddy begins with its own vote. -/
theorem nodeClean_runConsensus (honest : network.honest id = true) {now : Int} {broadcast : Bool}
    {result : Node × List δ} (outcome : runConsensus network id now broadcast = result) :
    NodeClean network result.1 ∧ ∀ digest ∈ result.2, SignedIn network id digest := by
  unfold runConsensus at outcome
  split at outcome
  · cases outcome
    exact ⟨⟨by simp, by simp, by simp, by simp⟩, by simp⟩
  next setup created =>
  have fits := fits_of_newEngine honest created
  unfold runPrepare at outcome
  dsimp only at outcome
  split at outcome
  · cases outcome
    exact ⟨⟨by simp, by simp, by simp, by simp [Engine.ensureSeqForSelf]⟩, by simp⟩
  cases outcome
  refine ⟨⟨?_, by simp, by simp, by simp [Engine.ensureSeqForSelf]⟩, ?_⟩
  · intro msg listed
    rcases mem_addPrepareMsg listed with old | rfl
    · cases old
    · exact fun _ => ⟨fits.round, fits.blockHash,
        (congrArg network.input fits.myBuddyID).trans fits.input⟩
  · intro digest listed
    rw [mem_singleton.mp listed]
    exact fits.signedIn_myPrepare now _

/-! ## Steps in any round -/

/-- In every round no honest buddy is marked, and what honest buddies signed is
theirs. -/
def RoundsClean (plan : Plan δ) (rounds : Rounds δ) : Prop :=
  ∀ index, (rounds index).All (NodeClean (plan.network index)) (SignedIn (plan.network index))

section

variable {plan : Plan δ} {rounds after : Rounds δ} {index : Nat} {id : Bytes} {event : Event}

section

variable (collisionFree : Function.Injective plan.signatures.sha256)
include collisionFree

section

variable (clean : RoundsClean plan rounds)
include clean

/-- A vote that passes for an honest buddy, well formed and of the round, is
faithful, whichever round its signature was given in. -/
theorem faithful_of_assembled (assembled : Assembled plan rounds (index, id, event))
    (brought : msg ∈ event.prepares) (honest : (plan.network index).honest id = true)
    (fits : Fits (plan.network index) id setup)
    (authentic : Authentic (plan.network index).signatures setup msg.buddyID msg.payload
      msg.signature) (wellFormed : plan.honest msg.buddyID = true → WellFormed msg ∧
      msg.round = (plan.network index).round ∧ msg.blockHash = (plan.network index).blockHash) :
    Faithful (plan.network index) msg := by
  intro named
  rw [plan.sameHonest] at named
  obtain ⟨buddy, found, signed⟩ := authentic
  have verified := (signed (by rw [fits.config]; exact plan.required index)).2
  rw [plan.sameSignatures] at verified
  rw [fits.buddies] at found
  obtain ⟨other, mem⟩ :=
    assembled msg brought named _ (mem_roster_of_buddyOf honest found) verified
  have digest := (clean other).signed _ _ mem
  rw [← plan.sameSignatures other] at digest collisionFree
  obtain ⟨shape, round, blockHash⟩ := wellFormed named
  obtain ⟨round', blockHash', entered⟩ := cast_of_signedIn collisionFree shape digest
  obtain rfl : other = index :=
    plan.distinct _ _ (round'.symm.trans round) (blockHash'.symm.trans blockHash)
  exact ⟨round, blockHash, entered⟩

theorem RoundsClean.systemStep (assembled : Assembled plan rounds (index, id, event))
    (plain : Plain plan (index, id, event)) {system : System δ}
    (stepped : systemStep (plan.network index) (rounds index) (id, event) = some system) :
    system.All (NodeClean (plan.network index)) (SignedIn (plan.network index)) := by
  obtain ⟨honest, ⟨now, broadcast, rfl, rfl⟩ | ⟨node, setup, ⟨next, digests⟩, present, created,
    outcome, rfl⟩⟩ := systemStep_cases stepped
  · exact (clean index).set (nodeClean_runConsensus honest rfl)
  have fits := fits_of_newEngine honest created
  have effect := effect_of_nodeStep outcome
  refine (clean index).set ⟨((clean index).nodes id node present).step effect ?_ ?_, ?_⟩
  · rintro now msg rfl accepted
    obtain ⟨noted, authentic⟩ := validatePrepare_eq_none_iff.mp accepted
    exact faithful_of_assembled collisionFree clean assembled (mem_singleton.mpr rfl) honest
      fits authentic fun named => ⟨plain named, noted.round.trans fits.round,
        noted.blockHash.trans fits.blockHash⟩
  · rintro now msg rfl accepted vote listed
    obtain ⟨-, checked, -⟩ := supported_of_validateCommit accepted
    exact faithful_of_assembled collisionFree clean assembled listed honest fits
      (checked vote listed).authentic (plain vote listed)
  · intro digest listed
    obtain ⟨now, seq, decision, proof, rfl⟩ := effect.signed digest listed
    exact fits.signedIn_myCommit now seq decision proof

theorem RoundsClean.step (assembled : Assembled plan rounds action)
    (plain : Plain plan action) (taken : roundsStep plan rounds action = some after) :
    RoundsClean plan after := by
  obtain ⟨index, id, event⟩ := action
  obtain ⟨system, stepped, rfl⟩ := Option.map_eq_some_iff.mp taken
  intro other
  by_cases same : other = index
  · subst same
    rw [Function.update_self]
    exact clean.systemStep collisionFree assembled plain stepped
  · rw [Function.update_of_ne same]
    exact clean other

end

end

end

/-- Through any number of rounds, no engine of an honest buddy marks an honest
buddy, if every vote shown in the name of one is well formed and of the round: so
no commit of an honest buddy is left out of a count. -/
theorem honest_never_marked (plan : Plan δ)
    (collisionFree : Function.Injective plan.signatures.sha256)
    {actions : List (Nat × Bytes × Event)} {rounds : Rounds δ}
    (runs : Runs (roundsStep plan) (fun rounds action => Assembled plan rounds action ∧
      Plain plan action) Rounds.new actions rounds) {index : Nat} {id : Bytes} {node : Node}
    (present : (rounds index).nodes id = some node) {other : Bytes}
    (honest : plan.honest other = true) :
    node.engine.byzantine other = none ∧ (∀ now, node.engine.isByzantine now other = false) ∧
      ∀ msg, node.commitThread = .validated msg →
        other ∉ detectConflicts msg node.engine.prepareMsgs := by
  have clean : RoundsClean plan rounds := runs.invariant (fun _ => System.all_empty)
    fun before action after clean met taken => clean.step collisionFree met.1 met.2 taken
  have inv := (clean index).nodes id node present
  rw [← plan.sameHonest index] at honest
  have unmarked := inv.unmarked other honest
  refine ⟨unmarked, fun now => by rw [Engine.isByzantine, unmarked]; rfl, fun msg held => ?_⟩
  exact honest_notMem_detectConflicts inv.votes (inv.judged msg held) honest

/-! ## Three buddies -/

/-- Two honest buddies and a Byzantine one, in a round of a given number. -/
def trio (index : Nat) : Network Bytes where
  signatures := quad.signatures
  config := { minBuddies := 3 }
  round := UInt64.ofNat index
  blockHash := List.replicate index 9
  roster := [([1], [11]), ([2], [22]), ([3], [33])]
  honest := fun id => id = [1] || id = [2]
  allBuddies := fun _ =>
    [{ id := [1], decision := accept, publicKey := [11], privateKey := [11] },
      { id := [2], decision := accept, publicKey := [22], privateKey := [22] },
      { id := [3], decision := accept, publicKey := [33], privateKey := [33] }]
  signer := fun _ => none
  sameRoster := fun _ _ => List.Perm.refl _

theorem trio_distinct (first second : Nat) (_ : (trio first).round = (trio second).round)
    (hashes : (trio first).blockHash = (trio second).blockHash) : first = second := by
  simpa [trio] using congrArg List.length hashes

def trioPlan : Plan Bytes where
  network := trio
  signatures := quad.signatures
  honest := fun id => id = [1] || id = [2]
  sameSignatures := fun _ => rfl
  sameHonest := fun _ => rfl
  required := fun _ => rfl
  distinct := trio_distinct

/-- The PREPARE of a buddy in a round, signed. -/
def trioPrepare (index : Nat) (id key : Bytes) : PrepareMessage :=
  let msg : PrepareMessage :=
    { version := prepareVersionV1, seq := 1, round := (trio index).round
      blockHash := (trio index).blockHash, buddyID := id, decision := accept, timestamp := 100 }
  { msg with signature := key ++ msg.payload }

/-- The COMMIT of the Byzantine buddy in round 2, with its own vote and the vote of
an honest buddy in some round. -/
def trioCommit (index : Nat) : CommitMessage :=
  let msg : CommitMessage :=
    { version := commitVersionV1, seq := 1, round := (trio 2).round
      blockHash := (trio 2).blockHash, buddyID := [3], decision := accept
      prepareProof := [trioPrepare index [2] [22], trioPrepare 2 [3] [33]], timestamp := 100 }
  { msg with signature := [33] ++ msg.payload }

/-- The second buddy votes in rounds 1 and 2; the first takes its vote of round 2
and is then shown its vote of a round. -/
def trioActions (index : Nat) : List (Nat × Bytes × Event) :=
  let now : Int := 100000000000
  [(1, [2], .start now true), (2, [2], .start now true), (2, [1], .start now true),
    (2, [1], .validatePrepare now (trioPrepare 2 [2] [22])), (2, [1], .addPrepare),
    (2, [1], .pollPrepare), (2, [1], .beginCommit now Jmdn.Go.MapOrder.listed true),
    (2, [1], .validateCommit now (trioCommit index)), (2, [1], .judgeCommit now)]

/-- Whether the votes an event brings in the name of the honest buddies were signed
in the first two rounds. -/
def trioAssembled (rounds : Rounds Bytes) (action : Nat × Bytes × Event) : Bool :=
  action.2.2.prepares.all fun msg => !trioPlan.honest msg.buddyID ||
    [1, 2].any fun round => (rounds round).signed.contains (msg.buddyID, msg.payload)

theorem assembled_of_trioAssembled {rounds : Rounds Bytes}
    (passed : trioAssembled rounds action = true) : Assembled trioPlan rounds action := by
  intro msg brought honest key listed verified
  have signed := all_eq_true.mp passed msg brought
  rw [honest, Bool.not_true, Bool.false_or, any_eq_true] at signed
  obtain ⟨round, -, signed⟩ := signed
  exact ⟨round, contains_iff_mem.mp signed⟩

/-- Whether those votes accept and, in a proof, are of the round. -/
def trioPlain (action : Nat × Bytes × Event) : Bool :=
  let plain (msg : PrepareMessage) : Bool := msg.version = prepareVersionV1 && msg.decision = accept
  match action.2.2 with
  | .validatePrepare _ msg => plain msg
  | .validateCommit _ msg => msg.prepareProof.all fun vote => plain vote &&
      (vote.round = (trio action.1).round && vote.blockHash = (trio action.1).blockHash)
  | _ => true

theorem plain_of_trioPlain (passed : trioPlain action = true) :
    Plain trioPlan action := by
  obtain ⟨index, id, event⟩ := action
  cases event with
  | validatePrepare now msg =>
    intro honest
    rw [trioPlain, Bool.and_eq_true, decide_eq_true_eq, decide_eq_true_eq] at passed
    exact ⟨passed.1, .inl passed.2⟩
  | validateCommit now msg =>
    intro vote listed honest
    have checked := all_eq_true.mp passed vote listed
    simp only [Bool.and_eq_true, decide_eq_true_eq] at checked
    exact ⟨⟨checked.1.1, .inl checked.1.2⟩, checked.2⟩
  | _ => trivial

/-- Shown its vote of the round, the first buddy marks nobody. -/
theorem vote_of_the_round_unmarked : ∃ (rounds : Rounds Bytes) (node : Node),
    (rounds 2).nodes [1] = some node ∧ node.commitThread = .cleared (trioCommit 2) ∧
      node.engine.byzantine [2] = none := by
  have outcome : (runIf (roundsStep trioPlan)
      (fun rounds action => trioAssembled rounds action && trioPlain action) Rounds.new
      (trioActions 2)).any (fun rounds => ((rounds 2).nodes [1]).any fun node =>
        node.commitThread = .cleared (trioCommit 2)) = true := by
    decide +kernel
  obtain ⟨rounds, taken, reached⟩ := (Option.any_eq_true _ _).mp outcome
  obtain ⟨node, present, cleared⟩ := (Option.any_eq_true _ _).mp reached
  have runs : Runs (roundsStep trioPlan) (fun rounds action => Assembled trioPlan rounds action ∧
      Plain trioPlan action) Rounds.new (trioActions 2) rounds :=
    runs_of_runIf (fun state action passed => by
      rw [Bool.and_eq_true] at passed
      exact ⟨assembled_of_trioAssembled passed.1, plain_of_trioPlain passed.2⟩) taken
  exact ⟨rounds, node, present, of_decide_eq_true cleared,
    (honest_never_marked trioPlan Function.injective_id runs present rfl).1⟩

/-- Shown in round 2, the vote of round 1 gets the honest buddy marked. -/
theorem replayed_vote_marks_honest : ∃ (rounds : Rounds Bytes) (node : Node),
    Runs (roundsStep trioPlan) (Assembled trioPlan) Rounds.new (trioActions 1) rounds ∧
      (rounds 2).nodes [1] = some node ∧ trioPlan.honest [2] = true ∧
      node.engine.byzantine [2] = some 100000000000 := by
  have outcome : (runIf (roundsStep trioPlan) trioAssembled Rounds.new (trioActions 1)).any
      (fun rounds => ((rounds 2).nodes [1]).any fun node =>
        node.engine.byzantine [2] = some 100000000000) = true := by
    decide +kernel
  obtain ⟨rounds, taken, marked⟩ := (Option.any_eq_true _ _).mp outcome
  obtain ⟨node, present, isMarked⟩ := (Option.any_eq_true _ _).mp marked
  exact ⟨rounds, node, runs_of_runIf (fun _ _ => assembled_of_trioAssembled) taken, present, rfl,
    of_decide_eq_true isMarked⟩

end Jmdn.BFT
