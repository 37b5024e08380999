import Jmdn.BFT.Digests

/-!
# Rounds of the buddy consensus

The calls of `RunConsensus` for many blocks and rounds, one network of buddies for
each.  Every round has engines of its own, but a signature given in one round can
be sent in another.  The rounds may run one after another or overlap.
-/

namespace Jmdn.BFT

open Transition

/-- The rounds to run.  Keys, hash and the honest buddies are the same in all of
them, signatures are required, and no block and round is run twice. -/
structure Plan (δ : Type) where
  network : Nat → Network δ
  signatures : Signatures δ
  honest : Bytes → Bool
  sameSignatures : ∀ index, (network index).signatures = signatures
  sameHonest : ∀ index, (network index).honest = honest
  required : ∀ index, (network index).config.requireSignatures = true
  distinct : ∀ first second, (network first).round = (network second).round →
    (network first).blockHash = (network second).blockHash → first = second

section

variable {δ : Type}

abbrev Rounds (δ : Type) := Nat → System δ

def Rounds.new : Rounds δ := fun _ => {}

/-- A step of one buddy in one round. -/
def roundsStep (plan : Plan δ) : Step (Rounds δ) (Nat × Bytes × Event) := fun rounds action =>
  (systemStep (plan.network action.1) (rounds action.1) action.2).map fun system =>
    Function.update rounds action.1 system

/-- The PREPAREs an event brings, received or as votes of a proof. -/
def Event.prepares : Event → List PrepareMessage
  | .validatePrepare _ msg => [msg]
  | .validateCommit _ msg => msg.prepareProof
  | _ => []

variable (plan : Plan δ)

/-- A PREPARE that names an honest buddy and verifies under its key is over a
digest that buddy signed in some round. -/
def Assembled (rounds : Rounds δ) (action : Nat × Bytes × Event) : Prop :=
  ∀ msg ∈ action.2.2.prepares, plan.honest msg.buddyID = true →
    ∀ key, (msg.buddyID, key) ∈ (plan.network action.1).roster →
      plan.signatures.verify key (digestPrepare plan.signatures msg) msg.signature = true →
      ∃ index, (msg.buddyID, digestPrepare plan.signatures msg) ∈ (rounds index).signed

/-- A PREPARE has the version and one of the decisions that an engine writes. -/
def WellFormed (msg : PrepareMessage) : Prop :=
  msg.version = prepareVersionV1 ∧ Meaningful msg.decision

/-- What the engine does not check: a PREPARE in the name of an honest buddy is
well formed, and in a proof it is one of the round and for the block. -/
def Plain (action : Nat × Bytes × Event) : Prop :=
  match action.2.2 with
  | .validatePrepare _ msg => plan.honest msg.buddyID = true → WellFormed msg
  | .validateCommit _ msg => ∀ vote ∈ msg.prepareProof, plan.honest vote.buddyID = true →
      WellFormed vote ∧ vote.round = (plan.network action.1).round ∧
        vote.blockHash = (plan.network action.1).blockHash
  | _ => True

end

/-! ## What a step of a buddy changes -/

section

variable {δ : Type} (signatures : Signatures δ) (setup : Setup δ)

/-- The votes, the messages in the threads, the marks and the signatures after a
step of a buddy, from those before. -/
structure Effect (node : Node) (event : Event) (after : Node) (digests : List δ) : Prop where
  votes : ∀ msg ∈ after.engine.prepareMsgs,
    msg ∈ node.engine.prepareMsgs ∨ node.prepareThread = some msg
  pending : ∀ msg, after.prepareThread = some msg → node.prepareThread = some msg ∨
    ∃ now, event = .validatePrepare now msg ∧
      (validatePrepare signatures setup now node.engine msg).1 = none
  judged : ∀ msg, after.commitThread = .validated msg → node.commitThread = .validated msg ∨
    ∃ now, event = .validateCommit now msg ∧
      (validateCommit signatures setup now node.engine msg).1 = none
  marks : ∀ id, after.engine.byzantine id = node.engine.byzantine id ∨
    ∃ msg, node.commitThread = .validated msg ∧ id ∈ detectConflicts msg node.engine.prepareMsgs
  signed : ∀ digest ∈ digests, ∃ now seq decision proof,
    digest = digestCommit signatures (myCommit setup now seq decision proof)

variable {signatures setup} {node after : Node} {event : Event} {digests : List δ}

@[simp]
theorem byzantine_addPrepareMsg (engine : Engine) (msg : PrepareMessage) :
    (engine.addPrepareMsg msg).byzantine = engine.byzantine := by
  unfold Engine.addPrepareMsg
  split_ifs <;> rfl

@[simp]
theorem byzantine_addCommitMsg (engine : Engine) (msg : CommitMessage) :
    (engine.addCommitMsg msg).byzantine = engine.byzantine := by
  unfold Engine.addCommitMsg
  split_ifs <;> rfl

theorem foldl_update_of_notMem {ids : List Bytes} {id : Bytes} (unlisted : id ∉ ids)
    (known : Bytes → Option Int) (now : Int) :
    ids.foldl (fun known other => Function.update known other (some now)) known id = known id := by
  induction ids generalizing known with
  | nil => rfl
  | cons other rest ih =>
    rw [List.mem_cons, not_or] at unlisted
    obtain ⟨differ, later⟩ := unlisted
    rw [List.foldl_cons, ih later, Function.update_of_ne differ]

theorem effect_of_nodeStep
    (taken : nodeStep signatures setup node event = some (after, digests)) :
    Effect signatures setup node event after digests := by
  cases moves_of_nodeStep taken with
  | takesPrepare accepted =>
    refine ⟨fun _ => .inl, ?_, fun _ => .inl, fun _ => .inl rfl, by simp⟩
    rintro other ⟨⟩
    exact .inr ⟨_, rfl, accepted⟩
  | storesPrepare held =>
    refine ⟨fun other listed => ?_, by simp, fun _ => .inl, fun id => .inl (by simp), by simp⟩
    rcases mem_addPrepareMsg listed with old | rfl
    · exact .inl old
    · exact .inr held
  | commits =>
    refine ⟨fun other listed => .inl (by simpa using listed), fun _ => .inl, fun _ => .inl,
      fun id => .inl (by simp), fun digest listed => ?_⟩
    rw [List.mem_singleton.mp listed]
    exact ⟨_, _, _, _, rfl⟩
  | takesCommit _ accepted =>
    refine ⟨fun _ => .inl, fun _ => .inl, ?_, fun _ => .inl rfl, by simp⟩
    rintro other ⟨⟩
    exact .inr ⟨_, rfl, accepted⟩
  | clears => exact ⟨fun _ => .inl, fun _ => .inl, nofun, fun _ => .inl rfl, by simp⟩
  | @marks now msg held =>
    refine ⟨fun _ => .inl, fun _ => .inl, nofun, fun id => ?_, by simp⟩
    by_cases listed : id ∈ detectConflicts msg node.engine.prepareMsgs
    · exact .inr ⟨_, held, listed⟩
    · exact .inl (foldl_update_of_notMem listed _ _)
  | storesCommit =>
    exact ⟨fun other listed => .inl (by simpa using listed), fun _ => .inl, nofun,
      fun id => .inl (by simp), by simp⟩
  | refuses | fails | prepares | decides =>
    exact ⟨fun _ => .inl, fun _ => .inl, fun _ => .inl, fun _ => .inl rfl, by simp⟩

end

end Jmdn.BFT
