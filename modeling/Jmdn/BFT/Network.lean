import Jmdn.BFT.Validation
import Jmdn.Go.Map
import Jmdn.Transition.Run

/-!
# Runs of the buddy consensus

`RunConsensus` for one block and round, as a machine for every honest buddy: the
main thread with its waiting loops, the thread that stores PREPARE messages and
the thread that stores COMMIT messages, which share the engine and take their
steps in any order.  A message is whatever a thread receives, so the network may
lose, repeat, reorder and invent messages.
-/

namespace Jmdn.BFT

open Go Transition

variable {id : Bytes}

/-- The outcome a caller reads from `Result`. -/
structure Result where
  success : Bool
  blockAccepted : Bool
  decision : Bytes
  deriving DecidableEq, Repr

/-- The result of a phase that failed. -/
def failure : Result where
  success := false
  blockAccepted := false
  decision := reject

/-- The result of a commit phase that reached a decision. -/
def agreed (decision : Bytes) : Result where
  success := true
  blockAccepted := decision = accept
  decision := decision

/-- The errors of `RunConsensus` before an engine exists. -/
inductive StartError where
  | invalidInputs (cause : InputError)
  | buddyNotFound
  | noSigner
  deriving DecidableEq, Repr

/-- Where the main thread is. -/
inductive Phase where
  | refused (cause : StartError)
  | preparing
  | prepared (decision : Bytes)
  | committing (decision : Bytes)
  | returned (result : Result)
  deriving DecidableEq, Repr

/-- Where the COMMIT thread is with the message it handles. -/
inductive CommitThread where
  | idle
  | validated (msg : CommitMessage)
  | cleared (msg : CommitMessage)
  deriving DecidableEq, Repr

/-- One call of `RunConsensus`; `prepareThread` is the validated message the
PREPARE thread has yet to store. -/
structure Node where
  engine : Engine := {}
  phase : Phase := .preparing
  prepareThread : Option PrepareMessage := none
  commitThread : CommitThread := .idle

/-- The buddies of one block and round: their names and keys, which of them are
honest, and what each honest one passes to `RunConsensus`. -/
structure Network (δ : Type) where
  signatures : Signatures δ
  config : Config
  round : UInt64
  blockHash : Bytes
  roster : List (Bytes × Bytes)
  honest : Bytes → Bool
  allBuddies : Bytes → List BuddyInput
  signer : Bytes → Option (δ → Option Bytes)
  sameRoster : ∀ id, honest id = true →
    ((allBuddies id).map fun buddy => (buddy.id, buddy.publicKey)).Perm roster

section

variable {δ : Type}

/-- The signer `RunConsensus` settles on. -/
def resolveSigner (signatures : Signatures δ) (signer : Option (δ → Option Bytes))
    (myBuddy : BuddyInput) : Option (δ → Option Bytes) :=
  match signer with
  | some given => some given
  | none =>
    if myBuddy.privateKey ≠ [] then some fun digest => some (signatures.sign myBuddy.privateKey digest)
    else none

/-- `RunConsensus` up to the engine. -/
def newEngine (network : Network δ) (id : Bytes) : Except StartError (Setup δ) :=
  match validateInputs network.config id (network.allBuddies id) with
  | some cause => .error (.invalidInputs cause)
  | none =>
    match buddyOf (network.allBuddies id) id with
    | none => .error .buddyNotFound
    | some myBuddy =>
      let signer := resolveSigner network.signatures (network.signer id) myBuddy
      if signer.isNone ∧ network.config.requireSignatures then .error .noSigner
      else .ok {
        config := network.config
        myBuddyID := id
        myDecision := myBuddy.decision
        buddies := network.allBuddies id
        threshold := bftThreshold (network.allBuddies id).length
        round := network.round
        blockHash := network.blockHash
        signer }

inductive Event where
  | start (now : Int) (broadcast : Bool)
  | validatePrepare (now : Int) (msg : PrepareMessage)
  | addPrepare
  | pollPrepare
  | beginCommit (now : Int) (order : MapOrder PrepareMessage) (broadcast : Bool)
  | validateCommit (now : Int) (msg : CommitMessage)
  | judgeCommit (now : Int)
  | addCommit
  | pollCommit (now : Int)
  | timeout

variable (signatures : Signatures δ) (setup : Setup δ)

/-- `runPrepare` up to its waiting loop, with the digests it signs. -/
def runPrepare (now : Int) (broadcast : Bool) : Node × List δ :=
  let (seq, engine) := ({} : Engine).ensureSeqForSelf setup.myBuddyID
  let msg := myPrepare setup now seq
  let digest := signatures.sha256 msg.payload
  match signDigest setup digest with
  | none => ({ engine, phase := .returned failure }, [])
  | some signature =>
    ({ engine := engine.addPrepareMsg { msg with signature }
       phase := if broadcast then .preparing else .returned failure }, [digest])

/-- `runCommit` up to its waiting loop, with the digests it signs. -/
def runCommit (now : Int) (order : MapOrder PrepareMessage) (broadcast : Bool) (decision : Bytes)
    (node : Node) : Node × List δ :=
  let proof := collectProof setup.threshold decision (order.order node.engine.prepareMsgs) []
  if proof.length < setup.threshold ∨ (proof.length : Int) > setup.config.maxProofSize then
    ({ node with phase := .returned failure }, [])
  else
    let (seq, engine) := node.engine.ensureSeqForSelf setup.myBuddyID
    let msg := myCommit setup now seq decision proof
    let digest := signatures.sha256 msg.payload
    match signDigest setup digest with
    | none => ({ node with engine, phase := .returned failure }, [])
    | some signature =>
      ({ node with
          engine := engine.addCommitMsg { msg with signature }
          phase := if broadcast then .committing decision else .returned failure }, [digest])

/-- Whether the PREPARE thread may still take messages: it is told to stop when
the prepare phase ends, and stops at some later time. -/
def Phase.receives : Phase → Bool
  | .preparing | .prepared _ | .committing _ => true
  | .refused _ | .returned _ => false

/-- One step of a buddy whose engine exists, with the digests it signs. -/
def nodeStep (node : Node) : Event → Option (Node × List δ)
  | .start _ _ => none
  | .validatePrepare now msg =>
    if node.phase.receives ∧ node.prepareThread = none then
      match validatePrepare signatures setup now node.engine msg with
      | (none, engine) => some ({ node with engine, prepareThread := some msg }, [])
      | (some _, engine) => some ({ node with engine }, [])
    else none
  | .addPrepare =>
    node.prepareThread.map fun msg =>
      ({ node with engine := node.engine.addPrepareMsg msg, prepareThread := none }, [])
  | .pollPrepare =>
    match node.phase with
    | .preparing =>
      (reached setup.threshold node.engine.getPrepareVoteCounts).map fun decision =>
        ({ node with phase := .prepared decision }, [])
    | _ => none
  | .beginCommit now order broadcast =>
    match node.phase with
    | .prepared decision => some (runCommit signatures setup now order broadcast decision node)
    | _ => none
  | .validateCommit now msg =>
    match node.phase, node.commitThread with
    | .committing _, .idle =>
      match validateCommit signatures setup now node.engine msg with
      | (none, engine) => some ({ node with engine, commitThread := .validated msg }, [])
      | (some _, engine) => some ({ node with engine }, [])
    | _, _ => none
  | .judgeCommit now =>
    match node.commitThread with
    | .validated msg =>
      match detectConflicts msg node.engine.prepareMsgs with
      | [] => some ({ node with commitThread := .cleared msg }, [])
      | conflicts =>
        some ({ node with engine := node.engine.markAll now conflicts, commitThread := .idle }, [])
    | _ => none
  | .addCommit =>
    match node.commitThread with
    | .cleared msg =>
      some ({ node with engine := node.engine.addCommitMsg msg, commitThread := .idle }, [])
    | _ => none
  | .pollCommit now =>
    match node.phase with
    | .committing _ =>
      (reached setup.threshold (node.engine.getCommitVoteCountsClean now)).map fun decision =>
        ({ node with phase := .returned (agreed decision) }, [])
    | _ => none
  | .timeout =>
    match node.phase with
    | .preparing | .committing _ => some ({ node with phase := .returned failure }, [])
    | _ => none

variable {signatures setup} {node after : Node} {event : Event} {digests : List δ}

variable (signatures setup node) in
/-- What a step of a buddy does.  Numbers seen play no part in the votes. -/
inductive Moves : Event → Node → List δ → Prop
  | refuses {event : Event} {seen : Bytes → UInt64} :
      Moves event { node with engine := { node.engine with lastSeqSeen := seen } } []
  | fails {event : Event} {seen : Bytes → UInt64} :
      Moves event { node with
        engine := { node.engine with lastSeqSeen := seen }
        phase := .returned failure } []
  | takesPrepare {now : Int} {msg : PrepareMessage} {seen : Bytes → UInt64} :
      (validatePrepare signatures setup now node.engine msg).1 = none →
      Moves (.validatePrepare now msg) { node with
        engine := { node.engine with lastSeqSeen := seen }
        prepareThread := some msg } []
  | storesPrepare {msg : PrepareMessage} : node.prepareThread = some msg →
      Moves .addPrepare { node with
        engine := node.engine.addPrepareMsg msg
        prepareThread := none } []
  | prepares {decision : Bytes} : node.phase = .preparing →
      reached setup.threshold node.engine.getPrepareVoteCounts = some decision →
      Moves .pollPrepare { node with phase := .prepared decision } []
  | commits {now : Int} {order : MapOrder PrepareMessage} {broadcast : Bool}
      {decision signature : Bytes} {proof : List PrepareMessage} {seq : UInt64}
      {seen : Bytes → UInt64} : node.phase = .prepared decision →
      proof = collectProof setup.threshold decision (order.order node.engine.prepareMsgs) [] →
      setup.threshold ≤ proof.length →
      Moves (.beginCommit now order broadcast) { node with
        engine := { node.engine with lastSeqSeen := seen }.addCommitMsg
          { myCommit setup now seq decision proof with signature }
        phase := if broadcast then .committing decision else .returned failure }
        [signatures.sha256 (myCommit setup now seq decision proof).payload]
  | takesCommit {now : Int} {msg : CommitMessage} {decision : Bytes} {seen : Bytes → UInt64} :
      node.phase = .committing decision →
      (validateCommit signatures setup now node.engine msg).1 = none →
      Moves (.validateCommit now msg) { node with
        engine := { node.engine with lastSeqSeen := seen }
        commitThread := .validated msg } []
  | clears {now : Int} {msg : CommitMessage} : node.commitThread = .validated msg →
      detectConflicts msg node.engine.prepareMsgs = [] →
      Moves (.judgeCommit now) { node with commitThread := .cleared msg } []
  | marks {now : Int} {msg : CommitMessage} : node.commitThread = .validated msg →
      Moves (.judgeCommit now) { node with
        engine := node.engine.markAll now (detectConflicts msg node.engine.prepareMsgs)
        commitThread := .idle } []
  | storesCommit {msg : CommitMessage} : node.commitThread = .cleared msg →
      Moves .addCommit { node with
        engine := node.engine.addCommitMsg msg
        commitThread := .idle } []
  | decides {now : Int} {decision outcome : Bytes} : node.phase = .committing decision →
      reached setup.threshold (node.engine.getCommitVoteCountsClean now) = some outcome →
      Moves (.pollCommit now) { node with phase := .returned (agreed outcome) } []

theorem moves_of_validate {now : Int}
    (taken : nodeStep signatures setup node event = some (after, digests))
    (validates : (∃ msg, event = .validatePrepare now msg) ∨
      ∃ msg, event = .validateCommit now msg) :
    Moves signatures setup node event after digests := by
  rcases validates with ⟨msg, rfl⟩ | ⟨msg, rfl⟩
  · obtain ⟨seen, same⟩ : ∃ seen, (validatePrepare signatures setup now node.engine msg).2 = _ :=
      validate_engine now node.engine (.prepare msg)
    rw [nodeStep] at taken
    split at taken
    · split at taken
      · next engine passed =>
        cases taken
        rw [passed] at same
        subst same
        exact .takesPrepare (congrArg Prod.fst passed)
      · next engine failed =>
        cases taken
        rw [failed] at same
        subst same
        exact .refuses
    · cases taken
  · obtain ⟨seen, same⟩ : ∃ seen, (validateCommit signatures setup now node.engine msg).2 = _ :=
      validate_engine now node.engine (.commit msg)
    rw [nodeStep] at taken
    split at taken
    · next committing idle =>
      split at taken
      · next engine passed =>
        cases taken
        rw [passed] at same
        subst same
        exact .takesCommit committing (congrArg Prod.fst passed)
      · next engine failed =>
        cases taken
        rw [failed] at same
        subst same
        exact .refuses
    · cases taken

theorem moves_of_nodeStep (taken : nodeStep signatures setup node event = some (after, digests)) :
    Moves signatures setup node event after digests := by
  cases event with
  | start now broadcast => cases taken
  | validatePrepare now msg => exact moves_of_validate taken (.inl ⟨msg, rfl⟩)
  | validateCommit now msg => exact moves_of_validate taken (.inr ⟨msg, rfl⟩)
  | addPrepare =>
    obtain ⟨msg, held, outcome⟩ := Option.map_eq_some_iff.mp taken
    cases outcome
    exact .storesPrepare held
  | pollPrepare =>
    rw [nodeStep] at taken
    split at taken
    · next preparing =>
      obtain ⟨decision, done, outcome⟩ := Option.map_eq_some_iff.mp taken
      cases outcome
      exact .prepares preparing done
    · cases taken
  | beginCommit now order broadcast =>
    rw [nodeStep] at taken
    split at taken
    · next decision prepared =>
      unfold runCommit at taken
      dsimp only at taken
      split at taken
      · cases taken
        exact .fails
      next enough =>
      rw [not_or, not_lt] at enough
      split at taken
      · cases taken
        exact .fails
      · cases taken
        exact .commits prepared rfl enough.1
    · cases taken
  | judgeCommit now =>
    rw [nodeStep] at taken
    split at taken
    · next msg held =>
      split at taken
      · next clean =>
        cases taken
        exact .clears held clean
      · cases taken
        exact .marks held
    · cases taken
  | addCommit =>
    rw [nodeStep] at taken
    split at taken
    · next msg held =>
      cases taken
      exact .storesCommit held
    · cases taken
  | pollCommit now =>
    rw [nodeStep] at taken
    split at taken
    · next decision committing =>
      obtain ⟨outcome, done, result⟩ := Option.map_eq_some_iff.mp taken
      cases result
      exact .decides committing done
    · cases taken
  | timeout =>
    rw [nodeStep] at taken
    split at taken
    · cases taken
      exact .fails
    · cases taken
      exact .fails
    · cases taken

end

/-! ## The system -/

section

variable {δ : Type}

/-- The calls of the honest buddies, and the digests each of them has signed. -/
structure System (δ : Type) where
  nodes : Bytes → Option Node := fun _ => none
  signed : List (Bytes × δ) := []

/-- The system after a step of one buddy. -/
def System.set (system : System δ) (id : Bytes) (outcome : Node × List δ) : System δ where
  nodes := Function.update system.nodes id (some outcome.1)
  signed := outcome.2.map (fun digest => (id, digest)) ++ system.signed

@[simp]
theorem nodes_set_self (system : System δ) (id : Bytes) (outcome : Node × List δ) :
    (system.set id outcome).nodes id = some outcome.1 :=
  Function.update_self ..

theorem nodes_set_of_ne (system : System δ) {other : Bytes} (outcome : Node × List δ)
    (differ : other ≠ id) : (system.set id outcome).nodes other = system.nodes other :=
  Function.update_of_ne differ ..

/-- A property of every call and one of everything signed. -/
structure System.All (ofNode : Node → Prop) (ofSigned : Bytes → δ → Prop) (system : System δ) :
    Prop where
  signed : ∀ id digest, (id, digest) ∈ system.signed → ofSigned id digest
  nodes : ∀ id node, system.nodes id = some node → ofNode node

section

variable {ofNode : Node → Prop} {ofSigned : Bytes → δ → Prop}

theorem System.all_empty : System.All ofNode ofSigned {} where
  signed := by simp
  nodes := by simp

/-- It is kept by a step whose node and signatures have it. -/
theorem System.All.set {system : System δ} (all : system.All ofNode ofSigned)
    {outcome : Node × List δ}
    (stepped : ofNode outcome.1 ∧ ∀ digest ∈ outcome.2, ofSigned id digest) :
    (system.set id outcome).All ofNode ofSigned where
  signed := by
    intro other digest listed
    rcases List.mem_append.mp listed with new | old
    · obtain ⟨own, mem, same⟩ := List.mem_map.mp new
      cases same
      exact stepped.2 _ mem
    · exact all.signed other digest old
  nodes := by
    intro other found present
    by_cases same : other = id
    · rw [same, nodes_set_self] at present
      cases present
      exact stepped.1
    · rw [nodes_set_of_ne _ _ same] at present
      exact all.nodes other found present

end

/-- `RunConsensus` up to the first waiting loop. -/
def runConsensus (network : Network δ) (id : Bytes) (now : Int) (broadcast : Bool) :
    Node × List δ :=
  match newEngine network id with
  | .error cause => ({ phase := .refused cause }, [])
  | .ok setup => runPrepare network.signatures setup now broadcast

/-- One step of an honest buddy; each calls `RunConsensus` once. -/
def systemStep (network : Network δ) : Step (System δ) (Bytes × Event) := fun system action =>
  if network.honest action.1 then
    match system.nodes action.1, action.2 with
    | none, .start now broadcast =>
      some (system.set action.1 (runConsensus network action.1 now broadcast))
    | none, _ => none
    | some node, event =>
      match newEngine network action.1 with
      | .error _ => none
      | .ok setup => (nodeStep network.signatures setup node event).map (system.set action.1)
  else none

/-- A step is the first of a buddy or one of its engine. -/
theorem systemStep_cases {network : Network δ} {system after : System δ} {event : Event}
    (taken : systemStep network system (id, event) = some after) :
    network.honest id = true ∧
      ((∃ now broadcast, event = .start now broadcast ∧
          after = system.set id (runConsensus network id now broadcast)) ∨
        ∃ node setup outcome, system.nodes id = some node ∧ newEngine network id = .ok setup ∧
          nodeStep network.signatures setup node event = some outcome ∧
          after = system.set id outcome) := by
  unfold systemStep at taken
  dsimp only at taken
  split at taken
  · next honest =>
    refine ⟨honest, ?_⟩
    cases present : system.nodes id with
    | none =>
      rw [present] at taken
      cases event with
      | start now broadcast =>
        cases taken
        exact .inl ⟨now, broadcast, rfl, rfl⟩
      | _ => cases taken
    | some node =>
      rw [present] at taken
      dsimp only at taken
      split at taken
      · cases taken
      next setup created =>
      obtain ⟨outcome, stepped, rfl⟩ := Option.map_eq_some_iff.mp taken
      exact .inr ⟨node, setup, outcome, rfl, created, stepped, rfl⟩
  · cases taken

variable (network : Network δ)

/-- The decision an honest buddy enters with. -/
def Network.input (id : Bytes) : Option Bytes :=
  (buddyOf (network.allBuddies id) id).map BuddyInput.decision

def Network.faulty : Nat :=
  network.roster.countP fun buddy => !network.honest buddy.1

/-- The number of honest buddies that enter with a decision. -/
def Network.inputs (decision : Bytes) : Nat :=
  network.roster.countP fun buddy =>
    network.honest buddy.1 && network.input buddy.1 = some decision

/-- A digest a buddy signs in a call for another block or round.  Block hashes
have one length. -/
def Elsewhere (id : Bytes) (digest : δ) : Prop :=
  ∃ version seq round blockHash decision timestamp,
    digest = network.signatures.sha256
      (payload version seq round blockHash id decision timestamp) ∧
    (decision = accept ∨ decision = reject) ∧ blockHash.length = network.blockHash.length ∧
    ¬(round = network.round ∧ blockHash = network.blockHash)

/-- A PREPARE that names an honest buddy and verifies under its key is over a
digest that buddy signed.  Nothing is asked of a COMMIT. -/
def Unforged (system : System δ) (action : Bytes × Event) : Prop :=
  match action.2 with
  | .validatePrepare _ msg =>
    ∀ key, (msg.buddyID, key) ∈ network.roster → network.honest msg.buddyID = true →
      network.signatures.verify key (network.signatures.sha256 msg.payload) msg.signature = true →
      (msg.buddyID, network.signatures.sha256 msg.payload) ∈ system.signed ∨
        Elsewhere network msg.buddyID (network.signatures.sha256 msg.payload)
  | _ => True

/-- A buddy returned successfully with a decision. -/
def System.Finished (system : System δ) (id decision : Bytes) : Prop :=
  ∃ node result, system.nodes id = some node ∧ node.phase = .returned result ∧
    result.success = true ∧ result.decision = decision

end

end Jmdn.BFT
