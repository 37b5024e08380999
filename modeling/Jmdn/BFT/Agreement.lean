import Jmdn.BFT.Network

/-!
# Agreement of the buddy consensus

A decision is supported when the honest buddies that enter with it fill a
threshold together with the Byzantine ones.  Honest buddies only ever sign their
own input or a supported decision, in a PREPARE or in a COMMIT, and commit to
supported decisions.  Two different decisions cannot both be supported.
-/

namespace Jmdn.BFT

open Go List Quorum Transition

variable {δ : Type} {network : Network δ}

variable {decision id second first : Bytes} {now : Int} {engine after : Engine}
  {thread : CommitThread} {setup : Setup δ} {system : System δ} {broadcast : Bool} {phase : Phase}
  {seq : UInt64} {node : Node}

/-- One of the two decisions. -/
def Meaningful (decision : Bytes) : Prop :=
  decision = accept ∨ decision = reject

theorem Meaningful.length (meaningful : Meaningful decision) :
    decision.length = 6 := by
  rcases meaningful with rfl | rfl <;> decide

/-- Enough honest buddies enter with a decision for a threshold of votes, if every
Byzantine buddy votes for it too. -/
structure Supported (network : Network δ) (decision : Bytes) : Prop where
  nonempty : 1 ≤ network.roster.length
  quorum : twoThirds network.roster.length ≤ network.faulty + network.inputs decision

theorem faulty_add_inputs_le (differ : first ≠ second) :
    network.faulty + network.inputs first + network.inputs second ≤ network.roster.length := by
  let entered (decision : Bytes) (buddy : Bytes × Bytes) : Bool :=
    network.honest buddy.1 && network.input buddy.1 = some decision
  have honest := countP_add_le_countP_or (p := entered first) (q := entered second) network.roster
    fun buddy isFirst => by simp_all [entered]
  have all := countP_add_le_countP_or (p := fun buddy => !network.honest buddy.1)
    (q := fun buddy => entered first buddy || entered second buddy) network.roster
    fun buddy faulty => by simp_all [entered]
  have total := all.trans countP_le_length
  change network.roster.countP (fun buddy => !network.honest buddy.1) +
    network.roster.countP (entered first) + network.roster.countP (entered second) ≤ _
  omega

theorem Supported.unique (few : network.faulty ≤ tolerated network.roster.length)
    (firstSupported : Supported network first) (secondSupported : Supported network second) :
    first = second := by
  by_contra differ
  exact not_both_supported firstSupported.nonempty few (faulty_add_inputs_le differ)
    firstSupported.quorum secondSupported.quorum

/-! ## Votes -/

/-- What an honest buddy may sign for this block and round. -/
def Backed (network : Network δ) (id decision : Bytes) : Prop :=
  network.input id = some decision ∨ Supported network decision

/-- A stored vote: from a buddy of the roster, and backed if that buddy is honest
and the vote is for one of the two decisions. -/
structure Vote (network : Network δ) (msg : PrepareMessage) : Prop where
  known : msg.buddyID ∈ network.roster.map Prod.fst
  backed : network.honest msg.buddyID = true → Meaningful msg.decision →
    Backed network msg.buddyID msg.decision

/-- A threshold of votes from distinct buddies supports its decision. -/
theorem supported_of_votes (nonempty : 1 ≤ network.roster.length) {votes : List PrepareMessage}
    (valid : ∀ msg ∈ votes, Vote network msg) (nodup : (votes.map PrepareMessage.buddyID).Nodup)
    (meaningful : Meaningful decision) (quorum : twoThirds network.roster.length ≤
      votes.countP fun msg => msg.decision = decision) : Supported network decision := by
  by_contra unsupported
  -- every vote for the decision is from a Byzantine buddy or from one that entered with it
  let counted : Bytes → Bool := fun id =>
    !network.honest id || (network.honest id && network.input id = some decision)
  have isCounted : ∀ msg ∈ votes.filter fun msg => msg.decision = decision,
      counted msg.buddyID = true := by
    intro msg mem
    rw [mem_filter, decide_eq_true_iff] at mem
    by_cases honest : network.honest msg.buddyID = true
    · rcases (valid msg mem.1).backed honest (mem.2 ▸ meaningful) with entered | supported
      · rw [mem.2] at entered
        simp [counted, honest, entered]
      · exact absurd (mem.2 ▸ supported) unsupported
    · simp [counted, honest]
  have inside : (votes.filter fun msg => msg.decision = decision).map PrepareMessage.buddyID ⊆
      (network.roster.map Prod.fst).filter counted := by
    intro id mem
    obtain ⟨msg, listed, rfl⟩ := mem_map.mp mem
    exact mem_filter.mpr
      ⟨(valid msg (mem_filter.mp listed).1).known, isCounted msg listed⟩
  have short := ((nodup.sublist (filter_sublist.map _)).subperm inside).length_le
  have total : ((network.roster.map Prod.fst).filter counted).length ≤
      network.faulty + network.inputs decision := by
    rw [← countP_eq_length_filter, countP_map]
    exact countP_or_le _ _ _
  rw [length_map, ← countP_eq_length_filter] at short
  exact unsupported ⟨nonempty, quorum.trans (short.trans total)⟩

/-! ## The engine of a buddy -/

/-- What the engine of an honest buddy is set up with. -/
structure Fits (network : Network δ) (id : Bytes) (setup : Setup δ) : Prop where
  config : setup.config = network.config
  myBuddyID : setup.myBuddyID = id
  buddies : setup.buddies = network.allBuddies id
  round : setup.round = network.round
  blockHash : setup.blockHash = network.blockHash
  threshold : setup.threshold = twoThirds network.roster.length
  input : network.input id = some setup.myDecision
  meaningful : Meaningful setup.myDecision
  roster : ∀ other, (buddyOf setup.buddies other).isSome → other ∈ network.roster.map Prod.fst
  known : id ∈ network.roster.map Prod.fst

theorem Fits.nonempty (fits : Fits network id setup) :
    1 ≤ network.roster.length := by
  have inside := length_pos_of_mem fits.known
  rwa [length_map] at inside

/-- The buddies an honest engine knows are those of the roster. -/
theorem mem_roster_of_buddyOf {other : Bytes} {buddy : BuddyInput}
    (honest : network.honest id = true) (found : buddyOf (network.allBuddies id) other = some buddy) :
    (other, buddy.publicKey) ∈ network.roster := by
  obtain ⟨listed, rfl⟩ := buddyOf_eq_some found
  exact (network.sameRoster id honest).mem_iff.mp (mem_map.mpr ⟨buddy, listed, rfl⟩)

theorem fits_of_newEngine (honest : network.honest id = true)
    (created : newEngine network id = .ok setup) : Fits network id setup := by
  unfold newEngine at created
  split at created
  · cases created
  next inputs =>
  split at created
  · cases created
  next myBuddy found =>
  have listed := (buddyOf_eq_some found).1
  have length : (network.allBuddies id).length = network.roster.length := by
    simpa using (network.sameRoster id honest).length_eq
  have meaningful : Meaningful myBuddy.decision := by
    unfold validateInputs at inputs
    split_ifs at inputs
    exact (validateBuddies_eq_none inputs).2.2 myBuddy listed
  dsimp only at created
  split_ifs at created
  cases created
  exact {
    config := rfl
    myBuddyID := rfl
    buddies := rfl
    round := rfl
    blockHash := rfl
    threshold := by rw [bftThreshold_eq, length]
    input := by rw [Network.input, found]; rfl
    meaningful := meaningful
    roster := by
      intro other isSome
      obtain ⟨buddy, found⟩ := Option.isSome_iff_exists.mp isSome
      exact mem_map.mpr ⟨_, mem_roster_of_buddyOf honest found, rfl⟩
    known := mem_map.mpr ⟨_, mem_roster_of_buddyOf honest found, rfl⟩ }

/-- A digest an honest buddy signs in its call. -/
def Signed (network : Network δ) (id : Bytes) (digest : δ) : Prop :=
  ∃ version seq decision timestamp,
    digest = network.signatures.sha256
      (payload version seq network.round network.blockHash id decision timestamp) ∧
    Meaningful decision ∧ Backed network id decision

theorem Fits.signed {version : Bytes} {timestamp : Int64} (fits : Fits network id setup)
    (meaningful : Meaningful decision) (backed : Backed network id decision) :
    Signed network id (network.signatures.sha256 (payload version seq setup.round
      setup.blockHash setup.myBuddyID decision timestamp)) := by
  rw [fits.round, fits.blockHash, fits.myBuddyID]
  exact ⟨version, seq, decision, timestamp, rfl, meaningful, backed⟩

theorem vote_of_validatePrepare {msg : PrepareMessage} (honest : network.honest id = true)
    (fits : Fits network id setup) (required : network.config.requireSignatures = true)
    (collisionFree : Function.Injective network.signatures.sha256)
    (unforged : ∀ key, (msg.buddyID, key) ∈ network.roster →
      network.honest msg.buddyID = true →
      network.signatures.verify key (network.signatures.sha256 msg.payload) msg.signature = true →
      Signed network msg.buddyID (network.signatures.sha256 msg.payload) ∨
        Elsewhere network msg.buddyID (network.signatures.sha256 msg.payload))
    (valid : (validatePrepare network.signatures setup now engine msg).1 = none) :
    Vote network msg := by
  obtain ⟨noted, buddy, found, signed⟩ := validatePrepare_eq_none_iff.mp valid
  have round : msg.round = network.round := noted.round.trans fits.round
  have blockHash : msg.blockHash = network.blockHash := noted.blockHash.trans fits.blockHash
  obtain ⟨-, verified⟩ := signed (by rw [fits.config]; exact required)
  rw [fits.buddies] at found
  have listed := mem_roster_of_buddyOf honest found
  refine ⟨mem_map.mpr ⟨_, listed, rfl⟩, fun isHonest meaningful => ?_⟩
  rcases unforged _ listed isHonest verified with here | elsewhere
  · obtain ⟨version, seq, decision, timestamp, digest, decided, backed⟩ := here
    have lengths := meaningful.length.trans decided.length.symm
    rw [(payload_inj lengths (by rw [blockHash]) (collisionFree digest)).1]
    exact backed
  · obtain ⟨version, seq, round', blockHash', decision, timestamp, digest, decided, length,
      other⟩ := elsewhere
    have lengths := meaningful.length.trans (Meaningful.length decided).symm
    obtain ⟨-, sameHash, sameRound⟩ :=
      payload_inj lengths (by rw [blockHash, length]) (collisionFree digest)
    exact absurd ⟨sameRound.symm.trans round, sameHash.symm.trans blockHash⟩ other

/-! ## Invariants of one buddy -/

/-- A COMMIT whose proof passed. -/
structure Proven (network : Network δ) (msg : CommitMessage) : Prop where
  nodup : (msg.prepareProof.map PrepareMessage.buddyID).Nodup
  known : ∀ prepare ∈ msg.prepareProof, prepare.buddyID ∈ network.roster.map Prod.fst
  quorum : twoThirds network.roster.length ≤
    msg.prepareProof.countP fun prepare => prepare.decision = msg.decision

/-- The message the COMMIT thread holds, in the commit phase of a decision. -/
def ThreadInv (network : Network δ) (decision : Bytes) : CommitThread → Prop
  | .idle => True
  | .validated msg => Proven network msg
  | .cleared msg => msg.decision = decision

/-- The commit phase: its decision is supported, a threshold of votes for it is
held, and every COMMIT held has it. -/
structure Committing (network : Network δ) (engine : Engine) (thread : CommitThread)
    (decision : Bytes) : Prop where
  meaningful : Meaningful decision
  supported : Supported network decision
  quorum : twoThirds network.roster.length ≤
    engine.prepareMsgs.countP fun msg => msg.decision = decision
  commits : ∀ msg ∈ engine.commitMsgs, msg.decision = decision
  thread : ThreadInv network decision thread

def PhaseInv (network : Network δ) (engine : Engine) (thread : CommitThread) : Phase → Prop
  | .refused _ => True
  | .preparing => engine.commitMsgs = [] ∧ thread = .idle
  | .prepared decision => Meaningful decision ∧ engine.commitMsgs = [] ∧ thread = .idle
  | .committing decision => Committing network engine thread decision
  | .returned result => result.success = true → Supported network result.decision

structure NodeInv (network : Network δ) (node : Node) : Prop where
  votes : ∀ msg ∈ node.engine.prepareMsgs, Vote network msg
  nodup : (node.engine.prepareMsgs.map PrepareMessage.buddyID).Nodup
  pending : ∀ msg, node.prepareThread = some msg → Vote network msg
  phase : PhaseInv network node.engine node.commitThread node.phase

/-- More votes do no harm. -/
theorem PhaseInv.grow (inv : PhaseInv network engine thread phase)
    (votes : engine.prepareMsgs.Sublist after.prepareMsgs)
    (commits : after.commitMsgs = engine.commitMsgs) : PhaseInv network after thread phase := by
  cases phase with
  | refused => trivial
  | preparing => exact ⟨commits.trans inv.1, inv.2⟩
  | prepared => exact ⟨inv.1, commits.trans inv.2.1, inv.2.2⟩
  | committing decision =>
    exact { inv with
      quorum := inv.quorum.trans votes.countP_le
      commits := fun msg listed => inv.commits msg (commits ▸ listed) }
  | returned => exact inv

/-- The COMMIT thread holds a message in the commit phase only, or after it. -/
theorem PhaseInv.handle {next : CommitThread} (inv : PhaseInv network engine thread phase)
    (busy : thread ≠ .idle) (kept : ∀ decision, Committing network engine thread decision →
      Committing network after next decision) : PhaseInv network after next phase := by
  cases phase with
  | refused => trivial
  | preparing => exact absurd inv.2 busy
  | prepared => exact absurd inv.2.2 busy
  | committing decision => exact kept decision inv
  | returned => exact inv

/-- The numbers seen play no part. -/
theorem NodeInv.seen (inv : NodeInv network node) (seen : Bytes → UInt64) :
    NodeInv network { node with engine := { node.engine with lastSeqSeen := seen } } :=
  { inv with phase := inv.phase.grow (.refl _) rfl }

theorem nodeInv_new : NodeInv network {} where
  votes := by simp
  nodup := by simp
  pending := by simp
  phase := ⟨rfl, rfl⟩

/-- A phase that failed asks nothing. -/
theorem NodeInv.fail (inv : NodeInv network node) :
    NodeInv network { node with phase := .returned failure } :=
  { inv with phase := fun succeeded => absurd succeeded (by decide) }

/-! ## Steps of one buddy -/

/-- A step leaves the invariant, and what it signs is backed. -/
def Keeps (network : Network δ) (id : Bytes) (result : Node × List δ) : Prop :=
  NodeInv network result.1 ∧ ∀ digest ∈ result.2, Signed network id digest

section

variable {id : Bytes} {setup : Setup δ} {node : Node} {result : Node × List δ}

theorem nodeInv_runPrepare (fits : Fits network id setup)
    (outcome : runPrepare network.signatures setup now broadcast = result) :
    Keeps network id result := by
  unfold runPrepare at outcome
  dsimp only at outcome
  split at outcome
  · cases outcome
    exact ⟨(nodeInv_new.seen _).fail, by simp⟩
  next signature signed =>
  cases outcome
  refine ⟨⟨?_, ?_, by simp, ?_⟩, ?_⟩
  · intro msg listed
    rcases mem_addPrepareMsg listed with old | rfl
    · cases old
    · exact ⟨(congrArg (· ∈ _) fits.myBuddyID).mpr fits.known,
        fun _ _ => .inl ((congrArg network.input fits.myBuddyID).trans fits.input)⟩
  · exact nodup_addPrepareMsg (by simp)
  · cases broadcast
    · exact fun succeeded => absurd succeeded (by decide)
    · exact ⟨by simp, rfl⟩
  · intro digest listed
    rw [mem_singleton.mp listed]
    exact fits.signed fits.meaningful (.inl fits.input)

theorem nodeInv_runConsensus (honest : network.honest id = true)
    (outcome : runConsensus network id now broadcast = result) :
    Keeps network id result := by
  unfold runConsensus at outcome
  split at outcome
  · cases outcome
    exact ⟨⟨by simp, by simp, by simp, trivial⟩, by simp⟩
  · next setup created =>
    exact nodeInv_runPrepare (fits_of_newEngine honest created) outcome

/-- A COMMIT that passed and conflicts with no vote held has the decision of the
commit phase. -/
theorem Committing.decision_eq (committing : Committing network engine thread decision)
    (votes : ∀ msg ∈ engine.prepareMsgs, Vote network msg)
    (nodup : (engine.prepareMsgs.map PrepareMessage.buddyID).Nodup) {msg : CommitMessage}
    (proven : Proven network msg) (clean : detectConflicts msg engine.prepareMsgs = []) :
    msg.decision = decision := by
  have overlap := tolerated_lt_overlap committing.supported.nonempty
  have held := committing.quorum
  have listed := proven.quorum
  rw [countP_eq_length_filter, ← length_map PrepareMessage.buddyID] at held listed
  have inside : ∀ {votes : List PrepareMessage} (decision : Bytes),
      (∀ vote ∈ votes, vote.buddyID ∈ network.roster.map Prod.fst) →
      (votes.filter fun vote => vote.decision = decision).map PrepareMessage.buddyID ⊆
        network.roster.map Prod.fst := by
    intro votes decision known id mem
    obtain ⟨vote, kept, rfl⟩ := mem_map.mp mem
    exact known vote (mem_filter.mp kept).1
  obtain ⟨id, inHeld, inListed⟩ := exists_common (nodup.sublist (filter_sublist.map _))
    (proven.nodup.sublist (filter_sublist.map _)) (inside decision
      fun vote held => (votes vote held).known) (inside msg.decision proven.known)
    (by rw [length_map Prod.fst]; omega)
  obtain ⟨ours, kept, rfl⟩ := mem_map.mp inHeld
  obtain ⟨theirs, kept', same⟩ := mem_map.mp inListed
  rw [mem_filter, decide_eq_true_iff] at kept kept'
  rw [← kept.2, ← kept'.2]
  exact (decision_eq_of_detectConflicts nodup clean kept.1 kept'.1 same.symm).symm

/-- The decision a commit phase reaches is the one it was entered with. -/
theorem Committing.reached_eq (committing : Committing network engine thread decision)
    {outcome : Bytes}
    (done : reached (twoThirds network.roster.length) (engine.getCommitVoteCountsClean now) =
      some outcome) : outcome = decision := by
  have pos : 1 ≤ twoThirds network.roster.length := by
    have overlap := tolerated_lt_overlap committing.supported.nonempty
    have nonempty := committing.supported.nonempty
    omega
  obtain ⟨commit, listed, counted⟩ := exists_vote_of_reached pos done
  rw [committing.commits commit (mem_filter.mp listed).1] at counted
  rcases committing.meaningful with rfl | rfl
  · exact counted
  · exact counted

/-- The commit phase is entered with a supported decision. -/
theorem NodeInv.commit (fits : Fits network id setup) (inv : NodeInv network node)
    {order : MapOrder PrepareMessage} {seen : Bytes → UInt64} {signature : Bytes}
    {proof : List PrepareMessage} (prepared : node.phase = .prepared decision) (collected : proof =
      collectProof setup.threshold decision (order.order node.engine.prepareMsgs) [])
    (enough : setup.threshold ≤ proof.length) :
    Keeps network id ({ node with
      engine := { node.engine with lastSeqSeen := seen }.addCommitMsg
        { myCommit setup now seq decision proof with signature }
      phase := if broadcast then .committing decision else .returned failure },
      [network.signatures.sha256 (myCommit setup now seq decision proof).payload]) := by
  have phase := inv.phase
  rw [prepared] at phase
  obtain ⟨meaningful, noCommits, idle⟩ := phase
  rw [fits.threshold] at enough
  have quorum : twoThirds network.roster.length ≤
      node.engine.prepareMsgs.countP fun msg => msg.decision = decision := by
    rw [← (order.perm _).countP_eq]
    rw [collected] at enough
    exact enough.trans (by simpa using length_collectProof_le _ decision (order.order _) [])
  have supported := supported_of_votes fits.nonempty inv.votes inv.nodup meaningful quorum
  refine ⟨⟨by simpa using inv.votes, by simpa using inv.nodup, inv.pending, ?_⟩, ?_⟩
  · cases broadcast
    · exact fun succeeded => absurd succeeded (by decide)
    · refine ⟨meaningful, supported, by simpa using quorum, fun msg listed => ?_, ?_⟩
      · rcases mem_addCommitMsg listed with old | rfl
        · exact absurd (noCommits ▸ old) not_mem_nil
        · rfl
      · rw [idle]
        trivial
  · intro digest listed
    rw [mem_singleton.mp listed]
    exact fits.signed meaningful (.inr supported)

/-- One step of a buddy keeps its invariant, and what it signs is backed. -/
theorem NodeInv.step (fits : Fits network id setup) (inv : NodeInv network node) {event : Event}
    (vote : ∀ now msg, event = .validatePrepare now msg →
      (validatePrepare network.signatures setup now node.engine msg).1 = none → Vote network msg)
    (taken : nodeStep network.signatures setup node event = some result) :
    Keeps network id result := by
  have phase := inv.phase
  obtain ⟨after, digests⟩ := result
  cases moves_of_nodeStep taken with
  | refuses => exact ⟨inv.seen _, by simp⟩
  | fails => exact ⟨(inv.seen _).fail, by simp⟩
  | takesPrepare accepted =>
    refine ⟨{ inv.seen _ with pending := fun other held => ?_ }, by simp⟩
    cases held
    exact vote _ _ rfl accepted
  | storesPrepare held =>
    refine ⟨⟨fun other listed => ?_, nodup_addPrepareMsg inv.nodup, by simp,
      phase.grow (sublist_addPrepareMsg _ _) (by simp)⟩, by simp⟩
    rcases mem_addPrepareMsg listed with old | rfl
    · exact inv.votes other old
    · exact inv.pending _ held
  | prepares preparing done =>
    rw [preparing] at phase
    exact ⟨{ inv with phase := ⟨reached_cases done, phase⟩ }, by simp⟩
  | commits prepared collected enough => exact inv.commit fits prepared collected enough
  | takesCommit committing accepted =>
    obtain ⟨nodup, listed, quorum⟩ := supported_of_validateCommit accepted
    refine ⟨{ inv.seen _ with phase := ?_ }, by simp⟩
    rw [committing] at phase ⊢
    exact { phase with
      thread := ⟨nodup,
        fun prepare mem => fits.roster _ (listed prepare mem).authentic.isSome,
        fits.threshold ▸ quorum⟩ }
  | clears held clean =>
    rw [held] at phase
    refine ⟨{ inv with phase := phase.handle nofun fun decision committing => ?_ }, by simp⟩
    exact { committing with
      thread := committing.decision_eq inv.votes inv.nodup committing.thread clean }
  | marks held =>
    rw [held] at phase
    refine ⟨{ inv with phase := phase.handle nofun fun decision committing => ?_ }, by simp⟩
    exact { committing with thread := trivial }
  | storesCommit held =>
    rw [held] at phase
    refine ⟨⟨by simpa using inv.votes, by simpa using inv.nodup, inv.pending,
      phase.handle nofun fun decision committing => ?_⟩, by simp⟩
    refine { committing with
      quorum := by simpa using committing.quorum
      commits := fun other listed => ?_
      thread := trivial }
    rcases mem_addCommitMsg listed with old | rfl
    · exact committing.commits other old
    · exact committing.thread
  | decides committing done =>
    rw [committing] at phase
    rw [fits.threshold] at done
    refine ⟨{ inv with phase := fun _ => ?_ }, by simp⟩
    rw [show (agreed _).decision = _ from Committing.reached_eq phase done]
    exact phase.supported

end

/-! ## Runs of the system -/

/-- Every call keeps the invariant, and what is signed is backed. -/
abbrev Inv (network : Network δ) (system : System δ) : Prop :=
  system.All (NodeInv network) (Signed network)

theorem Inv.step (required : network.config.requireSignatures = true)
    (collisionFree : Function.Injective network.signatures.sha256) {after : System δ}
    {action : Bytes × Event} (inv : Inv network system) (unforged : Unforged network system action)
    (taken : systemStep network system action = some after) : Inv network after := by
  obtain ⟨id, event⟩ := action
  obtain ⟨honest, ⟨now, broadcast, rfl, rfl⟩ | ⟨node, setup, ⟨next, digests⟩, present, created,
    stepped, rfl⟩⟩ := systemStep_cases taken
  · exact inv.set (nodeInv_runConsensus honest rfl)
  · have fits := fits_of_newEngine honest created
    refine inv.set ((inv.nodes id node present).step fits ?_ stepped)
    rintro now msg rfl valid
    refine vote_of_validatePrepare honest fits required collisionFree ?_ valid
    intro key listed isHonest verified
    exact (unforged key listed isHonest verified).imp_left (inv.signed _ _)

/-- A decision an honest buddy finishes with is supported. -/
theorem Inv.supported (inv : Inv network system) (finished : system.Finished id decision) :
    Supported network decision := by
  obtain ⟨node, result, present, returned, success, rfl⟩ := finished
  have phase := (inv.nodes id node present).phase
  rw [returned] at phase
  exact phase success

/-- Honest buddies that finish agree, on a decision that enough honest buddies
entered with: for every number of buddies, whatever the Byzantine ones send and
whatever the network does to the messages. -/
theorem finished_buddies_agree (network : Network δ)
    (few : network.faulty ≤ byzantineTolerance network.roster.length)
    (required : network.config.requireSignatures = true)
    (collisionFree : Function.Injective network.signatures.sha256)
    {actions : List (Bytes × Event)} {system : System δ}
    (runs : Runs (systemStep network) (Unforged network) {} actions system) :
    (∀ first second decision decision', system.Finished first decision →
      system.Finished second decision' → decision = decision') ∧
    ∀ id decision, system.Finished id decision →
      bftThreshold network.roster.length - byzantineTolerance network.roster.length ≤
        network.inputs decision := by
  have inv : Inv network system := runs.invariant System.all_empty
    fun before action after inv unforged taken => inv.step required collisionFree unforged taken
  rw [byzantineTolerance_eq] at few
  refine ⟨fun first second decision decision' finished finished' => ?_, fun id decision finished => ?_⟩
  · exact Supported.unique few (inv.supported finished) (inv.supported finished')
  · have quorum := (inv.supported finished).quorum
    rw [bftThreshold_eq, byzantineTolerance_eq]
    omega

/-! ## Four buddies -/

/-- Three honest buddies that accept and a Byzantine one, with an ideal hash and
signatures that name their key. -/
def quad : Network Bytes where
  signatures := {
    sha256 := fun text => text
    sign := fun key digest => key ++ digest
    verify := fun key digest signature => signature = key ++ digest }
  config := { minBuddies := 4 }
  round := 7
  blockHash := [9]
  roster := [([1], [11]), ([2], [22]), ([3], [33]), ([4], [44])]
  honest := fun id => id = [1] || id = [2] || id = [3]
  allBuddies := fun _ => [1, 2, 3, 4].map fun name =>
    { id := [name], decision := accept, publicKey := [11 * name], privateKey := [11 * name] }
  signer := fun _ => none
  sameRoster := fun _ _ => List.Perm.refl _

/-- The PREPARE of a buddy, signed. -/
def quadPrepare (name : UInt8) (decision : Bytes) : PrepareMessage :=
  let msg : PrepareMessage :=
    { version := prepareVersionV1, seq := 1, round := 7, blockHash := [9], buddyID := [name]
      decision, timestamp := 100 }
  { msg with signature := [11 * name] ++ msg.payload }

/-- The COMMIT of a buddy, signed. -/
def quadCommit (name : UInt8) : CommitMessage :=
  let msg : CommitMessage :=
    { version := commitVersionV1, seq := 2, round := 7, blockHash := [9], buddyID := [name]
      decision := accept, timestamp := 100
      prepareProof := [1, 2, 3].map fun voter => quadPrepare voter accept }
  { msg with signature := [11 * name] ++ msg.payload }

/-- What an honest buddy does with the messages of the other two; the PREPARE of the
Byzantine one, for the other decision, comes in between. -/
def quadActions (name first second : UInt8) : List (Bytes × Event) :=
  let now : Int := 100000000000
  [.validatePrepare now (quadPrepare first accept), .addPrepare,
    .validatePrepare now (quadPrepare 4 reject), .addPrepare,
    .validatePrepare now (quadPrepare second accept), .addPrepare, .pollPrepare,
    .beginCommit now MapOrder.listed true, .validateCommit now (quadCommit first),
    .judgeCommit now, .addCommit, .validateCommit now (quadCommit second), .judgeCommit now,
    .addCommit, .pollCommit now].map fun event => ([name], event)

/-- Whether a step is unforged because its message was signed in the run or comes from the
Byzantine buddy. -/
def quadUnforged (system : System Bytes) (action : Bytes × Event) : Bool :=
  match action.2 with
  | .validatePrepare _ msg => msg.buddyID = [4] || (msg.buddyID, msg.payload) ∈ system.signed
  | _ => true

theorem unforged_of_quadUnforged (system : System Bytes) (action : Bytes × Event)
    (passed : quadUnforged system action = true) : Unforged quad system action := by
  obtain ⟨id, event⟩ := action
  cases event with
  | validatePrepare now msg =>
    intro key listed honest verified
    simp only [quadUnforged, Bool.or_eq_true, decide_eq_true_eq] at passed
    rcases passed with byzantine | signed
    · rw [byzantine] at honest
      exact absurd honest (by decide)
    · exact .inl signed
  | _ => trivial

theorem quad_agrees : ∃ system : System Bytes,
    (system.Finished [1] accept ∧ system.Finished [2] accept) ∧
    (∀ first second decision decision', system.Finished first decision →
      system.Finished second decision' → decision = decision') ∧
    bftThreshold 4 - byzantineTolerance 4 ≤ quad.inputs accept := by
  have outcome : (runIf (systemStep quad) quadUnforged {}
      ([[1], [2], [3]].map (fun id => (id, Event.start 100000000000 true)) ++
        quadActions 1 2 3 ++ quadActions 2 1 3)).any (fun system =>
      (system.nodes [1]).map Node.phase = some (.returned (agreed accept)) ∧
      (system.nodes [2]).map Node.phase = some (.returned (agreed accept))) = true := by
    decide +kernel
  obtain ⟨system, reached, both⟩ := (Option.any_eq_true _ _).mp outcome
  rw [decide_eq_true_iff] at both
  have runs := runs_of_runIf unforged_of_quadUnforged reached
  have finished : ∀ id, (system.nodes id).map Node.phase = some (.returned (agreed accept)) →
      system.Finished id accept := by
    intro id phase
    obtain ⟨node, present, returned⟩ := Option.map_eq_some_iff.mp phase
    exact ⟨node, _, present, returned, rfl, rfl⟩
  obtain ⟨agree, support⟩ := finished_buddies_agree quad (by decide) rfl
    Function.injective_id runs
  exact ⟨system, ⟨finished _ both.1, finished _ both.2⟩, agree, support [1] accept (finished _ both.1)⟩

end Jmdn.BFT
