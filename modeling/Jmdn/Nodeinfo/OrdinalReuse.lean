import Jmdn.Nodeinfo.Ordinals

/-!
# Ordinals are not reused

The floor of a node covers the blocks it applied live, so a sequencer whose floor
also covers the blocks it got otherwise hands out ordinals above all of the
chain's.  A synced block does not raise the floor: a node that synced its way to
the tip starts over.
-/

namespace Jmdn.Nodeinfo

open BlockProcessing Config DBOPs FastsyncV2 Function Go List Transition

variable {history : History} {obtained : Nat → Option Delivery} {block : ZKBlock}
  {action : HistoryAction} {sealedBlock : Sealed} {delivery : Delivery} {id place : Nat}
  {latestOk : Bool}

/-- No two addresses share an ordinal that the chain assigns, and all of them are
in the ordinal space. -/
structure OrdinalsUnique (history : History) : Prop where
  unique : ∀ first ∈ history.chain, ∀ second ∈ history.chain,
    ∀ entry ∈ first.fresh, ∀ other ∈ second.fresh,
      entry.nonce = other.nonce → entry.address = other.address
  inside : ∀ sealedBlock ∈ history.chain, ∀ entry ∈ sealedBlock.fresh,
    1 ≤ entry.nonce.toNat ∧ entry.nonce.toNat < 2 ^ 40

/-- Before an enrichment: the counter of the node is above the ordinals of the
blocks it did not apply live itself, and no account of the block has the largest
ordinal, whose floor is outside of the ordinal space. -/
def FloorCovers (history : History) : HistoryAction → Prop
  | .enrich id _ block =>
    (∀ (index : Nat) (sealedBlock : Sealed), history.chain[index]? = some sealedBlock →
      (history.peers id).obtained index ≠ some .live →
      ∀ entry ∈ sealedBlock.fresh, entry.nonce < (history.peers id).counter) ∧
    ∀ address ∈ touchedParties block.transactions, ∀ doc,
      (history.peers id).node.db.accounts.get address = some doc → doc.nonce ≠ topOrdinal
  | _ => True

/-- What an enrichment leaves in a block. -/
structure WellSealed (sealedBlock : Sealed) : Prop where
  listed : ∀ entry ∈ sealedBlock.fresh, entry ∈ sealedBlock.block.accountNonces
  positive : ∀ entry ∈ sealedBlock.fresh, 0 < entry.nonce
  inside : ∀ entry ∈ sealedBlock.fresh, entry.nonce < artOrdinalMax
  apart : ∀ entry ∈ sealedBlock.fresh, ∀ other ∈ sealedBlock.fresh,
    entry.nonce = other.nonce → entry.address = other.address
  below : ∀ entry ∈ sealedBlock.block.accountNonces, entry.nonce ≠ topOrdinal

/-- The ordinals of one block are all below those of another. -/
def Precedes (first second : Sealed) : Prop :=
  ∀ entry ∈ first.fresh, ∀ other ∈ second.fresh, entry.nonce < other.nonce

/-- The floor of a node is above the ordinals of the blocks it applied live. -/
structure PeerInv (chain : List Sealed) (peer : Peer) : Prop where
  known : ∀ index, (peer.obtained index).isSome = true → index < chain.length
  raised : ∀ (index : Nat) (sealedBlock : Sealed), chain[index]? = some sealedBlock →
    peer.obtained index = some .live → ∀ entry ∈ sealedBlock.fresh, entry.nonce < peer.counter

structure OrdinalInv (history : History) : Prop where
  chained : ∀ sealedBlock ∈ history.chain, WellSealed sealedBlock
  drafted : ∀ draft ∈ history.drafts, WellSealed draft.2
  peers : ∀ id, PeerInv history.chain (history.peers id)
  ascending : history.chain.Pairwise Precedes
  built : ∀ draft ∈ history.drafts, draft.1 ≤ history.chain.length
  ahead : ∀ draft ∈ history.drafts, draft.1 = history.chain.length →
    ∀ sealedBlock ∈ history.chain, Precedes sealedBlock draft.2

/-! ## Nodes -/

section

variable {chain : List Sealed} {peer : Peer}

variable {index : Nat}

theorem noteDelivery_live (live : noteDelivery obtained index delivery place = some .live) :
    (place = index ∧ delivery = .live) ∨ obtained place = some .live := by
  by_cases same : place = index
  · subst same
    rw [noteDelivery, update_self] at live
    by_cases applied : delivery = .live
    · exact .inl ⟨rfl, applied⟩
    rw [if_neg applied] at live
    cases before : obtained place with
    | none =>
      rw [before] at live
      exact absurd (Option.some.inj live) applied
    | some earlier =>
      rw [before] at live
      exact .inr live
  · rw [noteDelivery, update_of_ne same] at live
    exact .inr live

theorem noteDelivery_known (found : (noteDelivery obtained index delivery place).isSome = true) :
    place = index ∨ (obtained place).isSome = true := by
  by_cases same : place = index
  · exact .inl same
  · rw [noteDelivery, update_of_ne same] at found
    exact .inr found

/-- A node whose counter grew and that obtained nothing live. -/
theorem peerInv_grown {after : Peer} (inv : PeerInv chain peer)
    (grows : peer.counter ≤ after.counter)
    (known : ∀ index, (after.obtained index).isSome = true → index < chain.length)
    (live : ∀ index, after.obtained index = some .live → peer.obtained index = some .live) :
    PeerInv chain after := by
  refine ⟨known, ?_⟩
  intro index sealedBlock found delivered entry fresh
  exact UInt64.lt_of_lt_of_le (inv.raised index sealedBlock found (live index delivered) entry
    fresh) grows

theorem counter_applyLive (index : Nat) (block : ZKBlock) (env : BlockProcessing.Env)
    (order : MapOrder Address) (storeOk latestOk : Bool) :
    (peer.applyLive index block env order storeOk latestOk).counter =
      readARTOrdinalNext (processBlockTransactions env order block peer.node.db).2 :=
  readARTOrdinalNext_congr
    (applyLive_artOrdinalNext env order block storeOk latestOk peer.node)

/-- Live application raises the floor past the ordinals of its block. -/
theorem peerInv_applyLive {env : BlockProcessing.Env} {order : MapOrder Address} {storeOk : Bool}
    (inv : PeerInv chain peer) (wellSealed : WellSealed sealedBlock)
    (place : chain[index]? = some sealedBlock) (ok : env.ordinalOk = true) :
    PeerInv chain (peer.applyLive index sealedBlock.block env order storeOk latestOk) := by
  have grows : peer.counter ≤
      (peer.applyLive index sealedBlock.block env order storeOk latestOk).counter := by
    rw [counter_applyLive]
    exact le_processBlockTransactions env order sealedBlock.block peer.node.db
  have inside : index < chain.length := (List.getElem?_eq_some_iff.mp place).1
  by_cases ended : (processBlockTransactions env order sealedBlock.block peer.node.db).1 = .nil
  · have obtained : (peer.applyLive index sealedBlock.block env order storeOk latestOk).obtained =
        noteDelivery peer.obtained index (peer.liveDelivery sealedBlock.block) := if_pos ended
    constructor
    · intro other found
      rw [obtained] at found
      rcases noteDelivery_known found with rfl | found
      · exact inside
      · exact inv.known other found
    · intro other second found delivered entry fresh
      rw [obtained] at delivered
      rcases noteDelivery_live delivered with ⟨rfl, live⟩ | earlier
      · rw [place] at found
        cases found
        have unmarked :
            peer.node.db.blockProcessed.isApplied sealedBlock.block.blockHash = false := by
          cases marked : peer.node.db.blockProcessed.isApplied sealedBlock.block.blockHash with
          | false => rfl
          | true => simp [Peer.liveDelivery, marked] at live
        rw [counter_applyLive, readARTOrdinalNext_congr
          (processBlockTransactions_artOrdinalNext unmarked)]
        exact lt_bumpCarriedOrdinals ok wellSealed.below
          (wellSealed.listed entry fresh) (wellSealed.positive entry fresh)
          (wellSealed.inside entry fresh)
      · exact UInt64.lt_of_lt_of_le (inv.raised other second found earlier entry fresh) grows
  · have obtained : (peer.applyLive index sealedBlock.block env order storeOk latestOk).obtained =
        peer.obtained := if_neg ended
    apply peerInv_grown inv grows <;> rw [obtained]
    · exact inv.known
    · exact fun _ live => live

theorem peerInv_applySync {env : ReconEnv} (inv : PeerInv chain peer)
    (inside : index < chain.length) :
    PeerInv chain (peer.applySync index block env latestOk) := by
  have same : (peer.applySync index block env latestOk).counter = peer.counter :=
    readARTOrdinalNext_congr
      (syncNode_artOrdinalNext env latestOk block peer.node)
  have obtained : (peer.applySync index block env latestOk).obtained = peer.obtained ∨
      (peer.applySync index block env latestOk).obtained =
        noteDelivery peer.obtained index .sync := by
    simp only [Peer.applySync]
    split
    · exact .inr rfl
    · exact .inl rfl
  apply peerInv_grown inv (UInt64.le_of_eq same.symm)
  · intro other found
    rcases obtained with kept | noted
    · exact inv.known other (kept ▸ found)
    rw [noted] at found
    rcases noteDelivery_known found with rfl | found
    · exact inside
    · exact inv.known other found
  · intro other delivered
    rcases obtained with kept | noted
    · exact kept ▸ delivered
    rw [noted] at delivered
    rcases noteDelivery_live delivered with ⟨-, live⟩ | earlier
    · cases live
    · exact earlier

end

/-! ## Steps -/

section

variable {history : History}

theorem ordinalInv_setPeer {peer : Peer} (inv : OrdinalInv history)
    (kept : PeerInv history.chain peer) : OrdinalInv (history.setPeer id peer) := by
  refine ⟨inv.chained, inv.drafted, ?_, inv.ascending, inv.built, inv.ahead⟩
  intro other
  by_cases same : other = id
  · subst same
    simp only [History.setPeer, update_self]
    exact kept
  · simp only [History.setPeer, update_of_ne same]
    exact inv.peers other

theorem wellSealed_of_reserves {sequencer after : Sequencer} {stamped : ZKBlock}
    (reserves : Reserves sequencer after block stamped)
    (below : ∀ addr ∈ touchedParties block.transactions, ∀ doc,
      sequencer.db.accounts.get addr = some doc → doc.nonce ≠ topOrdinal) :
    WellSealed { block := stamped, fresh := freshOrdinals sequencer.db.accounts stamped } := by
  have limit : artOrdinalMax.toNat = 1099511627776 := rfl
  have top : topOrdinal.toNat = 1099511627775 := rfl
  refine ⟨fun entry => mem_of_mem_filter, ?_, ?_, reserves.apart, ?_⟩
  · intro entry fresh
    have pos : 0 < readARTOrdinalNext sequencer.db :=
      UInt64.lt_iff_toNat_lt.mpr (readARTOrdinalNext_pos sequencer.db)
    exact UInt64.lt_of_lt_of_le pos (reserves.above entry fresh)
  · intro entry fresh
    have inside := reserves.inside entry fresh
    rw [UInt64.lt_iff_toNat_lt]
    omega
  · intro entry listed same
    rcases reserves.stored entry listed with fresh | ⟨doc, found, value⟩
    · have inside := reserves.inside entry fresh
      rw [same] at inside
      omega
    · exact below entry.address (reserves.touched entry listed) doc found (value.symm.trans same)

section

variable (inv : OrdinalInv history)
include inv

/-- The counter of a covered node is above the chain's ordinals. -/
theorem counter_above_chain
    (covers : ∀ (index : Nat) (sealedBlock : Sealed), history.chain[index]? = some sealedBlock →
      (history.peers id).obtained index ≠ some .live →
      ∀ entry ∈ sealedBlock.fresh, entry.nonce < (history.peers id).counter)
    (mem : sealedBlock ∈ history.chain) :
    ∀ entry ∈ sealedBlock.fresh, entry.nonce < (history.peers id).counter := by
  obtain ⟨index, found⟩ := mem_iff_getElem?.mp mem
  by_cases live : (history.peers id).obtained index = some .live
  · exact (inv.peers id).raised index sealedBlock found live
  · exact covers index sealedBlock found live

theorem ordinalInv_enrich {env : EnrichEnv} (covers : FloorCovers history (.enrich id env block)) :
    OrdinalInv (history.enrich id env block) := by
  unfold History.enrich
  split
  · exact inv
  next stamped after done =>
  have reserves := enrichBlockAccountNonces_reserves done
  have peer : PeerInv history.chain ((history.peers id).reserve after) :=
    peerInv_grown (inv.peers id) reserves.grows (inv.peers id).known fun _ live => live
  have kept : OrdinalInv (history.setPeer id ((history.peers id).reserve after)) :=
    ordinalInv_setPeer inv peer
  have wellSealed := wellSealed_of_reserves reserves covers.2
  refine ⟨kept.chained, ?_, kept.peers, kept.ascending, ?_, ?_⟩
  · intro draft mem
    rcases mem_append.mp mem with earlier | added
    · exact kept.drafted draft earlier
    · rw [mem_singleton.mp added]
      exact wellSealed
  · intro draft mem
    rcases mem_append.mp mem with earlier | added
    · exact kept.built draft earlier
    · rw [mem_singleton.mp added]
      exact Nat.le_refl _
  · intro draft mem height sealedBlock chained
    rcases mem_append.mp mem with earlier | added
    · exact kept.ahead draft earlier height sealedBlock chained
    rw [mem_singleton.mp added]
    intro entry fresh other handed
    exact UInt64.lt_of_lt_of_le
      (counter_above_chain inv covers.1 chained entry fresh)
      (reserves.above other handed)

/-- The chain grows by a block whose ordinals are above its own. -/
theorem ordinalInv_adopt {draft : Nat × Sealed}
    (mem : draft ∈ history.drafts) (height : draft.1 = history.chain.length) :
    OrdinalInv { history with chain := history.chain ++ [draft.2] } := by
  refine ⟨?_, inv.drafted, ?_, ?_, ?_, ?_⟩
  · intro sealedBlock chained
    rcases mem_append.mp chained with earlier | added
    · exact inv.chained sealedBlock earlier
    · rw [mem_singleton.mp added]
      exact inv.drafted draft mem
  · intro id
    have peer := inv.peers id
    constructor
    · intro index found
      rw [length_append]
      exact Nat.lt_of_lt_of_le (peer.known index found) (Nat.le_add_right _ _)
    · intro index sealedBlock found live
      have inside := peer.known index (by rw [live]; rfl)
      rw [List.getElem?_append_left inside] at found
      exact peer.raised index sealedBlock found live
  · apply pairwise_append.mpr
    refine ⟨inv.ascending, pairwise_singleton _ _, ?_⟩
    intro sealedBlock chained other added
    rw [mem_singleton.mp added]
    exact inv.ahead draft mem height sealedBlock chained
  · intro other found
    rw [length_append]
    exact Nat.le_trans (inv.built other found) (Nat.le_add_right _ _)
  · intro other found later
    have early := inv.built other found
    rw [length_append, length_singleton] at later
    omega

theorem historyStep_keeps {after : History} (covers : FloorCovers history action)
    (taken : historyStep history action = some after) :
    OrdinalInv after := by
  cases action with
  | enrich id env block =>
    simp only [historyStep] at taken
    split at taken
    · cases taken
      exact ordinalInv_enrich inv covers
    · cases taken
  | adopt draft =>
    obtain ⟨candidate, found, taken⟩ := Option.bind_eq_some_iff.mp taken
    split at taken
    · next height =>
      cases taken
      exact ordinalInv_adopt inv (mem_of_getElem? found) height
    · cases taken
  | live id index env order storeOk latestOk =>
    obtain ⟨sealedBlock, found, taken⟩ := Option.bind_eq_some_iff.mp taken
    split at taken
    · next ok =>
      cases taken
      exact ordinalInv_setPeer inv (peerInv_applyLive (inv.peers id)
        (inv.chained sealedBlock (mem_of_getElem? found)) found ok)
    · cases taken
  | sync id index env latestOk =>
    obtain ⟨sealedBlock, found, taken⟩ := Option.bind_eq_some_iff.mp taken
    cases taken
    exact ordinalInv_setPeer inv
      (peerInv_applySync (inv.peers id) (List.getElem?_eq_some_iff.mp found).1)

end

end

/-- The start of a chain: no block, and no node has one. -/
structure Start (history : History) : Prop where
  chain : history.chain = []
  drafts : history.drafts = []
  obtained : ∀ id index, (history.peers id).obtained index = none

theorem Start.inv (start : Start history) : OrdinalInv history := by
  refine ⟨?_, ?_, ?_, ?_, ?_, ?_⟩
  · intro sealedBlock mem
    rw [start.chain] at mem
    cases mem
  · intro draft mem
    rw [start.drafts] at mem
    cases mem
  · intro id
    constructor
    · intro index found
      rw [start.obtained] at found
      cases found
    · intro index sealedBlock _ live
      rw [start.obtained] at live
      cases live
  · rw [start.chain]
    exact List.Pairwise.nil
  · intro draft mem
    rw [start.drafts] at mem
    cases mem
  · intro draft mem
    rw [start.drafts] at mem
    cases mem

theorem OrdinalInv.unique (inv : OrdinalInv history) :
    OrdinalsUnique history := by
  constructor
  · intro first firstMember second secondMember entry fresh other handed same
    obtain ⟨low, lowFound⟩ := mem_iff_getElem?.mp firstMember
    obtain ⟨high, highFound⟩ := mem_iff_getElem?.mp secondMember
    obtain ⟨lowInside, rfl⟩ := List.getElem?_eq_some_iff.mp lowFound
    obtain ⟨highInside, rfl⟩ := List.getElem?_eq_some_iff.mp highFound
    have ascending := pairwise_iff_getElem.mp inv.ascending
    rcases Nat.lt_trichotomy low high with before | equal | behind
    · have less := ascending low high lowInside highInside before entry fresh other handed
      rw [same] at less
      exact absurd less (UInt64.lt_irrefl _)
    · subst equal
      exact (inv.chained _ firstMember).apart entry fresh other handed same
    · have less := ascending high low highInside lowInside behind other handed entry fresh
      rw [same] at less
      exact absurd less (UInt64.lt_irrefl _)
  · intro sealedBlock mem entry fresh
    have wellSealed := inv.chained sealedBlock mem
    exact ⟨UInt64.lt_iff_toNat_lt.mp (wellSealed.positive entry fresh),
      UInt64.lt_iff_toNat_lt.mp (wellSealed.inside entry fresh)⟩

/-- In every history whose sequencers have a floor above the blocks they did not
apply live, no two addresses are assigned the same ordinal. -/
theorem ordinals_not_reused {start state : History} {actions : List HistoryAction}
    (fresh : Start start) (runs : Runs historyStep FloorCovers start actions state) :
    OrdinalsUnique state :=
  (runs.invariant fresh.inv fun _ _ _ inv covers taken =>
    historyStep_keeps inv covers taken).unique

/-! ## Two failovers -/

/-- An account with a nonce from before the ordinals. -/
def legacyAccount (address : Address) : Account :=
  { address, balance := "1000000", nonce := 7000000000000000000, accountType := "user" }

/-- A node with the accounts of a sender, a coinbase and a zkvm. -/
def seededDB : DB :=
  { accounts := ((Accounts.empty.put (legacyAccount 1)).put (legacyAccount 3)).put
      (legacyAccount 4) }

theorem seededDB_counted : readARTOrdinalNext seededDB ≤ artOrdinalMax := by
  decide

/-- Equal nodes at the start of a chain. -/
def seededHistory : History where
  peers _ := { node := { db := seededDB }, counted := seededDB_counted }

/-- A block that pays a new account. -/
def payingBlock (number : UInt64) (nonce : UInt64) (recipient : Address) : ZKBlock :=
  { blockNumber := number
    blockHash := BitVec.ofNat 256 (10 + number.toNat)
    timestamp := 100
    coinbaseAddr := some 3
    zkvmAddr := some 4
    transactions := [{ hash := BitVec.ofNat 256 (20 + number.toNat), fromAddr := some 1,
                       toAddr := some recipient, value := some 5, nonce, gasLimit := 1,
                       gasPrice := some 2 }] }

def plainEnrichEnv : EnrichEnv where
  addressHex _ := ""
  slice := SortSlice.insertion

/-- The second sequencer obtains the first block by the given step. -/
def failover (delivery : HistoryAction) : List HistoryAction :=
  [.enrich 0 plainEnrichEnv (payingBlock 1 0 5), .adopt 0, delivery,
    .enrich 1 plainEnrichEnv (payingBlock 2 1 6), .adopt 1]

/-- A test that only covered steps pass. -/
def floorCoversTest (history : History) : HistoryAction → Bool
  | .enrich id _ block =>
    ((List.range history.chain.length).all fun index =>
      (history.peers id).obtained index == some .live ||
        (history.chain[index]?).all fun sealedBlock =>
          sealedBlock.fresh.all fun entry => entry.nonce < (history.peers id).counter) &&
    (touchedParties block.transactions).all fun address =>
      ((history.peers id).node.db.accounts.get address).all fun doc =>
        doc.nonce != topOrdinal
  | _ => true

theorem floorCovers_of_test (passed : floorCoversTest history action = true) :
    FloorCovers history action := by
  cases action with
  | enrich id env block =>
    simp only [floorCoversTest, Bool.and_eq_true, all_eq_true] at passed
    constructor
    · intro index sealedBlock found other entry fresh
      have inside := (List.getElem?_eq_some_iff.mp found).1
      have tested := passed.1 index (mem_range.mpr inside)
      rw [found, beq_eq_false_iff_ne.mpr other] at tested
      simp only [Bool.false_or, Option.all_some, all_eq_true, decide_eq_true_eq] at tested
      exact tested entry fresh
    · intro addr mem doc found
      have tested := passed.2 addr mem
      rw [found] at tested
      simpa using tested
  | _ => trivial

/-- A sequencer that applied the first block live goes on with the next ordinal. -/
theorem live_failover_goes_on :
    ∃ state, Runs historyStep FloorCovers seededHistory
        (failover (.live 1 0 {} MapOrder.listed true true)) state ∧
      state.chain.map Sealed.fresh =
        [[{ address := 5, nonce := 1 }], [{ address := 6, nonce := 2 }]] ∧
      OrdinalsUnique state := by
  have outcome : (runIf historyStep floorCoversTest seededHistory
      (failover (.live 1 0 {} MapOrder.listed true true))).any (fun state =>
        state.chain.map Sealed.fresh ==
          [[{ address := 5, nonce := 1 }], [{ address := 6, nonce := 2 }]]) = true := by
    decide +kernel
  obtain ⟨state, reached, handed⟩ := (Option.any_eq_true _ _).mp outcome
  have runs := runs_of_runIf (fun _ _ => floorCovers_of_test) reached
  exact ⟨state, runs, beq_iff_eq.mp handed,
    ordinals_not_reused ⟨rfl, rfl, fun _ _ => rfl⟩ runs⟩

/-- A sequencer that synced the first block hands out its ordinal again. -/
theorem synced_failover_starts_over :
    ∃ state, Start seededHistory ∧ Runs historyStep (fun _ _ => True) seededHistory
        (failover (.sync 1 0 {} true)) state ∧
      state.chain.map Sealed.fresh =
        [[{ address := 5, nonce := 1 }], [{ address := 6, nonce := 1 }]] ∧
      ¬OrdinalsUnique state := by
  have outcome : (run historyStep seededHistory (failover (.sync 1 0 {} true))).any (fun state =>
      state.chain.map Sealed.fresh ==
        [[{ address := 5, nonce := 1 }], [{ address := 6, nonce := 1 }]]) = true := by
    decide +kernel
  obtain ⟨state, reached, handed⟩ := (Option.any_eq_true _ _).mp outcome
  have handed := beq_iff_eq.mp handed
  refine ⟨state, ⟨rfl, rfl, fun _ _ => rfl⟩, runs_of_run reached, handed, ?_⟩
  intro unique
  have first : [{ address := 5, nonce := 1 }] ∈ state.chain.map Sealed.fresh := by simp [handed]
  have second : [{ address := 6, nonce := 1 }] ∈ state.chain.map Sealed.fresh := by simp [handed]
  obtain ⟨left, leftMember, leftFresh⟩ := mem_map.mp first
  obtain ⟨right, rightMember, rightFresh⟩ := mem_map.mp second
  have same := unique.unique left leftMember right rightMember { address := 5, nonce := 1 }
    (by simp [leftFresh]) { address := 6, nonce := 1 } (by simp [rightFresh]) rfl
  revert same
  decide

end Jmdn.Nodeinfo
