import Jmdn.Facade.Blocks
import Jmdn.L1finality.Range

/-!
# The latest committed block

`LatestL1CommitBlock` of `gETH/Facade/Service/Service.go` answers from a mark in
memory and scans the newest blocks when the mark is of no use, and converts the
block it finds.  A commit by HTTP raises the mark (`Block/Server.go`), one by gossip
does not (`AVC/BuddyNodes/MessagePassing/Service/subscriptionService.go`), and a
restart clears it.
-/

namespace Jmdn.L1finality

open Config Facade Function Go Transition UInt64

variable {other : UInt64}

structure CommitPayload where
  blockNumber : UInt64
  l1TxHash : String
  l1BlockNumber : UInt64

/-- `CommitPayload.Validate`. -/
def CommitPayload.validate (payload : CommitPayload) : Option String :=
  if payload.blockNumber = 0 ∨ payload.l1TxHash = "" then
    some "block_number and l1_tx_hash are required"
  else none

/-- The stored blocks, the `latest_block` marker and the mark in memory. -/
structure Node where
  blocks : UInt64 → Option ZKBlock := fun _ => none
  latestBlock : UInt64 := 0
  latestL1CommitCache : UInt64 := 0

/-- `ApplyCommit`: whether the block was found, or the number of the block that
could not be updated. -/
def applyCommit (env : Env) (payload : CommitPayload) (blocks : UInt64 → Option ZKBlock) :
    Except UInt64 Bool × (UInt64 → Option ZKBlock) :=
  match if env.readOk 0 then blocks payload.blockNumber else none with
  | none => (.ok false, blocks)
  | some block =>
    if env.updateOk 0 then
      (.ok true, Function.update blocks payload.blockNumber (some { block with
        l1TxHash := payload.l1TxHash
        l1BlockNumber := payload.l1BlockNumber }))
    else (.error payload.blockNumber, blocks)

def Node.raise (node : Node) (number : UInt64) : Node :=
  if number > node.latestL1CommitCache then { node with latestL1CommitCache := number } else node

inductive Event where
  | commit (http : Bool) (env : Env) (payload : CommitPayload)
  | range (http : Bool) (env : Env) (payload : RangePayload)
  | store (block : ZKBlock) (raisesLatest : Bool)
  | restart

/-- `receiveL1Commit`, and `handleL1Commit` for a message. -/
def receiveL1Commit (http : Bool) (env : Env) (payload : CommitPayload) (node : Node) : Node :=
  if payload.validate.isSome then node
  else
    match applyCommit env payload node.blocks with
    | (.ok true, blocks) =>
      if http then { node with blocks }.raise payload.blockNumber else { node with blocks }
    | (_, blocks) => { node with blocks }

/-- `receiveL1CommitRange` and `handleL1CommitRange`: the mark goes to the end of
the range, whatever was updated. -/
def ReceiveL1CommitRange (http : Bool) (env : Env) (payload : RangePayload) (node after : Node) :
    Prop :=
  if payload.validate.isSome then after = node
  else
    ∃ result, ApplyRange env payload node.blocks result ∧ after =
      if http then { node with blocks := result.blocks }.raise payload.endBlock
      else { node with blocks := result.blocks }

/-- `StoreZKBlock`, which refuses a stored number, and `UpdateLatestBlockMonotonic`
if it is called and succeeds. -/
def storeZKBlock (block : ZKBlock) (raisesLatest : Bool) (node : Node) : Node :=
  if (node.blocks block.blockNumber).isSome then node
  else { node with
    blocks := Function.update node.blocks block.blockNumber (some block)
    latestBlock := if raisesLatest ∧ block.blockNumber > node.latestBlock then block.blockNumber
      else node.latestBlock }

/-- What an event can make of a node. -/
def Step (node : Node) : Event → Node → Prop
  | .commit http env payload, after => after = receiveL1Commit http env payload node
  | .range http env payload, after => ReceiveL1CommitRange http env payload node after
  | .store block raisesLatest, after => after = storeZKBlock block raisesLatest node
  | .restart, after => after = { node with latestL1CommitCache := 0 }

/-- The stored block of a number, if it carries an L1 transaction hash. -/
def committed (blocks : UInt64 → Option ZKBlock) (number : UInt64) : Option ZKBlock :=
  (blocks number).filter fun block => block.l1TxHash ≠ ""

/-- The scan downwards. -/
def scanDown (blocks : UInt64 → Option ZKBlock) : Nat → Nat → Option ZKBlock
  | 0, _ => none
  | rounds + 1, n =>
    match committed blocks (UInt64.ofNat n) with
    | some block => some block
    | none => scanDown blocks rounds (n - 1)

/-- The block `LatestL1CommitBlock` finds when no read fails.  From `2 ^ 63` on
`int64(latest)` is negative and nothing is scanned. -/
def latestCommitted (node : Node) : Option ZKBlock :=
  match if node.latestL1CommitCache > 0 then committed node.blocks node.latestL1CommitCache
    else none with
  | some block => some block
  | none =>
    if node.latestBlock.toNat < 2 ^ 63 then
      scanDown node.blocks (min node.latestBlock.toNat 10000 + 1) node.latestBlock.toNat
    else none

/-- `LatestL1CommitBlock`, with what the conversion meets when it looks up the
receipts of the block. -/
def latestL1CommitBlock (lookup : ZKBlock → ReceiptLookup) (node : Node) :
    Except Stop (Option (ClientBlock AccessTuple)) :=
  match latestCommitted node with
  | some block => (convertZKBlockToBlock (lookup block) block).map some
  | none => .ok none

/-! ## Histories that keep the mark ahead -/

/-- A commit by HTTP is for a block up to the tip; the first one after a restart is
not behind a commit there is. -/
def Leads (node : Node) (number : UInt64) : Prop :=
  number ≤ node.latestBlock ∧ (node.latestL1CommitCache = 0 →
    ∀ other, (committed node.blocks other).isSome → other ≤ number)

/-- A mark that is set is not behind a number. -/
def Behind (node : Node) (number : UInt64) : Prop :=
  node.latestL1CommitCache ≠ 0 → number ≤ node.latestL1CommitCache

/-- The condition on the events of a history. -/
def Orderly (node : Node) : Event → Prop
  | .commit http _ payload =>
    if http then Leads node payload.blockNumber else Behind node payload.blockNumber
  | .range http _ payload =>
    if http then Leads node payload.endBlock else Behind node payload.endBlock
  | .store block _ => block.blockNumber.toNat < 2 ^ 63 ∧ block.zkvmAddr.isSome ∧
      (block.l1TxHash ≠ "" → Behind node block.blockNumber)
  | .restart => True

/-- The invariant: no commit is above a mark that is set, the mark is not above the
tip, and a stored block has its number and an address for the header. -/
structure Ahead (node : Node) : Prop where
  tip : node.latestBlock.toNat < 2 ^ 63
  below : node.latestL1CommitCache ≤ node.latestBlock
  ahead : ∀ number, (committed node.blocks number).isSome → Behind node number
  stored : ∀ number block, node.blocks number = some block →
    block.blockNumber = number ∧ block.zkvmAddr.isSome

variable {node after : Node} {blocks middle final : UInt64 → Option ZKBlock} {number : UInt64}

/-- Stored blocks up to a number may have got another L1 transaction. -/
def Stamps (number : UInt64) (before after : UInt64 → Option ZKBlock) : Prop :=
  ∀ other, after other = before other ∨ other ≤ number ∧ ∃ block l1TxHash l1BlockNumber,
    before other = some block ∧ after other = some { block with l1TxHash, l1BlockNumber }

theorem Stamps.refl (number : UInt64) (blocks : UInt64 → Option ZKBlock) :
    Stamps number blocks blocks :=
  fun _ => .inl rfl

theorem Stamps.trans (first : Stamps number blocks middle) (second : Stamps number middle final) :
    Stamps number blocks final := by
  intro other
  rcases first other, second other with ⟨kept | ⟨below, block, _, _, found, stamped⟩,
    kept' | ⟨below', block', _, _, found', stamped'⟩⟩
  · exact .inl (kept'.trans kept)
  · exact .inr ⟨below', block', _, _, kept.symm.trans found', stamped'⟩
  · exact .inr ⟨below, block, _, _, found, kept'.trans stamped⟩
  · cases stamped.symm.trans found'
    exact .inr ⟨below, block, _, _, found, stamped'⟩

theorem stamps_update {block : ZKBlock} {l1TxHash : String} {l1BlockNumber : UInt64}
    (found : blocks other = some block) (below : other ≤ number) :
    Stamps number blocks (update blocks other (some { block with l1TxHash, l1BlockNumber })) := by
  intro place
  by_cases same : place = other
  · subst same
    exact .inr ⟨below, block, _, _, found, update_self ..⟩
  · exact .inl (update_of_ne same _ _)

theorem applyCommit_cases (env : Env) (payload : CommitPayload)
    (blocks : UInt64 → Option ZKBlock) :
    (∃ after, applyCommit env payload blocks = (.ok true, after) ∧
      Stamps payload.blockNumber blocks after) ∨
    applyCommit env payload blocks = (.ok false, blocks) ∨
    applyCommit env payload blocks = (.error payload.blockNumber, blocks) := by
  unfold applyCommit
  split
  · exact .inr (.inl rfl)
  · next block found =>
    split
    · split at found
      · exact .inl ⟨_, rfl, stamps_update found (UInt64.le_refl _)⟩
      · cases found
    · exact .inr (.inr rfl)

theorem stamps_stampBlock (env : Env) {payload : RangePayload} {state : RangeState}
    (inside : state.blockNum ≤ payload.endBlock) :
    Stamps payload.endBlock state.blocks (stampBlock env payload state).blocks := by
  unfold stampBlock
  split
  · exact .refl _ _
  · next block found =>
    split
    · split at found
      · exact stamps_update found inside
      · cases found
    · exact .refl _ _

/-- A range commits nothing above its end. -/
theorem stamps_applyRange {env : Env} {payload : RangePayload} {result : RangeState}
    (applied : ApplyRange env payload blocks result) :
    Stamps payload.endBlock blocks result.blocks := by
  obtain ⟨fuel, finished⟩ := applied
  generalize start : ({ blockNum := payload.startBlock, blocks } : RangeState) = state at finished
  obtain rfl : state.blocks = blocks := start ▸ rfl
  clear start
  induction fuel generalizing state with
  | zero => cases finished
  | succ fuel ih =>
    rw [loop, rangeRound] at finished
    split_ifs at finished with inside
    · exact (stamps_stampBlock env inside).trans (ih { stampBlock env payload state with
        blockNum := state.blockNum + 1, reads := state.reads + 1 } finished)
    · cases finished
      exact .refl _ _

/-- After commits up to a number that raise the mark or not. -/
theorem Ahead.commit (ahead : Ahead node) (http : Bool) (stamps : Stamps number node.blocks blocks)
    (orderly : if http then Leads node number else Behind node number) :
    Ahead (if http then { node with blocks }.raise number else { node with blocks }) := by
  have known : ∀ other, (committed blocks other).isSome →
      (committed node.blocks other).isSome ∨ other ≤ number := by
    intro other found
    rcases stamps other with kept | ⟨below, -⟩
    · rw [committed, kept] at found
      exact .inl found
    · exact .inr below
  have stored : ∀ other block, blocks other = some block →
      block.blockNumber = other ∧ block.zkvmAddr.isSome := by
    intro other block found
    rcases stamps other with kept | ⟨-, before, _, _, present, stamped⟩
    · exact ahead.stored other block (kept.symm.trans found)
    · cases stamped.symm.trans found
      exact ahead.stored other before present
  have keeps : Behind node number → Ahead { node with blocks } := by
    refine fun behind => ⟨ahead.tip, ahead.below, fun other found set => ?_, stored⟩
    rcases known other found with before | below
    · exact ahead.ahead other before set
    · exact UInt64.le_trans below (behind set)
  cases http with
  | false => exact keeps orderly
  | true =>
    rw [if_pos rfl] at orderly ⊢
    unfold Node.raise
    split
    · next greater =>
      refine ⟨ahead.tip, orderly.1, fun other found _ => ?_, stored⟩
      rcases known other found with before | below
      · by_cases unset : node.latestL1CommitCache = 0
        · exact orderly.2 unset other before
        · exact UInt64.le_of_lt (UInt64.lt_of_le_of_lt (ahead.ahead other before unset) greater)
      · exact below
    · next lower => exact keeps fun _ => UInt64.not_lt.mp lower

theorem step_ahead {event : Event} (ahead : Ahead node) (orderly : Orderly node event)
    (taken : Step node event after) : Ahead after := by
  cases event with
  | commit http env payload =>
    rw [show after = _ from taken, receiveL1Commit]
    split
    · exact ahead
    rcases applyCommit_cases env payload node.blocks with ⟨blocks, outcome, stamps⟩ | outcome | outcome
    · rw [outcome]
      exact ahead.commit http stamps orderly
    · rw [outcome]
      exact ahead
    · rw [outcome]
      exact ahead
  | range http env payload =>
    rw [Step, ReceiveL1CommitRange] at taken
    split at taken
    · exact taken ▸ ahead
    · obtain ⟨result, applied, rfl⟩ := taken
      exact ahead.commit http (stamps_applyRange applied) orderly
  | store block raisesLatest =>
    rw [show after = _ from taken, storeZKBlock]
    split
    · exact ahead
    have known : ∀ other, (committed (update node.blocks block.blockNumber (some block))
        other).isSome → Behind node other := by
      intro other found
      by_cases same : other = block.blockNumber
      · subst same
        apply orderly.2.2
        simpa [committed] using found
      · rw [committed, update_of_ne same] at found
        exact ahead.ahead other found
    have stored : ∀ other present,
        update node.blocks block.blockNumber (some block) other = some present →
          present.blockNumber = other ∧ present.zkvmAddr.isSome := by
      intro other present found
      by_cases same : other = block.blockNumber
      · subst same
        rw [update_self] at found
        cases found
        exact ⟨rfl, orderly.2.1⟩
      · rw [update_of_ne same] at found
        exact ahead.stored other present found
    split
    · next raised =>
      exact ⟨orderly.1, UInt64.le_trans ahead.below (UInt64.le_of_lt raised.2), known, stored⟩
    · exact ⟨ahead.tip, ahead.below, known, stored⟩
  | restart =>
    rw [show after = _ from taken]
    exact ⟨ahead.tip, UInt64.zero_le, fun _ _ unset => absurd rfl unset, ahead.stored⟩

/-! ## The answer -/

/-- A block number that the scan reaches. -/
def InWindow (node : Node) (number : UInt64) : Prop :=
  number ≤ node.latestBlock ∧ node.latestBlock.toNat ≤ number.toNat + 10000

/-- The scan finds the highest committed number below its start. -/
theorem scanDown_highest : ∀ {rounds n low : Nat}, low ≤ n → n < low + rounds → n < 2 ^ 64 →
    (committed blocks (UInt64.ofNat low)).isSome →
    ∃ highest : UInt64, low ≤ highest.toNat ∧ highest.toNat ≤ n ∧
      (committed blocks highest).isSome ∧ scanDown blocks rounds n = committed blocks highest ∧
      ∀ other : UInt64, other.toNat ≤ n → (committed blocks other).isSome → other ≤ highest := by
  intro rounds
  induction rounds with
  | zero =>
    intro n low above reach
    omega
  | succ rounds ih =>
    intro n low above reach small found
    have number : (UInt64.ofNat n).toNat = n := toNat_ofNat_of_lt' small
    rw [scanDown]
    cases here : committed blocks (UInt64.ofNat n) with
    | some block =>
      refine ⟨UInt64.ofNat n, by omega, by omega, by simp [here], here.symm, ?_⟩
      intro other below _
      rw [le_iff_toNat_le, number]
      exact below
    | none =>
      have apart : ∀ k, k = n → ¬ (committed blocks (UInt64.ofNat k)).isSome := by
        rintro _ rfl
        simp [here]
      have lower : low ≠ n := fun same => apart low same found
      obtain ⟨highest, least, most, isCommitted, scan, greatest⟩ :=
        @ih (n - 1) low (by omega) (by omega) (by omega) found
      refine ⟨highest, least, by omega, isCommitted, scan, fun other below known => ?_⟩
      refine greatest other ?_ known
      have different : other.toNat ≠ n := fun same => apart other.toNat same (by simpa using known)
      omega

theorem latestCommitted_highest (ahead : Ahead node) (inWindow : InWindow node number)
    (known : (committed node.blocks number).isSome) :
    ∃ highest, InWindow node highest ∧ (committed node.blocks highest).isSome ∧
      (∀ other, InWindow node other → (committed node.blocks other).isSome → other ≤ highest) ∧
      latestCommitted node = committed node.blocks highest := by
  have tip := ahead.tip
  unfold latestCommitted
  split
  · next block found =>
    split at found
    · next set =>
      have isCommitted : (committed node.blocks node.latestL1CommitCache).isSome := by simp [found]
      have unset : node.latestL1CommitCache ≠ 0 := by
        rintro zero
        simp [zero] at set
      have least := le_iff_toNat_le.mp (ahead.ahead number known unset)
      have window := inWindow.2
      refine ⟨_, ⟨ahead.below, by omega⟩, isCommitted, fun other _ found => ?_, found.symm⟩
      exact ahead.ahead other found unset
    · cases found
  · rw [if_pos tip]
    have window := inWindow.2
    have below := le_iff_toNat_le.mp inWindow.1
    obtain ⟨highest, least, most, isCommitted, scan, greatest⟩ := @scanDown_highest node.blocks
      (min node.latestBlock.toNat 10000 + 1) _ number.toNat below (by omega) (by omega)
      (by simpa using known)
    exact ⟨highest, ⟨le_iff_toNat_le.mpr most, by omega⟩, isCommitted,
      fun other inside found => greatest other (le_iff_toNat_le.mp inside.1) found, scan⟩

def numbered (blockNumber : UInt64) : ZKBlock := { blockNumber, zkvmAddr := some 4 }

/-- A block without transactions has no receipts. -/
def noReceipts : ReceiptLookup where
  receipts := some []
  encoded := none
  keccak256 := id

end Jmdn.L1finality
