import Jmdn.Security.Validation

/-!
# Nil pointers in block validation

Which blocks make `CheckZKBlockValidation` read through a nil pointer on some
node.  A sender is read before any check; a value is read once the transactions
before it passed, so a crash there needs a signed transaction and a node whose
accounts can pay for the ones before it.
-/

namespace Jmdn.Security

open Config DBOPs DBOPs.Accounts Function Go List

variable {tx : Transaction} {cache : SecurityCache} {voter : Voter} {sender : Address}
  {txs before after : List Transaction} {collected : List Address} {block : ZKBlock}

/-- A transaction that passes the checks before the accounts are looked at. -/
structure WellSigned (crypto : Crypto) (chain : Int) (tx : Transaction) : Prop where
  onChain : tx.chainID = some chain
  hash : checkTransactionHash crypto tx = true
  signed : checkSignature crypto (some chain) tx = true

/-- Each nonce is at least the next one of its sender; the count wraps. -/
def Rising (next : Address → UInt64) : List Transaction → Prop
  | [] => True
  | tx :: rest =>
    match tx.fromAddr with
    | none => False
    | some sender =>
      next sender ≤ tx.nonce ∧ Rising (Function.update next sender (tx.nonce + 1)) rest

/-- The transactions of a block up to one without a value that the balance check
reaches on some node. -/
structure ReachesNilValue (crypto : Crypto) (chain : Int) (before : List Transaction)
    (tx : Transaction) : Prop where
  signed : ∀ earlier ∈ before, WellSigned crypto chain earlier
  valued : ∀ earlier ∈ before, earlier.value.isSome
  rising : Rising (fun _ => 0) before
  last : WellSigned crypto chain tx
  absent : tx.value = none

theorem Rising.mono {next next' : Address → UInt64} (rising : Rising next txs)
    (below : ∀ addr, next' addr ≤ next addr) :
    Rising next' txs := by
  induction txs generalizing next next' with
  | nil => trivial
  | cons tx rest ih =>
    unfold Rising at rising ⊢
    cases known : tx.fromAddr with
    | none =>
      rw [known] at rising
      exact rising
    | some sender =>
      rw [known] at rising
      refine ⟨UInt64.le_trans (below sender) rising.1, ih rising.2 fun addr => ?_⟩
      by_cases same : addr = sender
      · rw [same, update_self, update_self]
        exact UInt64.le_refl _
      · rw [update_of_ne same, update_of_ne same]
        exact below addr

/-! ## Where a nil pointer is read -/

theorem checkChainID_ne_nil (voter : Voter) (tx : Transaction) :
    checkChainID voter tx ≠ .error .nilDereference := by
  unfold checkChainID
  split
  · simp
  · simp
  · split <;> simp

theorem require_ne_nil (passed : Bool) (cause : ValidationError) :
    require passed cause ≠ .error .nilDereference := by
  cases passed <;> simp [require]

theorem checkAddressExistWithCache_ne_nil (voter : Voter) (tx : Transaction) (sender : Address)
    (cache : SecurityCache) :
    checkAddressExistWithCache voter tx sender cache ≠ .error .nilDereference := by
  unfold checkAddressExistWithCache
  split
  · simp
  · split
    · simp
    · split <;> simp

theorem checkNonceWithCache_ne_nil (tx : Transaction) (sender : Address) (cache : SecurityCache) :
    checkNonceWithCache tx sender cache ≠ .error .nilDereference := by
  unfold checkNonceWithCache
  split
  · simp
  · split <;> simp

theorem checkAddressExistWithCache_eq_ok_iff {result : Unit} :
    checkAddressExistWithCache voter tx sender cache = .ok result ↔
      (cache.getAccount sender).isSome ∧
        ∀ receiver ∈ tx.toAddr, voter.allowNewReceiverAccounts = true ∨
          (cache.getAccount receiver).isSome := by
  unfold checkAddressExistWithCache
  cases cache.getAccount sender with
  | none => simp
  | some doc =>
    cases tx.toAddr with
    | none => simp
    | some receiver =>
      cases voter.allowNewReceiverAccounts <;> simp [Option.isSome_iff_ne_none]

theorem checkBalanceWithCache_eq_nil_iff :
    checkBalanceWithCache tx sender cache = .error .nilDereference ↔
      tx.value = none ∧
        ∃ doc, cache.getAccount sender = some doc ∧ (setString doc.balance).isSome := by
  unfold checkBalanceWithCache
  cases cache.getAccount sender with
  | none => simp
  | some doc =>
    cases parsed : setString doc.balance with
    | none => simp [parsed]
    | some held =>
      cases tx.value with
      | none => simp [parsed]
      | some cost =>
        simp only [parsed]
        split
        · simp
        · split <;> simp

/-- The checks of a transaction with a sender read a nil value exactly when they
get to the balance. -/
theorem allChecksWithConn_eq_nil_iff (known : tx.fromAddr = some sender) :
    allChecksWithConn voter tx cache = .error .nilDereference ↔
      tx.value = none ∧
      (∃ chain, voter.expectedChainID = some chain ∧ WellSigned voter.crypto chain tx) ∧
      (∃ doc, cache.getAccount sender = some doc ∧ (setString doc.balance).isSome) ∧
      ∀ receiver ∈ tx.toAddr, voter.allowNewReceiverAccounts = true ∨
        (cache.getAccount receiver).isSome := by
  have pointer : ∀ addr, dereference (some sender) = .ok addr ↔ sender = addr := by
    simp [dereference]
  have read : dereference (some sender) ≠ .error .nilDereference := by simp [dereference]
  unfold allChecksWithConn
  simp only [bind_eq_error_iff, known, read, pointer, checkChainID_ne_nil, require_ne_nil,
    checkAddressExistWithCache_ne_nil, checkNonceWithCache_ne_nil, checkChainID_eq_ok_iff,
    require_eq_ok_iff, checkAddressExistWithCache_eq_ok_iff, checkBalanceWithCache_eq_nil_iff,
    false_or, and_false, exists_false, or_false, exists_const, exists_eq_left']
  constructor
  · rintro ⟨⟨chain, configured, onChain⟩, hash, signed, ⟨-, admitted⟩, absent, funded⟩
    rw [configured] at signed
    exact ⟨absent, ⟨chain, configured, onChain, hash, signed⟩, funded, admitted⟩
  · rintro ⟨absent, ⟨chain, configured, signed⟩, ⟨doc, cached, parsed⟩, admitted⟩
    refine ⟨⟨chain, configured, signed.onChain⟩, signed.hash, ?_, ⟨?_, admitted⟩, absent, doc,
      cached, parsed⟩
    · rw [configured]
      exact signed.signed
    · rw [cached]
      rfl

/-- A passed transaction counts the nonce of its sender on. -/
theorem Approved.txNonce_eq {before after : SecurityCache}
    (approved : Approved voter tx before after) (known : tx.fromAddr = some sender) :
    after.accounts.txNonce = update before.accounts.txNonce sender (tx.nonce + 1) := by
  funext addr
  rw [approved.txNonce, known, update_apply]
  exact if_congr (by rw [Option.some.injEq, eq_comm]) rfl rfl

/-- A crash of the loop names the transaction without a value and the ones that
passed before it. -/
theorem validateTransactions_nil (known : ∀ tx ∈ txs, tx.fromAddr.isSome)
    (crashed : validateTransactions voter txs cache = .error .nilDereference) :
    ∃ chain before tx after, voter.expectedChainID = some chain ∧ txs = before ++ tx :: after ∧
      (∀ earlier ∈ before, WellSigned voter.crypto chain earlier ∧ earlier.value.isSome) ∧
      Rising cache.accounts.txNonce before ∧ WellSigned voter.crypto chain tx ∧
      tx.value = none := by
  induction txs generalizing cache with
  | nil => cases crashed
  | cons tx rest ih =>
    rcases bind_eq_error crashed with first | ⟨middle, passed, later⟩
    · obtain ⟨sender, present⟩ := Option.isSome_iff_exists.mp (known tx mem_cons_self)
      obtain ⟨absent, ⟨chain, configured, signed⟩, -⟩ :=
        (allChecksWithConn_eq_nil_iff present).mp first
      exact ⟨chain, [], tx, rest, configured, rfl, by simp, trivial, signed, absent⟩
    obtain ⟨chain, before, last, after, configured, rfl, earlier, rising, signed, absent⟩ :=
      ih (fun tx mem => known tx (mem_cons_of_mem _ mem)) later
    have approved := allChecksWithConn_ok passed
    obtain ⟨sender, -, sent, -, -, -, fresh⟩ := approved.funded
    refine ⟨chain, tx :: before, last, after, configured, rfl, ?_, ?_, signed, absent⟩
    · rw [forall_mem_cons]
      refine ⟨⟨⟨?_, approved.hash, ?_⟩, approved.value⟩, earlier⟩
      · rw [← approved.chain, configured]
      · rw [← configured]
        exact approved.signed
    · unfold Rising
      rw [sent]
      rw [approved.txNonce_eq sent] at rising
      exact ⟨fresh, rising⟩

/-! ## A node that reaches it -/

section

variable {voter : Voter} {chain : Int} {tx : Transaction} {sender : Address}
  {cache : SecurityCache} {held : Int}

/-- A signed transaction of a cached sender comes down to its balance and nonce. -/
theorem allChecksWithConn_eq (admits : voter.allowNewReceiverAccounts = true)
    (configured : voter.expectedChainID = some chain) (signed : WellSigned voter.crypto chain tx)
    (known : tx.fromAddr = some sender) (cached : (cache.accounts.get sender).isSome) :
    allChecksWithConn voter tx cache =
      checkBalanceWithCache tx sender cache >>= checkNonceWithCache tx sender := by
  have chained : checkChainID voter tx = .ok () :=
    checkChainID_eq_ok_iff.mpr ⟨chain, configured, signed.onChain⟩
  have found : checkAddressExistWithCache voter tx sender cache = .ok () :=
    checkAddressExistWithCache_eq_ok_iff.mpr ⟨cached, fun _ _ => .inl admits⟩
  have recovered : checkSignature voter.crypto voter.expectedChainID tx = true := by
    rw [configured]
    exact signed.signed
  unfold allChecksWithConn
  rw [chained, signed.hash, recovered, known]
  change (checkAddressExistWithCache voter tx sender cache >>= fun _ =>
    checkBalanceWithCache tx sender cache >>= checkNonceWithCache tx sender) = _
  rw [found]
  rfl

theorem checkBalanceWithCache_passes (cached : (cache.accounts.get sender).isSome)
    (readable : cache.accounts.amount sender = some held) {cost : Int}
    (value : tx.value = some cost) (enough : cost + tx.gasFee ≤ held) :
    ∃ deducted, checkBalanceWithCache tx sender cache = .ok deducted := by
  obtain ⟨doc, stored⟩ := Option.isSome_iff_exists.mp cached
  rw [amount_of_stored stored] at readable
  have covered : ¬ held < cost + tx.gasFee := by omega
  cases receiver : tx.toAddr with
  | _ =>
    simp [checkBalanceWithCache, SecurityCache.getAccount, stored, readable, value, covered,
      receiver]

theorem checkNonceWithCache_passes (cached : (cache.accounts.get sender).isSome)
    (fresh : cache.accounts.txNonce sender ≤ tx.nonce) :
    ∃ next, checkNonceWithCache tx sender cache = .ok next := by
  obtain ⟨doc, stored⟩ := Option.isSome_iff_exists.mp cached
  rw [txNonce_of_stored stored] at fresh
  simp [checkNonceWithCache, SecurityCache.getAccount, stored, UInt64.not_lt.mpr fresh]

/-- The most a transaction can take from an account. -/
def spending (tx : Transaction) : Nat :=
  (tx.value.getD 0).natAbs + (tx.value.getD 0 + tx.gasFee).natAbs

/-- A cache with an account that can pay the given amount. -/
def CanPay (cache : SecurityCache) (amount : Nat) (address : Address) : Prop :=
  (cache.accounts.get address).isSome ∧
    ∃ held, cache.accounts.amount address = some held ∧ amount ≤ held

/-- One transaction takes at most its spending from every account. -/
theorem CanPay.step {after : SecurityCache} {rest : Nat} {addr : Address}
    (approved : Approved voter tx cache after)
    (funded : CanPay cache (spending tx + rest) addr) : CanPay after rest addr := by
  obtain ⟨cached, held, readable, enough⟩ := funded
  refine ⟨by rw [approved.cached]; exact cached, ?_⟩
  rw [approved.amount addr cached, readable]
  refine ⟨_, rfl, ?_⟩
  dsimp only
  rw [changeAt_apply, changeAt_apply]
  unfold spending at enough
  split <;> split <;> omega

/-- Transactions that can be paid pass, up to the one without a value. -/
theorem validateTransactions_reaches (admits : voter.allowNewReceiverAccounts = true)
    (configured : voter.expectedChainID = some chain)
    (signed : ∀ earlier ∈ before, WellSigned voter.crypto chain earlier)
    (valued : ∀ earlier ∈ before, earlier.value.isSome)
    (rising : Rising cache.accounts.txNonce before) (last : WellSigned voter.crypto chain tx)
    (absent : tx.value = none)
    (funded : ∀ other ∈ before ++ [tx], ∀ sender, other.fromAddr = some sender →
      CanPay cache ((before.map spending).sum) sender) :
    validateTransactions voter (before ++ tx :: after) cache = .error .nilDereference := by
  induction before generalizing cache with
  | nil =>
    obtain ⟨sender, known⟩ := Option.isSome_iff_exists.mp (fromAddr_of_checkSignature last.signed)
    obtain ⟨cached, held, readable, -⟩ := funded tx (by simp) sender known
    obtain ⟨doc, stored⟩ := Option.isSome_iff_exists.mp cached
    rw [amount_of_stored stored] at readable
    rw [nil_append, validateTransactions, (allChecksWithConn_eq_nil_iff known).mpr
      ⟨absent, ⟨chain, configured, last⟩, ⟨doc, stored, by rw [readable]; rfl⟩,
        fun _ _ => .inl admits⟩]
    rfl
  | cons first rest ih =>
    rw [forall_mem_cons] at signed valued
    obtain ⟨sender, known⟩ :=
      Option.isSome_iff_exists.mp (fromAddr_of_checkSignature signed.1.signed)
    obtain ⟨cost, value⟩ := Option.isSome_iff_exists.mp valued.1
    unfold Rising at rising
    rw [known] at rising
    obtain ⟨cached, held, readable, enough⟩ := funded first (by simp) sender known
    rw [map_cons, sum_cons, spending, value] at enough
    obtain ⟨deducted, paid⟩ := checkBalanceWithCache_passes cached readable value (by
      rw [Option.getD_some] at enough
      omega)
    obtain ⟨-, -, -, others, -⟩ := checkBalanceWithCache_ok paid
    obtain ⟨next, counted⟩ := checkNonceWithCache_passes
      (by rw [(others sender).1]; exact cached) (by rw [(others sender).2]; exact rising.1)
    have passed : allChecksWithConn voter first cache = .ok next := by
      rw [allChecksWithConn_eq admits configured signed.1 known cached, paid]
      exact counted
    have approved := allChecksWithConn_ok passed
    rw [cons_append, validateTransactions, passed]
    refine ih signed.2 valued.2 ?_ ?_
    · rw [approved.txNonce_eq known]
      exact rising.2
    · intro other mem holder held
      exact (funded other (mem_cons_of_mem first mem) holder held).step approved

end

/-! ## The blocks that crash -/

theorem collectAddresses_eq_none_iff :
    collectAddresses txs = none ↔ ∃ tx ∈ txs, tx.fromAddr = none := by
  induction txs with
  | nil => simp [collectAddresses]
  | cons tx rest ih =>
    rw [exists_mem_cons_iff, ← ih, collectAddresses]
    cases tx.fromAddr with
    | none => simp
    | some sender => cases collectAddresses rest <;> simp

theorem sender_mem_collectAddresses (found : collectAddresses txs = some collected) (mem : tx ∈ txs)
    (known : tx.fromAddr = some sender) : sender ∈ collected := by
  induction txs generalizing collected with
  | nil => cases mem
  | cons first rest ih =>
    unfold collectAddresses at found
    split at found
    · next head others held later =>
      cases found
      rcases mem_cons.mp mem with rfl | inRest
      · cases known.symm.trans held
        exact mem_cons_self
      · exact mem_cons_of_mem _ (mem_append_right _ (ih later inRest))
    · cases found

theorem nilDereference_of_absent_sender {store : Accounts} (connected : voter.connectionsOk = true)
    (absent : ∃ tx ∈ block.transactions, tx.fromAddr = none) :
    checkZKBlockValidation voter store block = .error .nilDereference := by
  have nonempty : block.transactions ≠ [] := by
    obtain ⟨tx, mem, -⟩ := absent
    exact ne_nil_of_mem mem
  simp [checkZKBlockValidation, nonempty, connected, collectAddresses_eq_none_iff.mpr absent]

/-- Every account holds the same balance. -/
def richStore (balance : Int) : Accounts where
  get := fun address => some { address, balance := formatInt balance }
  keyed := by
    intro address doc found
    cases found
    rfl

theorem richStore_canPay {amount : Nat} {address : Address} (mem : address ∈ collected) :
    CanPay (SecurityCache.loadAccounts (richStore amount) collected) amount address := by
  have stored : (SecurityCache.loadAccounts (richStore amount) collected).accounts.get address =
      some { address, balance := formatInt amount } := if_pos mem
  exact ⟨by rw [stored]; rfl, amount, amount_of_formatted stored rfl, le_refl _⟩

/-- A voter of the chain whose database answers. -/
def chainVoterOf (crypto : Crypto) (chain : Int) : Voter :=
  { expectedChainID := some chain, crypto }

theorem nilDereference_of_absent_value {crypto : Crypto} {chain : Int}
    (known : ¬ ∃ tx ∈ block.transactions, tx.fromAddr = none)
    (parts : block.transactions = before ++ tx :: after)
    (reaches : ReachesNilValue crypto chain before tx) :
    checkZKBlockValidation (chainVoterOf crypto chain) (richStore (before.map spending).sum) block =
      .error .nilDereference := by
  obtain ⟨collected, found⟩ := Option.ne_none_iff_exists'.mp
    (mt collectAddresses_eq_none_iff.mp known)
  have inside : ∀ other ∈ before ++ [tx], other ∈ block.transactions := by
    intro other mem
    rw [parts, append_cons]
    exact mem_append_left after mem
  have rising : Rising (SecurityCache.loadAccounts (richStore (before.map spending).sum)
      collected).accounts.txNonce before := by
    refine reaches.rising.mono fun addr => ?_
    rw [Accounts.txNonce]
    change (Option.elim (if _ then _ else _) _ _) ≤ _
    split <;> exact UInt64.le_refl _
  have crashed : validateTransactions (chainVoterOf crypto chain) block.transactions
      (SecurityCache.loadAccounts (richStore (before.map spending).sum) collected) =
        .error .nilDereference := by
    rw [parts]
    exact validateTransactions_reaches rfl rfl reaches.signed reaches.valued rising reaches.last
      reaches.absent fun other mem sender held => richStore_canPay
        (sender_mem_collectAddresses found (inside other mem) held)
  have nonempty : block.transactions ≠ [] := by
    rw [parts]
    simp
  rw [checkZKBlockValidation, if_neg nonempty, if_neg (by simp [chainVoterOf]), found]
  dsimp only
  rw [if_neg (by simp [chainVoterOf]), crashed]

/-- Block validation reads a nil pointer on some node exactly when a sender is
absent, or a value is absent in a signed transaction whose predecessors can pass. -/
theorem exists_nilDereference_iff (crypto : Crypto) (block : ZKBlock) :
    (∃ voter store, voter.crypto = crypto ∧
        checkZKBlockValidation voter store block = .error .nilDereference) ↔
      (∃ tx ∈ block.transactions, tx.fromAddr = none) ∨
        ∃ chain before tx after, block.transactions = before ++ tx :: after ∧
          ReachesNilValue crypto chain before tx := by
  by_cases absent : ∃ tx ∈ block.transactions, tx.fromAddr = none
  · exact iff_of_true ⟨chainVoterOf crypto 0, richStore 0, rfl,
      nilDereference_of_absent_sender rfl absent⟩ (.inl absent)
  constructor
  · rintro ⟨voter, store, rfl, crashed⟩
    obtain ⟨collected, found⟩ := Option.ne_none_iff_exists'.mp
      (mt collectAddresses_eq_none_iff.mp absent)
    have known : ∀ tx ∈ block.transactions, tx.fromAddr.isSome := by
      intro tx mem
      rw [Option.isSome_iff_ne_none]
      exact fun missing => absent ⟨tx, mem, missing⟩
    unfold checkZKBlockValidation at crashed
    rw [found] at crashed
    dsimp only at crashed
    split at crashed
    · cases crashed
    split at crashed
    · cases crashed
    split at crashed
    · cases crashed
    · split at crashed
      · next refusal failed =>
        cases crashed
        obtain ⟨chain, before, tx, after, -, parts, earlier, rising, last, missing⟩ :=
          validateTransactions_nil known failed
        exact .inr ⟨chain, before, tx, after, parts,
          ⟨fun other mem => (earlier other mem).1,
            fun other mem => (earlier other mem).2,
            rising.mono fun _ => UInt64.zero_le, last, missing⟩⟩
      · split at crashed <;> cases crashed
  · rintro (missing | ⟨chain, before, tx, after, parts, reaches⟩)
    · exact absurd missing absent
    · exact ⟨_, _, rfl, nilDereference_of_absent_value absent parts reaches⟩

end Jmdn.Security
