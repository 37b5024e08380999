import Jmdn.DBOPs.ReconKeys

/-!
# Groups of a reconciled block

The partition cuts the pending transactions into consecutive chunks that fit one
commit.  Committing the chunks in turn adds the effects of all their
transactions; a failure in between leaves the effects and the markers of the
chunks before it.
-/

namespace Jmdn.DBOPs

open Config Go Ledger List

variable {block : ZKBlock} {chunk txs second first : List Transaction} {env : ReconEnv}
  {number : UInt64} {db before after middle db' : DB} {expectHash : Option Hash} {budget : Nat}
  {accounts covering : List Address} {store : Accounts} {group : List Hash} {nanos : Int64}
  {deltas : Deltas}

/-! ## The partition -/

/-- A chunk whose accounts and markers stay within the budget, or a single
transaction. -/
def FitsBudget (block : ZKBlock) (budget : Nat) (accounts : List Address)
    (chunk : List Transaction) : Prop :=
  (∀ tx ∈ chunk, ∀ address ∈ txTouchedAccounts block tx, address ∈ accounts) ∧
    (accounts.length + chunk.length ≤ budget ∨
      ∃ tx, chunk = [tx])

theorem mem_insertAccounts {candidates : List Address} {addr : Address} :
    addr ∈ insertAccounts candidates accounts ↔ addr ∈ candidates ∨ addr ∈ accounts := by
  induction candidates generalizing accounts with
  | nil => simp [insertAccounts]
  | cons first rest ih =>
    change addr ∈ insertAccounts rest (accounts.insert first) ↔ _
    rw [ih, mem_insert_iff, mem_cons, or_left_comm, or_assoc]

theorem length_insertAccounts_le (candidates accounts : List Address) :
    (insertAccounts candidates accounts).length ≤
      accounts.length + candidates.countP fun addr => addr ∉ accounts := by
  induction candidates generalizing accounts with
  | nil => simp [insertAccounts]
  | cons first rest ih =>
    change (insertAccounts rest (accounts.insert first)).length ≤ _
    by_cases known : first ∈ accounts
    · rw [insert_of_mem known]
      simpa [known] using ih accounts
    have fewer : (rest.countP fun addr => addr ∉ first :: accounts) ≤
        rest.countP fun addr => addr ∉ accounts := by
      apply countP_mono_left
      intro addr _ outside
      simp only [mem_cons, not_or, decide_eq_true_eq] at outside ⊢
      exact outside.2
    have step := ih (first :: accounts)
    rw [insert_of_not_mem known]
    simp only [length_cons] at step
    simp only [countP_cons, known, not_false_eq_true, decide_true, if_true]
    omega

theorem fitsBudget_singleton (block : ZKBlock) (budget : Nat) (tx : Transaction) :
    FitsBudget block budget (insertAccounts (txTouchedAccounts block tx) []) [tx] := by
  exact ⟨by simp [mem_insertAccounts], Or.inr ⟨tx, rfl⟩⟩

/-- A transaction for which there is room joins the current group. -/
theorem FitsBudget.append {current : List Transaction}
    (fits : FitsBudget block budget accounts current) {tx : Transaction}
    (room : accounts.length + (txTouchedAccounts block tx).countP
      (fun addr => addr ∉ accounts) + current.length + 1 ≤ budget) :
    FitsBudget block budget (insertAccounts (txTouchedAccounts block tx) accounts)
      (current ++ [tx]) := by
  refine ⟨?_, Or.inl ?_⟩
  · intro other mem addr touched
    rw [mem_insertAccounts]
    rcases mem_append.mp mem with earlier | last
    · exact .inr (fits.1 other earlier addr touched)
    · rw [mem_singleton] at last
      exact .inl (last ▸ touched)
  · have grown := length_insertAccounts_le (txTouchedAccounts block tx) accounts
    simp only [length_append, length_singleton]
    omega

/-- The groups are the pending transactions, cut into non-empty chunks that
fit. -/
theorem partitionFrom_chunks (block : ZKBlock) (pending : Hash → Bool) (budget : Nat) :
    ∀ (txs : List Transaction) (accounts : List Address) (current : List Transaction),
      (current ≠ [] → FitsBudget block budget accounts current) →
      (current = [] → accounts = []) →
      ∃ chunks : List (List Transaction),
        partitionFrom block pending budget txs accounts (current.map Transaction.hash) =
          chunks.map (List.map Transaction.hash) ∧
        chunks.flatten = current ++ txs.filter (fun tx => pending tx.hash) ∧
        ∀ chunk ∈ chunks, chunk ≠ [] ∧ ∃ covering, FitsBudget block budget covering chunk := by
  intro txs
  induction txs with
  | nil =>
    intro accounts current fits _
    by_cases none : current = []
    · exact ⟨[], by simp [partitionFrom, none], by simp [none], by simp⟩
    · exact ⟨[current], by simp [partitionFrom, none], by simp,
        by simpa using ⟨none, accounts, fits none⟩⟩
  | cons tx rest ih =>
    intro accounts current fits fresh
    unfold partitionFrom
    cases wanted : pending tx.hash with
    | false =>
      simpa [wanted] using ih accounts current fits fresh
    | true =>
      simp only [Bool.not_true, Bool.false_eq_true, if_false]
      split
      · next full =>
        obtain ⟨chunks, groups, flat, small⟩ :=
          ih (insertAccounts (txTouchedAccounts block tx) []) [tx]
            (fun _ => fitsBudget_singleton block budget tx) (by simp)
        have nonempty : current ≠ [] := by simpa using full.1
        refine ⟨current :: chunks, ?_, ?_, ?_⟩
        · rw [map_cons, ← groups]
          rfl
        · simp [flat, wanted]
        · intro chunk mem
          rcases mem_cons.mp mem with rfl | later
          · exact ⟨nonempty, accounts, fits nonempty⟩
          · exact small chunk later
      · next room =>
        have fitsNext : FitsBudget block budget
            (insertAccounts (txTouchedAccounts block tx) accounts) (current ++ [tx]) := by
          by_cases none : current = []
          · rw [none, fresh none]
            exact fitsBudget_singleton block budget tx
          refine (fits none).append ?_
          simp only [ne_eq, map_eq_nil_iff, none, not_false_eq_true, true_and,
            length_map, not_lt] at room
          exact room
        obtain ⟨chunks, groups, flat, small⟩ :=
          ih (insertAccounts (txTouchedAccounts block tx) accounts) (current ++ [tx])
            (fun _ => fitsNext) (by simp)
        refine ⟨chunks, ?_, ?_, small⟩
        · rw [← groups, map_append]
          rfl
        · simp [flat, wanted]

theorem partitionReconGroups_chunks (block : ZKBlock) (pending : Hash → Bool) (budget : Nat) :
    ∃ chunks : List (List Transaction),
      partitionReconGroups block pending budget = chunks.map (List.map Transaction.hash) ∧
      chunks.flatten = block.transactions.filter (fun tx => pending tx.hash) ∧
      ∀ chunk ∈ chunks, chunk ≠ [] ∧ chunk.Sublist block.transactions ∧
        ∃ covering, FitsBudget block budget covering chunk := by
  obtain ⟨chunks, groups, flat, fits⟩ := partitionFrom_chunks block pending budget
    block.transactions [] [] (by simp) (by simp)
  refine ⟨chunks, groups, flat, fun chunk mem => ⟨(fits chunk mem).1, ?_,
    (fits chunk mem).2⟩⟩
  have inFlat := sublist_flatten_of_mem mem
  rw [flat] at inFlat
  exact inFlat.trans filter_sublist

/-! ## Committing the groups -/

/-- Transactions of a block were reconciled. -/
structure Reconciles (block : ZKBlock) (txs : List Transaction) (before after : DB) : Prop where
  adds : Adds before.accounts.amount after.accounts.amount (totalEffect block txs)
    (DeltaTouched block txs)
  txNonce : ∀ address, (after.accounts.txNonce address).toNat =
    (nonceCandidates txs address).foldl max (before.accounts.txNonce address).toNat
  txCountSent : ∀ address, after.accounts.txCountSent address =
    before.accounts.txCountSent address + UInt64.ofNat (sentCount txs address)
  txApplied : ∀ hash, after.txApplied hash =
    (decide (hash ∈ txs.map Transaction.hash) || before.txApplied hash)
  others : after = { before with accounts := after.accounts, txProcessed := after.txProcessed }

theorem Reconciles.refl (block : ZKBlock) (db : DB) : Reconciles block [] db db where
  adds := by simpa [totalEffect, DeltaTouched] using Adds.refl db.accounts.amount
  txNonce := by simp [nonceCandidates]
  txCountSent := by simp [sentCount]
  txApplied := by simp
  others := rfl

theorem Reconciles.trans (one : Reconciles block first before middle)
    (two : Reconciles block second middle after) :
    Reconciles block (first ++ second) before after where
  adds := (one.adds.trans two.adds).congr (by simp [totalEffect])
    (deltaTouched_append block first second).symm
  txNonce addr := by
    rw [two.txNonce, one.txNonce]
    simp [nonceCandidates]
  txCountSent addr := by
    rw [two.txCountSent, one.txCountSent]
    simp [sentCount, UInt64.add_assoc]
  txApplied hash := by
    rw [two.txApplied, one.txApplied, map_append, ← Bool.or_assoc,
      Bool.or_comm (decide (hash ∈ second.map Transaction.hash))]
    simp only [mem_append, Bool.decide_or]
  others := by rw [two.others, one.others]

def groupDeltas (block : ZKBlock) (group : List Hash) : Deltas :=
  computeBlockDeltas block fun hash => hash ∉ group

/-- One round of the loop over the groups. -/
def commitChunk (env : ReconEnv) (block : ZKBlock) (chunk : List Transaction) (db : DB) :
    Except ReconError DB :=
  commitReconGroup env db (groupDeltas block (chunk.map Transaction.hash))
    (chunk.map Transaction.hash) (block.timestamp * nanosPerSecond)

/-- A chunk is recovered from its hashes when no two transactions share one. -/
theorem filter_chunk (inside : chunk.Sublist txs) (distinct : (txs.map Transaction.hash).Nodup) :
    txs.filter (fun tx => tx.hash ∈ chunk.map Transaction.hash) = chunk := by
  induction inside with
  | slnil => rfl
  | @cons shorter rest tx inside ih =>
    rw [map_cons, nodup_cons] at distinct
    have absent : tx.hash ∉ shorter.map Transaction.hash := fun mem =>
      distinct.1 ((inside.map _).subset mem)
    rw [filter_cons_of_neg (by simpa using absent)]
    exact ih distinct.2
  | @cons_cons shorter rest tx inside ih =>
    rw [map_cons, nodup_cons] at distinct
    rw [filter_cons_of_pos (by simp)]
    congr 1
    rw [← ih distinct.2]
    apply filter_congr
    intro other mem
    have different : other.hash ≠ tx.hash := fun same =>
      distinct.1 (same ▸ mem_map_of_mem mem)
    rw [ih distinct.2]
    simp [different]

/-- Skipping every hash outside a chunk of a block keeps the chunk. -/
theorem groupDeltas_chunk (inside : chunk.Sublist block.transactions)
    (distinct : (txHashes block).Nodup) :
    groupDeltas block (chunk.map Transaction.hash) =
      chunk.foldl (addTxDeltas block) Deltas.empty := by
  simp only [groupDeltas, computeBlockDeltas, decide_not, Bool.not_not]
  rw [filter_chunk inside distinct]

theorem commitReconGroup_txApplied {updatedAtNanos : Int64}
    (done : commitReconGroup env db deltas group updatedAtNanos = .ok db') (hash : Hash) :
    db'.txApplied hash = (decide (hash ∈ group) || db.txApplied hash) := by
  rw [DB.txApplied, (commitReconGroup_ok done).2.1, Markers.isApplied_writeAll, DB.txApplied]
  by_cases mem : hash ∈ group <;> simp [mem]

theorem commitReconGroup_reconciles (inside : chunk.Sublist block.transactions)
    (distinct : (txHashes block).Nodup) (done : commitChunk env block chunk db = .ok db') :
    Reconciles block chunk db db' := by
  obtain ⟨commits, -, others⟩ := commitReconGroup_ok done
  rw [groupDeltas_chunk inside distinct] at commits
  have deltas := @foldl_addTxDeltas block chunk Deltas.empty fun _ _ => rfl
  constructor
  case adds =>
    apply commits.adds.congr _ (Set.ext fun _ => mem_keys_foldl_addTxDeltas)
    rw [deltas.change]
    funext addr
    simp [Deltas.change, Deltas.entry, Deltas.empty]
  case txNonce =>
    intro addr
    have start : (Deltas.empty.entry addr).txNonce.toNat = 0 := rfl
    rw [commits.txNonce, deltas.txNonce, start, show ∀ stored : Nat,
      max stored ((nonceCandidates chunk addr).foldl max 0) =
        (nonceCandidates chunk addr).foldl max (max stored 0) from
      fun _ => foldl_assoc.symm, Nat.max_zero]
  case txCountSent =>
    intro addr
    rw [commits.txCountSent, deltas.txCountSent]
    simp [Deltas.entry, Deltas.empty]
  case txApplied => exact commitReconGroup_txApplied done
  case others => exact others

/-- The transactions of a block whose marker is not applied. -/
def unappliedTransactions (block : ZKBlock) (db : DB) : List Transaction :=
  block.transactions.filter fun tx => !db.txApplied tx.hash

/-- The hashes the marker filter does not find. -/
def pendingTx (block : ZKBlock) (db : DB) : List Hash :=
  (txHashes block).filter fun hash => hash ∉ filterProcessedTxMarkers db.txProcessed (txHashes block)

theorem mem_pendingTx {hash : Hash} :
    hash ∈ pendingTx block db ↔ hash ∈ txHashes block ∧ db.txApplied hash = false := by
  rw [pendingTx, mem_filter, decide_eq_true_eq, mem_filterProcessedTxMarkers]
  simp +contextual [DB.txApplied]

/-- The groups `ApplyBlockRecon` commits are the unapplied transactions in
chunks that fit. -/
theorem partitionReconGroups_unapplied (block : ZKBlock) (db : DB) (budget : Nat) :
    ∃ chunks : List (List Transaction),
      partitionReconGroups block (· ∈ pendingTx block db) budget =
        chunks.map (List.map Transaction.hash) ∧
      chunks.flatten = unappliedTransactions block db ∧
      ∀ chunk ∈ chunks, chunk.Sublist block.transactions ∧
        ∃ covering, FitsBudget block budget covering chunk := by
  obtain ⟨chunks, groups, flat, fits⟩ :=
    partitionReconGroups_chunks block (· ∈ pendingTx block db) budget
  refine ⟨chunks, groups, ?_, fun chunk mem => (fits chunk mem).2⟩
  rw [flat, unappliedTransactions]
  apply filter_congr
  intro tx mem
  have listed : tx.hash ∈ txHashes block := mem_map_of_mem mem
  simp [mem_pendingTx, listed]

theorem partitionFrom_nothing :
    partitionFrom block (· ∈ ([] : List Hash)) budget txs accounts [] = [] := by
  induction txs with
  | nil => rfl
  | cons tx rest ih => exact ih

/-- A call for a stored block fails before any commit or runs the loop over the
groups. -/
theorem applyBlockReconWithin_cases (budget : Nat) (env : ReconEnv) (expectHash : Option Hash)
    (stored : db.blocks number = some block) :
    (∃ cause, applyBlockReconWithin budget env number expectHash db = (.error cause, db)) ∨
      expectHash.all (· = block.blockHash) = true ∧
      applyBlockReconWithin budget env number expectHash db = commitReconGroups env block
        (partitionReconGroups block (· ∈ pendingTx block db) budget) db := by
  unfold applyBlockReconWithin
  rw [stored]
  dsimp only
  split_ifs with same empty filters settled
  · rw [partitionReconGroups, empty]
    exact .inr ⟨same, rfl⟩
  · rw [partitionReconGroups, pendingTx, settled, partitionFrom_nothing]
    exact .inr ⟨same, rfl⟩
  · exact .inr ⟨same, rfl⟩
  · exact .inl ⟨_, rfl⟩
  · exact .inl ⟨_, rfl⟩

section

/-! What holds of every commit and is closed under going on holds of a whole
call, whatever the group budget is and wherever the call stops. -/

variable {env : ReconEnv} {block : ZKBlock} {Result : List Transaction → DB → DB → Prop}
  (refl : ∀ db, Result [] db db)
  (trans : ∀ {first second : List Transaction} {before middle after : DB},
    Result first before middle → Result second middle after → Result (first ++ second) before after)
  (commit : ∀ {chunk : List Transaction} {before after : DB}, chunk.Sublist block.transactions →
    commitChunk env block chunk before = .ok after → Result chunk before after)

include refl trans commit

/-- The loop over the groups settles a leading part of the chunks, and all of
them when it reports success. -/
theorem commitReconGroups_rule :
    ∀ (chunks : List (List Transaction)) (db : DB),
      (∀ chunk ∈ chunks, chunk.Sublist block.transactions) →
      ∃ done rest, chunks = done ++ rest ∧
        Result done.flatten db
          (commitReconGroups env block (chunks.map (List.map Transaction.hash)) db).2 ∧
        ((commitReconGroups env block (chunks.map (List.map Transaction.hash)) db).1 = .ok () →
          rest = []) := by
  intro chunks
  induction chunks with
  | nil =>
    intro db _
    exact ⟨[], [], rfl, refl db, fun _ => rfl⟩
  | cons chunk rest ih =>
    intro db inside
    rw [map_cons, commitReconGroups, ← groupDeltas, ← commitChunk]
    cases outcome : commitChunk env block chunk db with
    | error cause => exact ⟨[], chunk :: rest, rfl, refl db, by simp⟩
    | ok next =>
      have first := commit (inside chunk mem_cons_self) outcome
      obtain ⟨done, left, split, later, finished⟩ := ih next fun other mem =>
        inside other (mem_cons_of_mem _ mem)
      exact ⟨chunk :: done, left, by rw [split, cons_append], trans first later,
        finished⟩

/-- Whatever a call does to the state, it settles unapplied transactions of the
stored block, all of them when it succeeds. -/
theorem applyBlockReconWithin_rule (budget : Nat) (expectHash : Option Hash)
    (stored : db.blocks number = some block) :
    ∃ txs, txs <+: unappliedTransactions block db ∧
      Result txs db (applyBlockReconWithin budget env number expectHash db).2 ∧
      ((applyBlockReconWithin budget env number expectHash db).1 = .ok () →
        txs = unappliedTransactions block db) := by
  obtain ⟨chunks, groups, flat, inside⟩ := partitionReconGroups_unapplied block db budget
  rcases applyBlockReconWithin_cases budget env expectHash stored with ⟨cause, failed⟩ | ⟨-, call⟩
  · rw [failed]
    exact ⟨[], nil_prefix, refl db, nofun⟩
  rw [call, groups]
  obtain ⟨done, rest, split, settled, finished⟩ := commitReconGroups_rule refl trans commit chunks
    db fun chunk mem => (inside chunk mem).1
  refine ⟨done.flatten, ?_, settled, ?_⟩
  · rw [← flat, split, flatten_append]
    exact prefix_append _ _
  · intro success
    rw [← flat, split, finished success, append_nil]

end

/-- A call reconciles unapplied transactions of the stored block, all of them
when it succeeds. -/
theorem applyBlockRecon_reconciles (stored : db.blocks number = some block)
    (distinct : (txHashes block).Nodup) :
    ∃ txs, txs <+: unappliedTransactions block db ∧
      Reconciles block txs db (applyBlockRecon env number expectHash db).2 ∧
      ((applyBlockRecon env number expectHash db).1 = .ok () →
        txs = unappliedTransactions block db) :=
  applyBlockReconWithin_rule (Reconciles.refl block) Reconciles.trans
    (fun inside done => commitReconGroup_reconciles inside distinct done)
    reconGroupOpBudget expectHash stored

/-! ## Documents -/

/-- The groups of a block when the given transactions are marked. -/
def blockGroups (applied : Hash → Bool) (block : ZKBlock) : List (List Hash) :=
  partitionReconGroups block (fun hash => hash ∈ txHashes block && !applied hash)
    reconGroupOpBudget

/-- The document of an address after a group; one whose balance does not parse stays as
it is. -/
def groupChange (block : ZKBlock) (address : Address) (doc : Option Account)
    (group : List Hash) : Option Account :=
  if address ∈ (groupDeltas block group).keys then
    match applyDeltaToAccount doc address ((groupDeltas block group).entry address)
        (block.timestamp * nanosPerSecond) with
    | .ok written => some written
    | .error _ => doc
  else doc

/-- What a successful reconciliation of groups does to the database. -/
structure Reconciled (block : ZKBlock) (groups : List (List Hash)) (before after : DB) : Prop where
  get : ∀ address, after.accounts.get address =
    groups.foldl (groupChange block address) (before.accounts.get address)
  txApplied : ∀ hash, after.txApplied hash = (before.txApplied hash || hash ∈ groups.flatten)
  blocks : after.blocks = before.blocks

theorem commitReconGroup_reconciled (done : commitReconGroup env before
      (groupDeltas block group) group (block.timestamp * nanosPerSecond) = .ok after) :
    Reconciled block [group] before after := by
  obtain ⟨docs, computed, -, rfl⟩ := commitReconGroup_writes done
  constructor
  case get =>
    intro addr
    rw [foldl_cons, foldl_nil, groupChange]
    split_ifs with mem
    · obtain ⟨doc, applied, written⟩ := reconDoc_of_reconDocs computed mem
      rw [← reconDoc, applied]
      exact written before.accounts
    · exact get_of_reconDocs computed before.accounts mem
  case txApplied =>
    intro hash
    rw [commitReconGroup_txApplied done, Bool.or_comm, flatten_singleton]
  case blocks => rfl

theorem Reconciled.refl (block : ZKBlock) (db : DB) : Reconciled block [] db db where
  get _ := rfl
  txApplied hash := by simp
  blocks := rfl

theorem Reconciled.trans {first second : List (List Hash)}
    (one : Reconciled block first before middle) (two : Reconciled block second middle after) :
    Reconciled block (first ++ second) before after where
  get addr := by rw [foldl_append, ← one.get, two.get]
  txApplied hash := by
    rw [two.txApplied, one.txApplied, flatten_append, Bool.or_assoc]
    simp
  blocks := two.blocks.trans one.blocks

theorem commitReconGroups_reconciled (groups : List (List Hash)) :
    ∀ db : DB, (commitReconGroups env block groups db).1 = .ok () →
      Reconciled block groups db (commitReconGroups env block groups db).2 := by
  induction groups with
  | nil => exact fun db _ => Reconciled.refl block db
  | cons group rest ih =>
    intro db done
    rw [commitReconGroups] at done ⊢
    split at done
    · cases done
    · next middle committed =>
      exact (commitReconGroup_reconciled committed).trans (ih middle done)

/-- The groups of a block are those of its transactions the filter does not find. -/
theorem blockGroups_eq (db : DB) (block : ZKBlock) :
    blockGroups db.txApplied block =
      partitionReconGroups block (· ∈ pendingTx block db) reconGroupOpBudget := by
  rw [blockGroups]
  congr 1
  funext hash
  simp [mem_pendingTx]

/-- A successful call commits the groups of the stored block. -/
theorem applyBlockRecon_reconciled
    (done : (applyBlockRecon env number expectHash db).1 = .ok ()) :
    ∃ block, db.blocks number = some block ∧
      Reconciled block (blockGroups db.txApplied block) db
        (applyBlockRecon env number expectHash db).2 := by
  cases stored : db.blocks number with
  | none =>
    rw [applyBlockRecon, applyBlockReconWithin, stored] at done
    cases done
  | some block =>
    refine ⟨block, rfl, ?_⟩
    rw [blockGroups_eq]
    rcases applyBlockReconWithin_cases reconGroupOpBudget env expectHash stored with
      ⟨cause, failed⟩ | ⟨-, call⟩
    · rw [applyBlockRecon, failed] at done
      cases done
    · rw [applyBlockRecon, call] at done ⊢
      exact commitReconGroups_reconciled _ db done

/-! ## Markers -/

/-- Nothing but accounts and markers changed, and no marker was lost. -/
structure OnlyMarks (before after : DB) : Prop where
  kept : ∀ hash, before.txApplied hash = true → after.txApplied hash = true
  others : after = { before with accounts := after.accounts, txProcessed := after.txProcessed }

theorem OnlyMarks.refl (db : DB) : OnlyMarks db db := ⟨fun _ before => before, rfl⟩

theorem OnlyMarks.trans (first : OnlyMarks before middle) (second : OnlyMarks middle after) :
    OnlyMarks before after where
  kept hash applied := second.kept hash (first.kept hash applied)
  others := by rw [second.others, first.others]

/-- Besides, these transactions are marked. -/
structure Marks (txs : List Transaction) (before after : DB) : Prop extends
    OnlyMarks before after where
  marked : ∀ tx ∈ txs, after.txApplied tx.hash = true

theorem Marks.trans (one : Marks first before middle) (two : Marks second middle after) :
    Marks (first ++ second) before after := by
  refine ⟨one.toOnlyMarks.trans two.toOnlyMarks, fun tx mem => ?_⟩
  rcases mem_append.mp mem with early | late
  · exact two.kept tx.hash (one.marked tx early)
  · exact two.marked tx late

theorem commitReconGroup_marks (done : commitChunk env block chunk db = .ok db') :
    Marks chunk db db' := by
  have applied := commitReconGroup_txApplied done
  refine ⟨⟨fun hash marked => by rw [applied, marked, Bool.or_true],
    (commitReconGroup_ok done).2.2⟩, fun tx mem => ?_⟩
  rw [applied, decide_eq_true (mem_map_of_mem mem), Bool.true_or]

/-- A call marks unapplied transactions of the stored block, all of them when it
succeeds. -/
theorem applyBlockRecon_marks (env : ReconEnv) (expectHash : Option Hash)
    (stored : db.blocks number = some block) :
    ∃ txs, txs <+: unappliedTransactions block db ∧
      Marks txs db (applyBlockRecon env number expectHash db).2 ∧
      ((applyBlockRecon env number expectHash db).1 = .ok () →
        txs = unappliedTransactions block db) :=
  applyBlockReconWithin_rule (fun db => ⟨.refl db, by simp⟩) Marks.trans
    (fun _ done => commitReconGroup_marks done) reconGroupOpBudget expectHash stored

theorem applyBlockRecon_onlyMarks (env : ReconEnv) (number : UInt64) (expectHash : Option Hash)
    (db : DB) : OnlyMarks db (applyBlockRecon env number expectHash db).2 := by
  cases stored : db.blocks number with
  | none =>
    rw [applyBlockRecon, applyBlockReconWithin, stored]
    exact .refl db
  | some block =>
    obtain ⟨_, -, marks, -⟩ := applyBlockRecon_marks env expectHash stored
    exact marks.toOnlyMarks

/-- A successful application marks every transaction of the stored block. -/
theorem marked_of_applyBlockRecon {expectHash : Hash} (stored : db.blocks number = some block)
    (done : (applyBlockRecon env number (some expectHash) db).1 = .ok ()) :
    block.blockHash = expectHash ∧ ∀ hash ∈ txHashes block,
      (applyBlockRecon env number (some expectHash) db).2.txApplied hash = true := by
  constructor
  · rcases applyBlockReconWithin_cases reconGroupOpBudget env (some expectHash) stored with
      ⟨cause, failed⟩ | ⟨same, -⟩
    · rw [applyBlockRecon, failed] at done
      cases done
    · simpa [eq_comm] using same
  · intro hash listed
    obtain ⟨txs, -, marks, all⟩ := applyBlockRecon_marks env (some expectHash) stored
    obtain ⟨tx, mem, rfl⟩ := mem_map.mp listed
    cases applied : db.txApplied tx.hash with
    | true => exact marks.kept tx.hash applied
    | false =>
      refine marks.marked tx (all done ▸ mem_filter.mpr ⟨mem, ?_⟩)
      rw [applied, Bool.not_false]

/-! ## Success -/

theorem reconDoc_isOk {address : Address} (readable : (store.amount address).isSome)
    (deltas : Deltas) (updatedAtNanos : Int64) :
    ∃ doc, reconDoc store deltas updatedAtNanos address = .ok doc := by
  have parsed : ∃ base, (if (((store.get address).getD
      { address, balance := "0", accountType := "user", createdAt := updatedAtNanos }).balance = "")
      then some 0 else setString ((store.get address).getD
      { address, balance := "0", accountType := "user", createdAt := updatedAtNanos }).balance) =
      some base := by
    cases stored : store.get address with
    | none =>
      have nonempty : ¬("0" : String) = "" := by decide
      exact ⟨0, by rw [Option.getD_none, if_neg nonempty, Accounts.setString_zero]⟩
    | some doc =>
      rw [Accounts.amount_of_stored stored] at readable
      obtain ⟨base, found⟩ := Option.isSome_iff_exists.mp readable
      by_cases blank : doc.balance = ""
      · exact ⟨0, by rw [Option.getD_some, if_pos blank]⟩
      · exact ⟨base, by rw [Option.getD_some, if_neg blank, found]⟩
  obtain ⟨base, found⟩ := parsed
  simp only [reconDoc, applyDeltaToAccount, found]
  exact ⟨_, rfl⟩

theorem reconDocs_isOk {updatedAtNanos : Int64} {addresses : List Address}
    (readable : ∀ addr ∈ addresses, (store.amount addr).isSome) :
    ∃ docs, reconDocs store deltas updatedAtNanos addresses = .ok docs ∧
      docs.length = addresses.length := by
  induction addresses with
  | nil => exact ⟨[], rfl, rfl⟩
  | cons addr rest ih =>
    obtain ⟨docs, written, length⟩ := ih fun other mem =>
      readable other (mem_cons_of_mem _ mem)
    obtain ⟨doc, first⟩ := reconDoc_isOk (readable addr mem_cons_self) deltas
      updatedAtNanos
    refine ⟨doc :: docs, ?_, by rw [length_cons, length, length_cons]⟩
    rw [reconDocs, ← reconDoc, first, written]
    rfl

/-- Every address the transactions of a block touch holds a number. -/
def Readable (block : ZKBlock) (store : Accounts) : Prop :=
  ∀ tx ∈ block.transactions, ∀ address ∈ txTouchedAccounts block tx,
    (store.amount address).isSome

theorem Reconciles.readable (reconciles : Reconciles block txs before after)
    (readable : Readable block before.accounts) :
    Readable block after.accounts := by
  intro tx mem addr touches
  by_cases written : addr ∈ DeltaTouched block txs
  · rw [reconciles.adds.written addr written]
    rfl
  · rw [reconciles.adds.kept addr written]
    exact readable tx mem addr touches

/-- The deltas and markers of a chunk that fits stay within the budget, unless it
is a single transaction. -/
theorem FitsBudget.entries (fits : FitsBudget block budget covering chunk) :
    (chunk.foldl (addTxDeltas block) Deltas.empty).keys.length + chunk.length ≤ budget ∨
      ∃ tx, chunk = [tx] := by
  rcases fits.2 with within | single
  · left
    have accounts : (chunk.foldl (addTxDeltas block) Deltas.empty).keys.length ≤
        covering.length := by
      apply (subperm_of_subset (Deltas.nodup _) _).length_le
      intro addr mem
      obtain ⟨tx, found, touches⟩ := mem_keys_foldl_addTxDeltas.mp mem
      exact fits.1 tx found addr (txDeltaKeys_subset block tx touches)
    omega
  · exact .inr single

/-- A chunk that fits the budget fits one `ExecAll`, unless it is a single
transaction with too many accounts. -/
theorem FitsBudget.entries_le (fits : FitsBudget block budget covering chunk)
    (small : budget ≤ maxExecAllEntries)
    (light : ∀ tx ∈ chunk, (txDeltaKeys block tx).length < maxExecAllEntries) :
    (chunk.foldl (addTxDeltas block) Deltas.empty).keys.length + chunk.length ≤
      maxExecAllEntries := by
  rcases fits.entries with within | ⟨tx, rfl⟩
  · exact within.trans small
  · exact light tx mem_cons_self

/-- The entries of a group of one transaction. -/
def singleSize (block : ZKBlock) : List Hash → Nat
  | [hash] => (groupDeltas block [hash]).keys.length + 1
  | _ => 0

/-- A document that cannot be built has an unreadable balance. -/
theorem cause_of_reconDocs {addresses : List Address} {cause : ReconError}
    (failed : reconDocs store deltas nanos addresses = .error cause) :
    ∃ addr balance, cause = .invalidBalance addr balance := by
  induction addresses with
  | nil => cases failed
  | cons addr rest ih =>
    rw [reconDocs] at failed
    cases first : applyDeltaToAccount (store.get addr) addr (deltas.entry addr) nanos with
    | error other =>
      rw [first] at failed
      cases failed
      unfold applyDeltaToAccount at first
      dsimp only at first
      split at first
      · cases first
        exact ⟨_, _, rfl⟩
      · cases first
    | ok doc =>
      cases others : reconDocs store deltas nanos rest with
      | error other =>
        rw [first, others] at failed
        cases failed
        exact ih others
      | ok docs =>
        rw [first, others] at failed
        cases failed

theorem entries_of_execAllCap {entries : Nat}
    (capped : commitReconGroup env db deltas group nanos = .error (.execAllCap entries)) :
    maxExecAllEntries < deltas.keys.length + group.length := by
  unfold commitReconGroup at capped
  cases written : reconDocs db.accounts deltas nanos (deltas.keys.insertionSort (· ≤ ·)) with
  | error cause =>
    obtain ⟨addr, balance, rfl⟩ := cause_of_reconDocs written
    simp [written] at capped
  | ok docs =>
    have length := length_of_reconDocs written
    rw [length_insertionSort] at length
    rw [written] at capped
    dsimp only at capped
    split_ifs at capped with none above
    · omega
    · cases capped

/-- The groups hold the pending transactions in the order of the block, none is
empty, and none has more entries than the budget or its only transaction needs:
only a single transaction with too many accounts reaches the cap of `ExecAll`. -/
theorem reconGroups_fit (distinct : (txHashes block).Nodup) (pending : Hash → Bool)
    (small : budget ≤ maxExecAllEntries) :
    (partitionReconGroups block pending budget).flatten = (txHashes block).filter pending ∧
      ∀ group ∈ partitionReconGroups block pending budget, group ≠ [] ∧
        (groupDeltas block group).keys.length + group.length ≤
          max budget (singleSize block group) ∧
        ∀ env db nanos entries, commitReconGroup env db (groupDeltas block group) group nanos =
            .error (.execAllCap entries) →
          maxExecAllEntries < singleSize block group := by
  obtain ⟨chunks, groups, flat, fits⟩ := partitionReconGroups_chunks block pending budget
  rw [groups]
  constructor
  · rw [← map_flatten, flat, txHashes, filter_map]
    rfl
  intro group member
  obtain ⟨chunk, found, rfl⟩ := mem_map.mp member
  obtain ⟨nonempty, inside, covering, fit⟩ := fits chunk found
  have entries : (groupDeltas block (chunk.map Transaction.hash)).keys.length +
      (chunk.map Transaction.hash).length ≤
        max budget (singleSize block (chunk.map Transaction.hash)) := by
    rcases fit.entries with within | ⟨tx, rfl⟩
    · rw [groupDeltas_chunk inside distinct, length_map]
      exact within.trans (le_max_left _ _)
    · exact le_max_right _ _
  refine ⟨by simpa using nonempty, entries, fun env db nanos count capped => ?_⟩
  have above := entries_of_execAllCap capped
  have bound := le_max_iff.mp entries
  omega

/-- Three transfers of one sender to different recipients. -/
def threeTransfers : ZKBlock :=
  { coinbaseAddr := some 3
    zkvmAddr := some 4
    transactions := [2, 5, 6].map fun recipient =>
      { hash := 10 + recipient.setWidth 256
        fromAddr := some 1
        toAddr := some recipient
        value := some 1 } }

/-- The first two transfers touch five accounts and fill a budget of seven. -/
theorem threeTransfers_fit :
    let groups := partitionReconGroups threeTransfers (fun _ => true) 7
    groups = [[12, 15], [16]] ∧ groups.flatten = [12, 15, 16] ∧
      ∀ group ∈ groups, (groupDeltas threeTransfers group).keys.length + group.length ≤
        max 7 (singleSize threeTransfers group) := by
  obtain ⟨flat, fit⟩ := @reconGroups_fit threeTransfers 7 (by decide) (fun _ => true) (by decide)
  exact ⟨by decide +kernel, flat, fun group mem => (fit group mem).2.1⟩

theorem commitReconGroup_succeeds (commits : ∀ group, env.commitOk group = true)
    (inside : chunk.Sublist block.transactions) (distinct : (txHashes block).Nodup)
    (entries : (chunk.foldl (addTxDeltas block) Deltas.empty).keys.length + chunk.length ≤
      maxExecAllEntries) (readable : Readable block db.accounts) :
    ∃ db', commitChunk env block chunk db = .ok db' := by
  rw [commitChunk, groupDeltas_chunk inside distinct]
  obtain ⟨docs, written, length⟩ := @reconDocs_isOk db.accounts
    (chunk.foldl (addTxDeltas block) Deltas.empty) (block.timestamp * nanosPerSecond)
    ((chunk.foldl (addTxDeltas block) Deltas.empty).keys.insertionSort (· ≤ ·)) (by
      intro addr mem
      obtain ⟨tx, found, touches⟩ :=
        mem_keys_foldl_addTxDeltas.mp ((mem_insertionSort _).mp mem)
      exact readable tx (inside.subset found) addr (txDeltaKeys_subset block tx touches))
  rw [length_insertionSort] at length
  rw [commitReconGroup, written]
  dsimp only
  split
  · exact ⟨db, rfl⟩
  · rw [if_neg (by rw [length, length_map]; omega), if_pos (commits _)]
    exact ⟨_, rfl⟩

theorem commitReconGroups_succeeds (commits : ∀ group, env.commitOk group = true)
    (distinct : (txHashes block).Nodup) (small : budget ≤ maxExecAllEntries) :
    ∀ (chunks : List (List Transaction)) (db : DB),
      (∀ chunk ∈ chunks, chunk.Sublist block.transactions ∧
        ∃ covering, FitsBudget block budget covering chunk) →
      (∀ chunk ∈ chunks, ∀ tx ∈ chunk, (txDeltaKeys block tx).length < maxExecAllEntries) →
      Readable block db.accounts →
      (commitReconGroups env block (chunks.map (List.map Transaction.hash)) db).1 = .ok () := by
  intro chunks
  induction chunks with
  | nil => exact fun _ _ _ _ => rfl
  | cons chunk rest ih =>
    intro db fits light readable
    obtain ⟨inside, covering, fit⟩ := fits chunk mem_cons_self
    obtain ⟨next, committed⟩ := commitReconGroup_succeeds commits inside distinct
      (fit.entries_le small (light chunk mem_cons_self)) readable
    rw [map_cons, commitReconGroups, ← groupDeltas, ← commitChunk, committed]
    exact ih next (fun other mem => fits other (mem_cons_of_mem _ mem))
      (fun other mem => light other (mem_cons_of_mem _ mem))
      ((commitReconGroup_reconciles inside distinct committed).readable readable)

section

variable (stored : db.blocks number = some block)
  (expected : ∀ hash, expectHash = some hash → hash = block.blockHash)
  (filters : env.filterOk = true) (commits : ∀ group, env.commitOk group = true)
  (distinct : (txHashes block).Nodup)
include stored expected filters commits distinct

/-- Reconciliation of a stored block succeeds when its database calls do, every
touched balance can be read and neither the budget nor a single transaction
exceeds one `ExecAll`. -/
theorem applyBlockReconWithin_succeeds (small : budget ≤ maxExecAllEntries)
    (light : ∀ tx ∈ unappliedTransactions block db,
      (txDeltaKeys block tx).length < maxExecAllEntries) (readable : Readable block db.accounts) :
    (applyBlockReconWithin budget env number expectHash db).1 = .ok () := by
  obtain ⟨chunks, groups, flat, fits⟩ := partitionReconGroups_unapplied block db budget
  have matching : expectHash.all (· = block.blockHash) = true := by
    cases given : expectHash with
    | none => rfl
    | some hash => simpa using expected hash given
  unfold applyBlockReconWithin
  rw [stored]
  dsimp only
  rw [if_pos matching, ← pendingTx, groups, if_pos filters]
  split
  · rfl
  split
  · rfl
  apply commitReconGroups_succeeds commits distinct small chunks db fits _ readable
  intro chunk mem tx found
  refine light tx ?_
  rw [← flat]
  exact mem_flatten_of_mem mem found

/-- The budget of the source leaves room for a transaction of fewer accounts. -/
theorem applyBlockRecon_succeeds
    (narrow : ∀ tx, (txTouchedAccounts block tx).length < reconGroupOpBudget)
    (readable : Readable block db.accounts) :
    (applyBlockRecon env number expectHash db).1 = .ok () := by
  have small : reconGroupOpBudget ≤ maxExecAllEntries := by decide
  refine applyBlockReconWithin_succeeds stored expected filters commits distinct small ?_ readable
  intro tx _
  have fewer := (subperm_of_subset (Deltas.nodup _) (txDeltaKeys_subset block tx)).length_le
  exact lt_of_le_of_lt fewer (lt_of_lt_of_le (narrow tx) small)

end

end Jmdn.DBOPs
