import Jmdn.BlockProcessing.Block
import Jmdn.BlockProcessing.Effects

/-!
# Documents an executed transaction writes

Beyond the ledger fields, an account document holds the identity of the account:
its nonce, its DID, its type and its creation time.  A transaction writes the
balances of its addresses anew, stamps them with the block time, and fixes the
identity of its sender and recipient; every other document stays as it is.
-/

namespace Jmdn.BlockProcessing

open Config DBOPs DBOPs.Accounts Go

variable {recipient : Address}

/-- The identity after a carried nonce is adopted. -/
def adopted (carried : Address → Option UInt64) (address : Address) (identity : Identity) :
    Identity :=
  match carried address with
  | none => identity
  | some nonce => if nonce = 0 then identity else { identity with nonce }

section

variable {carried : Address → Option UInt64} {addr : Address}

theorem adopted_of_nonzero {nonce : UInt64} (known : carried addr = some nonce)
    (nonzero : nonce ≠ 0) (identity : Identity) :
    adopted carried addr identity = { identity with nonce } := by
  simp only [adopted, known, nonzero, if_false]

theorem adopted_of_not_carried (none : (carried addr).filter (· ≠ 0) = none)
    (identity : Identity) : adopted carried addr identity = identity := by
  unfold adopted
  split
  · rfl
  next nonce known =>
  split
  · rfl
  · next nonzero => simp [known, nonzero] at none

@[simp]
theorem adopted_adopted (identity : Identity) :
    adopted carried addr (adopted carried addr identity) =
      adopted carried addr identity := by
  cases kept : (carried addr).filter (· ≠ 0) with
  | none => rw [adopted_of_not_carried kept]
  | some nonce =>
    obtain ⟨known, nonzero⟩ := Option.filter_eq_some_iff.mp kept
    simp only [adopted_of_nonzero known (by simpa using nonzero)]

end

/-! ## Fixed identities -/

/-- Adopting a nonce for an address leaves the other documents alone. -/
theorem adoptCarriedNonce_kept (store : Accounts) (stage : TxStage) {addr other : Address}
    (carried : Address → Option UInt64) (different : other ≠ addr) :
    ((adoptCarriedNonce store stage addr carried).overlay store).get other =
      (stage.overlay store).get other := by
  rcases adoptCarriedNonce_cases store stage addr carried with
    ⟨same, -⟩ | ⟨doc, nonce, visible, -, -, staged⟩
  · rw [same]
  · rw [staged, TxStage.overlay_put]
    have keyed : doc.address = addr := (stage.overlay store).keyed addr doc visible
    exact put_get_of_ne _ (keyed ▸ different)

/-- Adopting a nonce for an address changes its identity only. -/
theorem adoptCarriedNonce_identity (store : Accounts) (stage : TxStage) (addr : Address)
    (carried : Address → Option UInt64) (other : Address) :
    identityAt ((adoptCarriedNonce store stage addr carried).overlay store) other =
        (identityAt (stage.overlay store) other).map fun identity =>
          if other = addr then adopted carried other identity else identity := by
  by_cases different : other ≠ addr
  · simp only [identityAt, adoptCarriedNonce_kept store stage carried different, different, if_false,
      Option.map_id']
  rw [not_not] at different
  subst different
  simp only [if_true]
  rcases adoptCarriedNonce_cases store stage other carried with
    ⟨same, settled⟩ | ⟨doc, nonce, visible, known, nonzero, staged⟩
  · rw [same, identityAt]
    cases visible : (stage.overlay store).get other with
    | none => rfl
    | some doc =>
      simp only [Option.map_some, adopted]
      split
      · rfl
      next nonce known =>
      split
      · rfl
      · next nonzero => rw [← settled doc visible nonce known nonzero]; rfl
  · have keyed := (stage.overlay store).keyed other doc visible
    rw [staged, TxStage.overlay_put, identityAt, put_get, if_pos keyed.symm, identityAt,
      visible, Option.map_some, Option.map_some, Option.map_some, adopted_of_nonzero known nonzero]
    rfl

/-- The identity of an account that a block creates. -/
def createdIdentity (env : Env) (block : ZKBlock) (address : Address) : Identity :=
  identityOf (createdRecipient env address ((accountNonces block address).getD 0)
    block.timestamp)

/-- The identity of a sender or recipient after a transaction. -/
def partyIdentity (env : Env) (block : ZKBlock) (address : Address) (before : Option Identity) :
    Identity :=
  adopted (accountNonces block) address (before.getD (createdIdentity env block address))

/-- Opening a stage fixes the identities of the sender and the recipient and
leaves the other documents alone. -/
structure Opens (env : Env) (block : ZKBlock) (store opened : Accounts)
    (sender recipient : Address) : Prop where
  kept : ∀ address, address ≠ sender → address ≠ recipient → opened.get address = store.get address
  party : ∀ address, address = sender ∨ address = recipient →
    identityAt opened address = some (partyIdentity env block address (identityAt store address))

section

variable {env : Env} {block : ZKBlock} {store : Accounts} {sender recipient : Address}

/-- Two stored accounts adopt the nonces the block carries for them. -/
theorem opens_stored (senderStored : (store.get sender).isSome)
    (recipientStored : (store.get recipient).isSome) :
    Opens env block store ((adoptCarriedNonce store (adoptCarriedNonce store TxStage.new sender
      (accountNonces block)) recipient (accountNonces block)).overlay store) sender recipient := by
  constructor
  · intro addr notSender notRecipient
    rw [adoptCarriedNonce_kept _ _ _ notRecipient, adoptCarriedNonce_kept _ _ _ notSender,
      TxStage.overlay_new]
  · intro addr party
    have stored : (store.get addr).isSome := by
      rcases party with rfl | rfl
      · exact senderStored
      · exact recipientStored
    obtain ⟨doc, found⟩ := Option.isSome_iff_exists.mp stored
    have old : identityAt store addr = some (identityOf doc) := by
      rw [identityAt, found, Option.map_some]
    rw [adoptCarriedNonce_identity, adoptCarriedNonce_identity, TxStage.overlay_new, old,
      Option.map_some, Option.map_some, partyIdentity, Option.getD_some]
    by_cases isSender : addr = sender <;> by_cases isRecipient : addr = recipient
    · simp only [isSender.symm, isRecipient.symm, if_true, adopted_adopted]
    · simp only [isSender.symm, isRecipient, if_true, if_false]
    · simp only [isSender, isRecipient.symm, if_true, if_false]
    · exact absurd party (not_or.mpr ⟨isSender, isRecipient⟩)

/-- A missing recipient is created with the nonce the block carries for it. -/
theorem opens_created (senderStored : (store.get sender).isSome)
    (absent : store.get recipient = none) {carriedNonce : UInt64}
    (known : accountNonces block recipient = some carriedNonce) (nonzero : carriedNonce ≠ 0) :
    Opens env block store ((adoptCarriedNonce store (TxStage.new.put (createdRecipient env
      recipient carriedNonce block.timestamp)) sender (accountNonces block)).overlay store)
      sender recipient := by
  obtain ⟨doc, created, keyed, identity⟩ : ∃ doc,
      createdRecipient env recipient carriedNonce block.timestamp = doc ∧
        doc.address = recipient ∧ identityOf doc = createdIdentity env block recipient :=
    ⟨_, rfl, rfl, by rw [createdIdentity, known, Option.getD_some]⟩
  rw [created]
  have different : recipient ≠ sender := by
    rintro rfl
    rw [absent] at senderStored
    cases senderStored
  constructor
  · intro addr notSender notRecipient
    rw [adoptCarriedNonce_kept _ _ _ notSender, TxStage.overlay_put, TxStage.overlay_new,
      put_get_of_ne _ (keyed ▸ notRecipient)]
  · intro addr party
    rw [adoptCarriedNonce_identity, TxStage.overlay_put, TxStage.overlay_new]
    rcases party with rfl | rfl
    · obtain ⟨own, found⟩ := Option.isSome_iff_exists.mp senderStored
      rw [identityAt, put_get_of_ne _ (keyed ▸ different.symm), found, identityAt, found]
      simp only [Option.map_some, if_true, partyIdentity, Option.getD_some]
    have new : identityAt (store.put doc) addr = some (identityOf doc) := by
      rw [identityAt, ← keyed, put_get_self, Option.map_some]
    rw [new, identityAt, absent, identity, partyIdentity]
    simp only [Option.map_some, Option.map_none, Option.getD_none, different, if_false,
      adopted_of_nonzero known nonzero]
    rw [createdIdentity, known]
    rfl

theorem openStage_opens {stage : TxStage}
    (opened : openStage env store sender recipient block.timestamp (accountNonces block) =
      .ok stage) :
    (store.get sender).isSome ∧
      Opens env block store (stage.overlay store) sender recipient := by
  obtain ⟨senderStored, ⟨recipientStored, rfl⟩ | ⟨absent, carriedNonce, known, nonzero, rfl⟩⟩ :=
    openStage_cases opened
  · exact ⟨senderStored, opens_stored senderStored recipientStored⟩
  · exact ⟨senderStored, opens_created senderStored absent known nonzero⟩

end

/-! ## A whole transaction -/

/-- What a transaction of a block does to the documents. -/
structure Rewrites (env : Env) (block : ZKBlock) (tx : Transaction) (before after : Accounts) :
    Prop where
  kept : ∀ address ∉ touchedAddresses block tx, after.get address = before.get address
  stamped : ∀ address ∈ touchedAddresses block tx,
    Stamped after (block.timestamp * nanosPerSecond) address
  party : ∀ address, tx.fromAddr = some address ∨ tx.toAddr = some address →
    identityAt after address = some (partyIdentity env block address (identityAt before address))
  others : ∀ address, tx.fromAddr ≠ some address → tx.toAddr ≠ some address →
    identityAt after address = identityAt before address
  created : ∀ address ∈ touchedAddresses block tx, before.get address = none →
    tx.toAddr = some address

theorem executeTransaction_rewrites {env : Env} {block : ZKBlock} {tx : Transaction}
    {sender coinbase zkvm : Address} {db db' : DB} (senderSet : tx.fromAddr = some sender)
    (recipientSet : tx.toAddr = some recipient) (pays : PaysTo block coinbase zkvm)
    (done : executeTransaction env tx sender recipient coinbase zkvm block.feeRecipients
      block.timestamp (accountNonces block) db = .ok db') :
    Rewrites env block tx db.accounts db'.accounts := by
  obtain ⟨value, -, afterParse⟩ := bind_eq_ok done
  obtain ⟨opened, openedOk, afterOpen⟩ := bind_eq_ok afterParse
  obtain ⟨final, transferred, committed⟩ := bind_eq_ok afterOpen
  obtain ⟨senderStored, opens⟩ := openStage_opens openedOk
  obtain ⟨deducted, took, credits⟩ := stageTransfers_ok transferred
  have writes := (deductFromSender_deducts took).toWrites.trans credits.toWrites
  rw [stages_touchedAddresses senderSet recipientSet pays] at writes
  rw [applyTxAtomic_ok committed, TxStage.foldl_put_staged]
  have senderTouched : sender ∈ touchedAddresses block tx := Or.inl senderSet
  have recipientTouched : recipient ∈ touchedAddresses block tx := Or.inr (.inl recipientSet)
  have outside : ∀ {addr : Address}, tx.fromAddr ≠ some addr → tx.toAddr ≠ some addr →
      (opened.overlay db.accounts).get addr = db.accounts.get addr := by
    intro addr notSender notRecipient
    apply opens.kept
    · rintro rfl
      exact notSender senderSet
    · rintro rfl
      exact notRecipient recipientSet
  constructor
  case kept =>
    intro addr absent
    rw [writes.kept addr absent]
    exact outside (fun sends => absent (.inl sends))
      fun receives => absent (.inr (.inl receives))
  case stamped => exact writes.stamped
  case party =>
    intro addr party
    rw [writes.identity]
    apply opens.party
    rw [senderSet, recipientSet, Option.some.injEq, Option.some.injEq] at party
    exact party.imp Eq.symm Eq.symm
  case others =>
    intro addr notSender notRecipient
    rw [writes.identity, identityAt, outside notSender notRecipient]
    rfl
  case created =>
    intro addr mem absent
    by_contra notRecipient
    have notSender : tx.fromAddr ≠ some addr := by
      intro sends
      rw [senderSet] at sends
      cases sends
      rw [absent] at senderStored
      cases senderStored
    -- what the transfers write was there before them
    obtain ⟨doc, _, found, _, _⟩ := writes.stamped addr mem
    have same := writes.identity addr
    rw [identityAt, found, identityAt, outside notSender notRecipient, absent] at same
    cases same

end Jmdn.BlockProcessing
