import Jmdn.Config.BalanceEffect
import Jmdn.DBOPs.Recon
import Jmdn.Ledger.Effect

/-!
# The effect of reconciliation

The deltas of a list of transactions are their summed `balanceEffect`, their
number per sender, and the greatest nonce candidate per sender.  Committing a
group adds the deltas to the stored accounts and marks the group's transactions.
-/

namespace Jmdn.DBOPs

open Accounts Config Go Ledger List UInt64

variable {deltas second first : Deltas} {addr : Address} {updatedAtNanos : Int64} {tx : Transaction}
  {delta : BlockAccountDelta} {store : Accounts} {doc : Account}

namespace Deltas

theorem entry_touch (deltas : Deltas) (addr : Address)
    (change : BlockAccountDelta → BlockAccountDelta) (other : Address) :
    (deltas.touch addr change).entry other =
      if other = addr then change (deltas.entry addr) else deltas.entry other := by
  by_cases same : other = addr <;> simp [touch, entry, same]

/-- The balance change per address. -/
def change (deltas : Deltas) (address : Address) : Int :=
  (deltas.entry address).balanceDelta

theorem entry_of_not_mem (absent : addr ∉ deltas.keys) :
    deltas.entry addr = {} := by
  rw [deltas.listed] at absent
  simp [entry, Option.not_isSome_iff_eq_none.mp absent]

theorem change_add (deltas : Deltas) (addr : Address) (amount : Int) :
    (deltas.add addr amount).change = deltas.change + Pi.single addr amount := by
  funext other
  by_cases same : other = addr
  · simp [change, add, entry_touch, same]
  · simp [change, add, entry_touch, same]

theorem change_addAt (deltas : Deltas) (addr : Option Address) (amount : Int) :
    (deltas.addAt addr amount).change = deltas.change + changeAt addr amount := by
  cases addr with
  | none => simp [addAt, changeAt]
  | some present => exact change_add deltas present amount

theorem change_addCredits (credits : List FeeCredit) (deltas : Deltas) :
    (credits.foldl (fun current credit => current.add credit.addr credit.amount) deltas).change =
      deltas.change + creditEffect credits := by
  induction credits generalizing deltas with
  | nil => simp [creditEffect]
  | cons credit rest ih =>
    rw [foldl_cons, ih, change_add]
    simp [creditEffect, add_assoc]

/-- Crediting keeps the sender fields. -/
structure SameSenders (first second : Deltas) : Prop where
  txNonce : ∀ address, (first.entry address).txNonce = (second.entry address).txNonce
  txCountSent : ∀ address, (first.entry address).txCountSent = (second.entry address).txCountSent
  isSender : ∀ address, (first.entry address).isSender = (second.entry address).isSender

theorem SameSenders.refl (deltas : Deltas) : SameSenders deltas deltas :=
  ⟨fun _ => rfl, fun _ => rfl, fun _ => rfl⟩

theorem SameSenders.symm (same : SameSenders first second) :
    SameSenders second first where
  txNonce addr := (same.txNonce addr).symm
  txCountSent addr := (same.txCountSent addr).symm
  isSender addr := (same.isSender addr).symm

theorem SameSenders.trans {third : Deltas} (one : SameSenders first second)
    (two : SameSenders second third) : SameSenders first third where
  txNonce addr := (one.txNonce addr).trans (two.txNonce addr)
  txCountSent addr := (one.txCountSent addr).trans (two.txCountSent addr)
  isSender addr := (one.isSender addr).trans (two.isSender addr)

theorem sameSenders_add (deltas : Deltas) (addr : Address) (amount : Int) :
    SameSenders (deltas.add addr amount) deltas := by
  constructor <;> intro other <;> by_cases same : other = addr <;> simp [add, entry_touch, same]

theorem sameSenders_addAt (deltas : Deltas) (addr : Option Address) (amount : Int) :
    SameSenders (deltas.addAt addr amount) deltas := by
  cases addr with
  | none => exact SameSenders.refl deltas
  | some present => exact sameSenders_add deltas present amount

theorem sameSenders_addCredits (credits : List FeeCredit) (deltas : Deltas) :
    SameSenders
      (credits.foldl (fun current credit => current.add credit.addr credit.amount) deltas)
      deltas := by
  induction credits generalizing deltas with
  | nil => exact SameSenders.refl deltas
  | cons credit rest ih => exact (ih _).trans (sameSenders_add deltas _ _)

end Deltas

theorem positiveValue_getD (tx : Transaction) : (positiveValue tx).getD 0 = movedValue tx := by
  cases value : tx.value with
  | none => simp [positiveValue, movedValue, value]
  | some amount =>
    by_cases pos : 0 < amount
    · simp [positiveValue, Option.filter, movedValue, value, pos,
        Int.max_eq_left (Int.le_of_lt pos)]
    · simp [positiveValue, Option.filter, movedValue, value, pos,
        Int.max_eq_right (Int.not_lt.mp pos)]

/-- The sender's entry after one transaction. -/
def sentDeltas (deltas : Deltas) (tx : Transaction) : Deltas :=
  tx.fromAddr.elim deltas fun sender => deltas.touch sender (senderDelta tx)

theorem change_sentDeltas (deltas : Deltas) (tx : Transaction) :
    (sentDeltas deltas tx).change =
      deltas.change + changeAt tx.fromAddr (-(movedValue tx + tx.gasFee)) := by
  cases sender : tx.fromAddr with
  | none => simp [sentDeltas, sender, changeAt]
  | some present =>
    funext other
    by_cases same : other = present
    · simp [sentDeltas, sender, changeAt, Deltas.change, Deltas.entry_touch, same, senderDelta,
        positiveValue_getD]
      ring
    · simp [sentDeltas, sender, changeAt, Deltas.change, Deltas.entry_touch, same]

/-- One transaction adds its balance effect to the deltas. -/
theorem change_addTxDeltas (block : ZKBlock) (deltas : Deltas) (tx : Transaction) :
    (addTxDeltas block deltas tx).change = deltas.change + balanceEffect block tx := by
  have received : ((positiveValue tx).elim (sentDeltas deltas tx) fun value =>
      (sentDeltas deltas tx).addAt tx.toAddr value).change =
      (sentDeltas deltas tx).change + changeAt tx.toAddr (movedValue tx) := by
    rw [← positiveValue_getD]
    cases positiveValue tx with
    | none => cases tx.toAddr <;> simp [changeAt]
    | some value => exact Deltas.change_addAt _ _ _
  simp only [addTxDeltas, Deltas.change_addAt]
  rw [balanceEffect, feeEffect]
  split_ifs with coinbaseSet
  · rw [Deltas.change_addCredits]
    change ((positiveValue tx).elim (sentDeltas deltas tx) fun value =>
      (sentDeltas deltas tx).addAt tx.toAddr value).change + _ + _ = _
    rw [received, change_sentDeltas]
    simp only [add_assoc]
  · change ((positiveValue tx).elim (sentDeltas deltas tx) fun value =>
      (sentDeltas deltas tx).addAt tx.toAddr value).change + _ = _
    rw [received, change_sentDeltas]
    simp only [zero_add, add_assoc]

/-- Only the sender's step touches nonces and counts. -/
theorem addTxDeltas_sameSenders (block : ZKBlock) (deltas : Deltas) (tx : Transaction) :
    (addTxDeltas block deltas tx).SameSenders (sentDeltas deltas tx) := by
  have received : ((positiveValue tx).elim (sentDeltas deltas tx) fun value =>
      (sentDeltas deltas tx).addAt tx.toAddr value).SameSenders (sentDeltas deltas tx) := by
    cases positiveValue tx with
    | none => exact Deltas.SameSenders.refl _
    | some value => exact Deltas.sameSenders_addAt _ _ _
  apply (Deltas.sameSenders_addAt _ _ _).trans
  split
  · exact (Deltas.sameSenders_addCredits _ _).trans received
  · exact received

/-! ## The deltas of a list of transactions -/

/-- The nonces after the transactions an address sends; a nonce of `2 ^ 64 - 1`
comes around to zero. -/
def nonceCandidates (txs : List Transaction) (address : Address) : List Nat :=
  (txs.filter fun tx => tx.fromAddr = some address).map fun tx => (tx.nonce + 1).toNat

/-- How many of the transactions an address sends. -/
def sentCount (txs : List Transaction) (address : Address) : Nat :=
  txs.countP fun tx => tx.fromAddr = some address

/-- An address that is not a sender has no nonce candidate. -/
def Deltas.SendersOnly (deltas : Deltas) : Prop :=
  ∀ address, (deltas.entry address).isSender = false → (deltas.entry address).txNonce = 0

theorem entry_sentDeltas_of_ne (other : tx.fromAddr ≠ some addr) :
    (sentDeltas deltas tx).entry addr = deltas.entry addr := by
  cases sender : tx.fromAddr with
  | none => simp [sentDeltas, sender]
  | some present =>
    have different : addr ≠ present := fun same => other (by rw [sender, same])
    simp [sentDeltas, sender, Deltas.entry_touch, different]

theorem entry_sentDeltas_of_eq (sends : tx.fromAddr = some addr) :
    (sentDeltas deltas tx).entry addr = senderDelta tx (deltas.entry addr) := by
  simp [sentDeltas, sends, Deltas.entry_touch]

theorem senderDelta_txNonce (sendersOnly : delta.isSender = false → delta.txNonce = 0) :
    (senderDelta tx delta).txNonce.toNat = max delta.txNonce.toNat (tx.nonce + 1).toNat := by
  simp only [senderDelta, Bool.or_eq_true, Bool.not_eq_true', decide_eq_true_eq]
  split
  · next first =>
    rcases first with new | greater
    · simp [sendersOnly new]
    · exact (Nat.max_eq_right (Nat.le_of_lt (lt_iff_toNat_lt.mp greater))).symm
  · next kept =>
    rw [not_or] at kept
    exact (Nat.max_eq_left (le_iff_toNat_le.mp (UInt64.not_lt.mp kept.2))).symm

theorem sendersOnly_addTxDeltas (block : ZKBlock) (tx : Transaction)
    (sendersOnly : deltas.SendersOnly) : (addTxDeltas block deltas tx).SendersOnly := by
  intro addr notSender
  have same := addTxDeltas_sameSenders block deltas tx
  rw [same.isSender] at notSender
  rw [same.txNonce]
  by_cases sends : tx.fromAddr = some addr
  · rw [entry_sentDeltas_of_eq sends] at notSender
    simp [senderDelta] at notSender
  · rw [entry_sentDeltas_of_ne sends] at notSender ⊢
    exact sendersOnly addr notSender

/-- What a run of the delta loop leaves in each entry. -/
structure DeltasOf (block : ZKBlock) (txs : List Transaction) (start result : Deltas) : Prop where
  change : result.change = start.change + totalEffect block txs
  txCountSent : ∀ address, (result.entry address).txCountSent =
    (start.entry address).txCountSent + UInt64.ofNat (sentCount txs address)
  txNonce : ∀ address, (result.entry address).txNonce.toNat =
    (nonceCandidates txs address).foldl max (start.entry address).txNonce.toNat
  sendersOnly : result.SendersOnly

theorem foldl_addTxDeltas (block : ZKBlock) (txs : List Transaction) {start : Deltas}
    (sendersOnly : start.SendersOnly) :
    DeltasOf block txs start (txs.foldl (addTxDeltas block) start) := by
  induction txs generalizing start with
  | nil =>
    constructor
    · simp [totalEffect]
    · simp [sentCount]
    · simp [nonceCandidates]
    · exact sendersOnly
  | cons tx rest ih =>
    have later := ih (sendersOnly_addTxDeltas block tx sendersOnly)
    have same := addTxDeltas_sameSenders block start tx
    rw [foldl_cons]
    constructor
    · rw [later.change, change_addTxDeltas]
      simp [totalEffect, add_assoc]
    · intro addr
      rw [later.txCountSent, same.txCountSent]
      by_cases sends : tx.fromAddr = some addr
      · rw [entry_sentDeltas_of_eq sends]
        simp only [senderDelta, sentCount, countP_cons, sends, decide_true, if_true,
          ofNat_add]
        rw [UInt64.add_assoc, UInt64.add_comm 1]
        rfl
      · rw [entry_sentDeltas_of_ne sends]
        simp [sentCount, sends]
    · intro addr
      rw [later.txNonce, same.txNonce]
      by_cases sends : tx.fromAddr = some addr
      · rw [entry_sentDeltas_of_eq sends, senderDelta_txNonce (sendersOnly addr)]
        simp [nonceCandidates, sends]
      · rw [entry_sentDeltas_of_ne sends]
        simp [nonceCandidates, sends]
    · exact later.sendersOnly

/-- The deltas of a block restricted to some of its transactions. -/
theorem change_computeBlockDeltas (block : ZKBlock) (skip : Hash → Bool) :
    (computeBlockDeltas block skip).change =
      totalEffect block (block.transactions.filter fun tx => !skip tx.hash) := by
  have deltas : (computeBlockDeltas block skip).change = Deltas.empty.change + _ :=
    (foldl_addTxDeltas block _ fun _ _ => rfl).change
  simpa [Deltas.change, Deltas.empty, Deltas.entry, funext_iff] using deltas

theorem computeBlockDeltas_all (block : ZKBlock) :
    computeBlockDeltas block (fun _ => false) =
      block.transactions.foldl (addTxDeltas block) Deltas.empty := by
  simp [computeBlockDeltas]

theorem change_computeBlockDeltas_all (block : ZKBlock) :
    (computeBlockDeltas block fun _ => false).change = totalEffect block block.transactions := by
  simp [change_computeBlockDeltas]

/-! ## Committing one group -/

/-- The document reconciliation writes for an address. -/
def reconDoc (store : Accounts) (deltas : Deltas) (updatedAtNanos : Int64) (address : Address) :
    Except ReconError Account :=
  applyDeltaToAccount (store.get address) address (deltas.entry address) updatedAtNanos

theorem applyDeltaToAccount_ok {existing : Option Account}
    (keyed : ∀ stored, existing = some stored → stored.address = addr)
    (applied : applyDeltaToAccount existing addr delta updatedAtNanos = .ok doc) :
    doc.address = addr ∧
      doc.balance = formatInt
        ((setString (existing.elim "0" Account.balance)).getD 0 + delta.balanceDelta) ∧
      doc.txNonce.toNat = max (existing.elim 0 Account.txNonce).toNat delta.txNonce.toNat ∧
      doc.txCountSent = existing.elim 0 Account.txCountSent + delta.txCountSent := by
  have nonces : ∀ stored : UInt64,
      (if delta.txNonce > stored then delta.txNonce else stored).toNat =
        max stored.toNat delta.txNonce.toNat := by
    intro stored
    split
    · next greater =>
      exact (Nat.max_eq_right (Nat.le_of_lt (lt_iff_toNat_lt.mp greater))).symm
    · next kept =>
      exact (Nat.max_eq_left (le_iff_toNat_le.mp (UInt64.not_lt.mp kept))).symm
  simp only [applyDeltaToAccount] at applied
  split at applied
  · cases applied
  next base parsed =>
  cases applied
  cases existing with
  | none =>
    have nonempty : ¬("0" : String) = "" := by decide
    rw [Option.getD_none, if_neg nonempty, setString_zero] at parsed
    cases parsed
    refine ⟨rfl, ?_, nonces 0, rfl⟩
    simp [setString_zero]
  | some stored =>
    refine ⟨keyed stored rfl, ?_, nonces stored.txNonce, rfl⟩
    rw [Option.getD_some] at parsed
    split_ifs at parsed with blank
    · cases parsed
      have unreadable : setString "" = none := by decide
      simp [blank, unreadable]
    · simp [parsed]

theorem reconDocs_ok :
    ∀ {addresses : List Address} {docs : List Account},
      reconDocs store deltas updatedAtNanos addresses = .ok docs →
      docs = addresses.filterMap (fun addr =>
        (reconDoc store deltas updatedAtNanos addr).toOption) ∧
      ∀ addr ∈ addresses, ∃ doc, reconDoc store deltas updatedAtNanos addr = .ok doc := by
  intro addresses
  induction addresses with
  | nil =>
    intro docs done
    cases done
    simp
  | cons addr rest ih =>
    intro docs done
    unfold reconDocs at done
    cases applied : applyDeltaToAccount (store.get addr) addr (deltas.entry addr)
        updatedAtNanos with
    | error cause =>
      rw [applied] at done
      cases done
    | ok doc =>
      have written : reconDoc store deltas updatedAtNanos addr = .ok doc := applied
      cases others : reconDocs store deltas updatedAtNanos rest with
      | error cause =>
        rw [applied, others] at done
        cases done
      | ok found =>
        rw [applied, others] at done
        cases done
        obtain ⟨listed, all⟩ := ih others
        refine ⟨?_, ?_⟩
        · rw [filterMap_cons_some (b := doc) (by rw [written]; rfl), ← listed]
        · intro other mem
          rcases mem_cons.mp mem with rfl | later
          · exact ⟨doc, written⟩
          · exact all other later

theorem length_of_reconDocs {addresses : List Address} {docs : List Account}
    (done : reconDocs store deltas updatedAtNanos addresses = .ok docs) :
    docs.length = addresses.length := by
  obtain ⟨listed, all⟩ := reconDocs_ok done
  rw [listed, filterMap_length_eq_length]
  intro addr mem
  obtain ⟨doc, written⟩ := all addr mem
  rw [written]
  rfl

/-- A group was committed: the deltas were added to the accounts. -/
structure Commits (before after : Accounts) (deltas : Deltas) : Prop where
  adds : Adds before.amount after.amount deltas.change {address | address ∈ deltas.keys}
  txNonce : ∀ address, (after.txNonce address).toNat =
    max (before.txNonce address).toNat (deltas.entry address).txNonce.toNat
  txCountSent : ∀ address, after.txCountSent address =
    before.txCountSent address + (deltas.entry address).txCountSent

section

variable {store : Accounts} {deltas : Deltas} {updatedAtNanos : Int64} {docs : List Account}

theorem reconDoc_address (applied : (reconDoc store deltas updatedAtNanos addr).toOption = some doc) :
    doc.address = addr := by
  cases outcome : reconDoc store deltas updatedAtNanos addr with
  | error cause => simp [outcome, Except.toOption] at applied
  | ok result =>
    simp only [outcome, Except.toOption, Option.some.injEq] at applied
    rw [← applied]
    exact (applyDeltaToAccount_ok (store.keyed addr) outcome).1

variable (done : reconDocs store deltas updatedAtNanos (deltas.keys.insertionSort (· ≤ ·)) =
  .ok docs)

include done

/-- The documents can be written over any store. -/
theorem get_of_reconDocs (target : Accounts) (absent : addr ∉ deltas.keys) :
    (docs.foldl Accounts.put target).get addr = target.get addr := by
  rw [(reconDocs_ok done).1, foldl_put_get _ fun _ _ => reconDoc_address, if_neg]
  exact fun found => absent ((mem_insertionSort _).mp found.1)

theorem reconDoc_of_reconDocs (mem : addr ∈ deltas.keys) :
    ∃ doc, reconDoc store deltas updatedAtNanos addr = .ok doc ∧
      ∀ target, (docs.foldl Accounts.put target).get addr = some doc := by
  obtain ⟨listed, all⟩ := reconDocs_ok done
  have sorted : addr ∈ deltas.keys.insertionSort (· ≤ ·) :=
    (mem_insertionSort _).mpr mem
  obtain ⟨doc, applied⟩ := all addr sorted
  refine ⟨doc, applied, fun target => ?_⟩
  rw [listed, foldl_put_get _ fun _ _ => reconDoc_address]
  simp [sorted, applied, Except.toOption]

theorem written_of_reconDocs (mem : addr ∈ deltas.keys) :
    ∃ doc, (docs.foldl Accounts.put store).get addr = some doc ∧
      doc.balance = formatInt (value store.amount addr + deltas.change addr) ∧
      doc.txNonce.toNat =
        max (store.txNonce addr).toNat (deltas.entry addr).txNonce.toNat ∧
      doc.txCountSent = store.txCountSent addr + (deltas.entry addr).txCountSent := by
  obtain ⟨doc, applied, written⟩ := reconDoc_of_reconDocs done mem
  exact ⟨doc, written store, (applyDeltaToAccount_ok (store.keyed addr) applied).2⟩

theorem commits_of_reconDocs : Commits store (docs.foldl Accounts.put store) deltas := by
  constructor
  · constructor
    · intro addr mem
      obtain ⟨doc, stored, balance, -, -⟩ := written_of_reconDocs done mem
      exact amount_of_formatted stored balance
    · intro addr absent
      exact amount_congr (get_of_reconDocs done store absent)
    · intro addr absent
      rw [Deltas.change, Deltas.entry_of_not_mem absent]
  · intro addr
    by_cases mem : addr ∈ deltas.keys
    · obtain ⟨doc, stored, -, txNonce, -⟩ := written_of_reconDocs done mem
      rw [txNonce_of_stored stored, txNonce]
    · simp [Accounts.txNonce, get_of_reconDocs done store mem, Deltas.entry_of_not_mem mem]
  · intro addr
    by_cases mem : addr ∈ deltas.keys
    · obtain ⟨doc, stored, -, -, txCountSent⟩ := written_of_reconDocs done mem
      rw [txCountSent_of_stored stored, txCountSent]
    · simp [Accounts.txCountSent, get_of_reconDocs done store mem, Deltas.entry_of_not_mem mem]

end

variable {env : ReconEnv} {db db' : DB} {group : List Hash}
  (done : commitReconGroup env db deltas group updatedAtNanos = .ok db')
include done

/-- A committed group wrote its documents and its markers and nothing else. -/
theorem commitReconGroup_writes :
    ∃ docs, reconDocs db.accounts deltas updatedAtNanos (deltas.keys.insertionSort (· ≤ ·)) =
        .ok docs ∧
      docs.length + group.length ≤ maxExecAllEntries ∧
      db' = { db with
        accounts := docs.foldl Accounts.put db.accounts
        txProcessed := db.txProcessed.writeAll group env.now } := by
  unfold commitReconGroup at done
  split at done
  · cases done
  next docs computed =>
  split at done
  · next nothing =>
    cases done
    have noDocs : docs = [] := eq_nil_of_length_eq_zero (by omega)
    have noTxs : group = [] := eq_nil_of_length_eq_zero (by omega)
    refine ⟨docs, computed, by omega, ?_⟩
    rw [noDocs, noTxs]
    rfl
  · split at done
    · cases done
    · next within =>
      split at done
      · cases done
        exact ⟨docs, computed, Nat.le_of_not_lt within, rfl⟩
      · cases done

theorem commitReconGroup_ok :
    Commits db.accounts db'.accounts deltas ∧
      db'.txProcessed = db.txProcessed.writeAll group env.now ∧
      db' = { db with accounts := db'.accounts, txProcessed := db'.txProcessed } := by
  obtain ⟨docs, computed, -, rfl⟩ := commitReconGroup_writes done
  exact ⟨commits_of_reconDocs computed, rfl, rfl⟩

end Jmdn.DBOPs
