import Jmdn.DBOPs.ArtOrdinal
import Jmdn.Go.Strings
import Mathlib.Data.String.Basic

/-!
# The order of fresh ordinals

`EnrichBlockAccountNonces` hands fresh ordinals to the accounts that have no
identity, sorted by the text of their addresses.  The source calls this the order
of the address bytes.  The text is checksummed: a letter digit is in upper or lower
case, and upper case sorts first.
-/

namespace Jmdn.DBOPs

open Config Go List

variable {named listed : List Address}

/-- The senders and receivers as the transactions name them. -/
def namedParties (txs : List Transaction) : List Address :=
  txs.flatMap fun tx => tx.fromAddr.toList ++ tx.toAddr.toList

/-- The named addresses, each once, in first-seen order. -/
structure FirstSeen (named listed : List Address) : Prop where
  mem : ∀ address, address ∈ listed ↔ address ∈ named
  order : listed.Pairwise fun first second => named.idxOf first < named.idxOf second

theorem firstSeen_touch (seen : FirstSeen named listed) (party : Option Address) :
    FirstSeen (named ++ party.toList) (touch listed party) := by
  refine ⟨fun addr => by simp [mem_touch, seen.mem], ?_⟩
  have kept : listed.Pairwise fun first second =>
      (named ++ party.toList).idxOf first < (named ++ party.toList).idxOf second := by
    refine seen.order.imp_of_mem fun left right before => ?_
    rw [idxOf_append_of_mem ((seen.mem _).mp left),
      idxOf_append_of_mem ((seen.mem _).mp right)]
    exact before
  cases party with
  | none => exact kept
  | some addr =>
    rw [touch]
    split
    · exact kept
    next fresh =>
    refine pairwise_append.mpr ⟨kept, pairwise_singleton _ _, ?_⟩
    rintro first known _ (_ | ⟨_, ⟨⟩⟩)
    have present := (seen.mem first).mp known
    rw [idxOf_append_of_mem present,
      idxOf_append_of_notMem (mt (seen.mem addr).mpr fresh)]
    exact Nat.lt_add_right _ (idxOf_lt_length_of_mem present)

theorem firstSeen_touchedParties (txs : List Transaction) :
    FirstSeen (namedParties txs) (touchedParties txs) := by
  induction txs using List.reverseRecOn with
  | nil => exact ⟨fun _ => Iff.rfl, .nil⟩
  | append_singleton txs last ih =>
    rw [touchedParties, foldl_append, foldl_cons, foldl_nil, ← touchedParties]
    simpa [namedParties] using firstSeen_touch (firstSeen_touch ih last.fromAddr) last.toAddr

/-- What the stamped list says, the order of the fresh ordinals apart. -/
structure Carries (sequencer : Sequencer) (block stamped : ZKBlock) : Prop where
  listed : FirstSeen (namedParties block.transactions)
    (stamped.accountNonces.map AccountNonce.address)
  kept : ∀ entry ∈ stamped.accountNonces, ∀ doc,
    sequencer.db.accounts.get entry.address = some doc → doc.nonce ≠ 0 → entry.nonce = doc.nonce
  consecutive : ∀ place, place < (freshOrdinals sequencer.db.accounts stamped).length ↔
    ∃ entry ∈ freshOrdinals sequencer.db.accounts stamped,
      entry.nonce.toNat = (readARTOrdinalNext sequencer.db).toNat + place

/-- Fresh ordinals ascend with the address bytes. -/
def Ascending (store : Accounts) (stamped : ZKBlock) : Prop :=
  ∀ first ∈ freshOrdinals store stamped, ∀ second ∈ freshOrdinals store stamped,
    first.address < second.address → first.nonce < second.nonce

section

variable {env : EnrichEnv} {sequencer after : Sequencer} {block stamped : ZKBlock}
  {missing : List Address}

theorem freshOrdinals_stamp (store : Accounts) (block : ZKBlock) (ordered : List Address)
    (nonces : Address → UInt64) :
    freshOrdinals store (stampNonces block ordered nonces) =
      (missingIdentities store ordered).map fun address => { address, nonce := nonces address } :=
  filter_map

section

variable (stamps : Stamps env sequencer after block stamped missing)
include stamps

theorem Stamps.nodup :
    missing.Nodup := by
  have parties := (firstSeen_touchedParties block.transactions).order
  refine stamps.perm.nodup_iff.mpr (List.Nodup.filter _ (parties.imp fun before same => ?_))
  rw [same] at before
  exact lt_irrefl _ before

theorem Stamps.mem_fresh
    {entry : AccountNonce} : entry ∈ freshOrdinals sequencer.db.accounts stamped ↔
      entry.address ∈ missing ∧ entry.nonce.toNat =
        (readARTOrdinalNext sequencer.db).toNat + missing.idxOf entry.address := by
  rw [stamps.stamped, freshOrdinals_stamp, mem_map]
  constructor
  · rintro ⟨addr, absent, rfl⟩
    have known := stamps.perm.mem_iff.mpr absent
    exact ⟨known, stamps.toNat_assignedNonce known⟩
  · rintro ⟨known, value⟩
    refine ⟨entry.address, stamps.perm.mem_iff.mp known, ?_⟩
    rw [← stamps.toNat_assignedNonce known, UInt64.toNat_inj] at value
    rw [← value]

theorem Stamps.fresh_entry {address : Address} (absent : address ∈ missing) :
    { address, nonce := assignedNonce sequencer.db.accounts missing
        (readARTOrdinalNext sequencer.db) address } ∈
      freshOrdinals sequencer.db.accounts stamped :=
  stamps.mem_fresh.mpr ⟨absent, stamps.toNat_assignedNonce absent⟩

/-- Places in the sorted list follow the texts. -/
theorem Stamps.place_lt_iff (injective : Function.Injective env.addressHex) {first second : Address}
    (left : first ∈ missing) (right : second ∈ missing) :
    missing.idxOf first < missing.idxOf second ↔ env.addressHex first < env.addressHex second := by
  have sorted : ∀ {first second : Address}, first ∈ missing → second ∈ missing →
      missing.idxOf first < missing.idxOf second → env.addressHex first ≤ env.addressHex second := by
    intro first second left right before
    have pair := pairwise_iff_getElem.mp stamps.sorted _ _ (idxOf_lt_length_of_mem left)
      (idxOf_lt_length_of_mem right) before
    rwa [getElem_idxOf, getElem_idxOf] at pair
  constructor
  · intro before
    refine lt_of_le_of_ne (sorted left right before) fun same => ?_
    rw [injective same] at before
    exact lt_irrefl _ before
  · intro less
    rcases lt_trichotomy (missing.idxOf first) (missing.idxOf second) with before | same | later
    · exact before
    · rw [(idxOf_inj left).mp same] at less
      exact absurd less (lt_irrefl _)
    · exact absurd less (sorted right left later).not_gt

end

/-- Fresh ordinals ascend with the address bytes exactly when the texts of the
accounts that get them sort as the bytes do; the rest of the list is always right. -/
theorem fresh_ordinals_ascend_iff (injective : Function.Injective env.addressHex)
    (done : enrichBlockAccountNonces env sequencer block = .ok (stamped, after)) :
    Carries sequencer block stamped ∧
      (Ascending sequencer.db.accounts stamped ↔
        ∀ first ∈ missingIdentities sequencer.db.accounts (touchedParties block.transactions),
        ∀ second ∈ missingIdentities sequencer.db.accounts (touchedParties block.transactions),
          first < second → env.addressHex first < env.addressHex second) := by
  obtain ⟨missing, stamps⟩ := enrichBlockAccountNonces_stamps done
  refine ⟨⟨?_, ?_, fun place => ?_⟩, ?_⟩
  · have same : stamped.accountNonces.map AccountNonce.address =
        touchedParties block.transactions := by
      simp [stamps.stamped, stampNonces, Function.comp_def]
    rw [same]
    exact firstSeen_touchedParties block.transactions
  · intro entry listed doc found identity
    rcases (enrichBlockAccountNonces_reserves done).stored entry listed with fresh | stored
    · have zero := (mem_filter.mp fresh).2
      rw [found] at zero
      exact absurd (of_decide_eq_true zero) identity
    · obtain ⟨other, same, value⟩ := stored
      rw [found] at same
      cases same
      exact value
  · have length : (freshOrdinals sequencer.db.accounts stamped).length = missing.length := by
      rw [stamps.stamped, freshOrdinals_stamp, length_map, stamps.perm.length_eq]
    rw [length]
    constructor
    · intro within
      refine ⟨_, stamps.fresh_entry (getElem_mem within), ?_⟩
      rw [stamps.toNat_assignedNonce (getElem_mem within),
        stamps.nodup.idxOf_getElem place within]
    · rintro ⟨entry, fresh, value⟩
      obtain ⟨absent, ordinal⟩ := stamps.mem_fresh.mp fresh
      have place := idxOf_lt_length_of_mem absent
      omega
  · constructor
    · intro ascending first left second right below
      rw [← stamps.perm.mem_iff] at left right
      have less := ascending _ (stamps.fresh_entry left) _ (stamps.fresh_entry right) below
      rw [UInt64.lt_iff_toNat_lt, stamps.toNat_assignedNonce left,
        stamps.toNat_assignedNonce right] at less
      exact (stamps.place_lt_iff injective left right).mp (Nat.lt_of_add_lt_add_left less)
    · intro agree first left second right below
      obtain ⟨left, value⟩ := stamps.mem_fresh.mp left
      obtain ⟨right, ordinal⟩ := stamps.mem_fresh.mp right
      have less := agree _ (stamps.perm.mem_iff.mp left) _ (stamps.perm.mem_iff.mp right) below
      rw [UInt64.lt_iff_toNat_lt, value, ordinal]
      exact Nat.add_lt_add_left ((stamps.place_lt_iff injective left right).mpr less) _

end

/-! ## Two addresses -/

/-- The addresses 0xae7ab965... and 0xC02aaA39... with their checksummed texts. -/
def lowerFirst : Address := 0xae7ab96520de3a18e5e111b5eaab095312d7fe84

def upperFirst : Address := 0xc02aaa39b223fe8d0a0e5c4f27ead9083c756cc2

/-- The text of an address without letter digits. -/
def plainHex (address : Address) : String :=
  "0x" ++ @hexEncode 40 address

/-- The texts of the two addresses; the others do not matter here. -/
def sampleHex (address : Address) : String :=
  if address = lowerFirst then "0xae7ab96520DE3A18E5e111B5EaAb095312D7fE84"
  else if address = upperFirst then "0xC02aaA39b223FE8D0A0e5C4F27eAD9083C756Cc2"
  else plainHex address

def emptySequencer : Sequencer where
  db := {}
  counted := by decide

def pairBlock (sender receiver : Address) : ZKBlock :=
  { transactions := [{ fromAddr := some sender, toAddr := some receiver }] }

def plainEnv : EnrichEnv where
  addressHex := plainHex
  slice := SortSlice.insertion

theorem plainHex_injective : Function.Injective plainHex := by
  intro first second same
  have texts := congrArg String.toList same
  rw [plainHex, plainHex, String.toList_append, String.toList_append] at texts
  exact hexEncode_injective (String.toList_injective (append_cancel_left texts))

/-- The addresses 0x2222... and 0x1111..., in this order. -/
def plainPair : ZKBlock :=
  pairBlock 0x2222222222222222222222222222222222222222 0x1111111111111111111111111111111111111111

theorem plain_texts_ascend :
    ∃ stamped after, enrichBlockAccountNonces plainEnv emptySequencer plainPair =
        .ok (stamped, after) ∧
      Carries emptySequencer plainPair stamped ∧
      Ascending emptySequencer.db.accounts stamped := by
  have outcome : (enrichBlockAccountNonces plainEnv emptySequencer
      plainPair).toOption.isSome = true := by decide +kernel
  obtain ⟨⟨stamped, after⟩, done⟩ := Option.isSome_iff_exists.mp outcome
  obtain ⟨carries, ascends⟩ :=
    fresh_ordinals_ascend_iff plainHex_injective (eq_ok_of_toOption done)
  refine ⟨stamped, after, eq_ok_of_toOption done, carries, ascends.mpr ?_⟩
  have missing : missingIdentities emptySequencer.db.accounts
      (touchedParties plainPair.transactions) =
        [0x2222222222222222222222222222222222222222,
          0x1111111111111111111111111111111111111111] := by
    decide +kernel
  rw [missing]
  rintro first (_ | ⟨_, _ | ⟨_, ⟨⟩⟩⟩) second (_ | ⟨_, _ | ⟨_, ⟨⟩⟩⟩) below
  · exact absurd below (by decide)
  · exact absurd below (by decide)
  · decide +kernel
  · exact absurd below (by decide)

/-- The larger address gets the smaller ordinal: its text starts with a capital. -/
theorem larger_address_served_first :
    (enrichBlockAccountNonces { addressHex := sampleHex, slice := SortSlice.insertion }
        emptySequencer (pairBlock lowerFirst upperFirst)).toOption.map
          (fun result => result.1.accountNonces) =
      some [⟨lowerFirst, 2⟩, ⟨upperFirst, 1⟩] ∧ lowerFirst < upperFirst := by
  decide +kernel

end Jmdn.DBOPs
