import Jmdn.DBOPs.State
import Jmdn.Go.Errors
import Jmdn.Go.Sort

/-!
# Identity nonces a block carries

`EnrichBlockAccountNonces` of `DB_OPs/art_ordinal.go`: the sequencer stamps a
block with the identity nonce of each sender and receiver, and reserves fresh
ordinals for the accounts that have none.
-/

namespace Jmdn.DBOPs

open Config Go List UInt64

variable {block stamped : ZKBlock} {ordered missing : List Address} {nonces : Address → UInt64}
  {entry : AccountNonce} {addr : Address} {store : Accounts} {first : UInt64}

/-- A database whose ordinal counter lies in the ordinal space, as every writer
of the counter leaves it. -/
structure Sequencer where
  db : DB
  counted : readARTOrdinalNext db ≤ artOrdinalMax

/-- What the enrichment takes from its surroundings: the checksummed address
text, how the runtime sorts, and which calls succeed. -/
structure EnrichEnv where
  addressHex : Address → String
  slice : SortSlice fun first second => addressHex first ≤ addressHex second
  connectionOk : Bool := true
  readOk : Address → Bool := fun _ => true
  persistOk : Bool := true

variable {env : EnrichEnv} {after : Sequencer}

inductive EnrichError where
  | connection
  | read (address : Address)
  | nothingToReserve
  | exhausted (next : UInt64) (n : Nat)
  | persist (next : UInt64)
  deriving DecidableEq, Repr

/-- The counter after a reservation. -/
def advancedOrdinal (db : DB) (n : Nat) : UInt64 :=
  UInt64.ofNat ((readARTOrdinalNext db).toNat + n)

theorem readARTOrdinalNext_advanced {db : DB} {n : Nat}
    (fits : (readARTOrdinalNext db).toNat + n < artOrdinalMax.toNat) :
    readARTOrdinalNext { db with artOrdinalNext := some (advancedOrdinal db n) } ≤
      artOrdinalMax := by
  have bound : artOrdinalMax.toNat = 1099511627776 := rfl
  simp only [readARTOrdinalNext, le_iff_toNat_le]
  split
  · decide
  · rw [advancedOrdinal, toNat_ofNat']
    unfold readARTOrdinalNext at fits ⊢
    omega

/-- `reserveARTOrdinals`.  A slice is shorter than 2^63 and the counter lies in
the ordinal space, so their sum does not wrap. -/
def reserveARTOrdinals (env : EnrichEnv) (sequencer : Sequencer) (n : Nat) :
    Except EnrichError (UInt64 × Sequencer) :=
  let next := readARTOrdinalNext sequencer.db
  if n = 0 then .error .nothingToReserve
  else if fits : next.toNat + n < artOrdinalMax.toNat then
    if env.persistOk then
      .ok (next,
        { db := { sequencer.db with artOrdinalNext := some (advancedOrdinal sequencer.db n) }
          counted := readARTOrdinalNext_advanced fits })
    else .error (.persist (advancedOrdinal sequencer.db n))
  else .error (.exhausted next n)

/-- Raising the floor keeps the counter in the ordinal space. -/
theorem bumpARTOrdinalFloor_counted (writeOk : Bool) {db : DB} (floor : UInt64)
    (counted : readARTOrdinalNext db ≤ artOrdinalMax) :
    readARTOrdinalNext (bumpARTOrdinalFloor writeOk db floor) ≤ artOrdinalMax := by
  unfold bumpARTOrdinalFloor
  split_ifs with outside below written
  · exact counted
  · exact counted
  · simp only [readARTOrdinalNext]
    split
    · decide
    · exact UInt64.le_of_lt (UInt64.not_le.mp fun above => outside (.inr above))
  · exact counted

/-- The closure `touch`. -/
def touch (ordered : List Address) : Option Address → List Address
  | none => ordered
  | some address => if address ∈ ordered then ordered else ordered ++ [address]

/-- Senders and receivers in first-seen order. -/
def touchedParties (txs : List Transaction) : List Address :=
  txs.foldl (fun ordered tx => touch (touch ordered tx.fromAddr) tx.toAddr) []

/-- The accounts that are absent or hold the sentinel zero. -/
def missingIdentities (store : Accounts) (ordered : List Address) : List Address :=
  ordered.filter fun address => (store.get address).all fun doc => doc.nonce = 0

/-- The nonce of an account: its ordinal if it was missing, else the stored one. -/
def assignedNonce (store : Accounts) (missing : List Address) (first : UInt64)
    (address : Address) : UInt64 :=
  if address ∈ missing then first + UInt64.ofNat (missing.idxOf address)
  else (store.get address).elim 0 Account.nonce

/-- The block with a nonce for each listed address. -/
def stampNonces (block : ZKBlock) (ordered : List Address) (nonces : Address → UInt64) : ZKBlock :=
  { block with accountNonces := ordered.map fun address => { address, nonce := nonces address } }

/-- `EnrichBlockAccountNonces`. -/
def enrichBlockAccountNonces (env : EnrichEnv) (sequencer : Sequencer) (block : ZKBlock) :
    Except EnrichError (ZKBlock × Sequencer) :=
  if block.transactions = [] then .ok ({ block with accountNonces := [] }, sequencer)
  else if !env.connectionOk then .error .connection
  else
    let store := sequencer.db.accounts
    let ordered := touchedParties block.transactions
    match ordered.find? fun address => !env.readOk address with
    | some address => .error (.read address)
    | none =>
      let missing := env.slice.sort (missingIdentities store ordered)
      if missing = [] then
        .ok (stampNonces block ordered (assignedNonce store [] 0), sequencer)
      else
        match reserveARTOrdinals env sequencer missing.length with
        | .error cause => .error cause
        | .ok (first, reserved) =>
          .ok (stampNonces block ordered (assignedNonce store missing first), reserved)

/-! ## What a stamped block carries -/

theorem mem_touch {party : Option Address} :
    addr ∈ touch ordered party ↔ addr ∈ ordered ∨ party = some addr := by
  cases party with
  | none => simp [touch]
  | some present =>
    by_cases known : present ∈ ordered
    · rw [touch, if_pos known, Option.some.injEq]
      constructor
      · exact .inl
      · rintro (mem | rfl)
        · exact mem
        · exact known
    · simp [touch, known, eq_comm]

theorem mem_touchedParties {txs : List Transaction} :
    addr ∈ touchedParties txs ↔
      ∃ tx ∈ txs, tx.fromAddr = some addr ∨ tx.toAddr = some addr := by
  induction txs using List.reverseRecOn with
  | nil => simp [touchedParties]
  | append_singleton txs last ih =>
    rw [touchedParties, foldl_append, foldl_cons, foldl_nil, mem_touch, mem_touch,
      ← touchedParties, ih]
    simp only [mem_append, mem_singleton, or_and_right, exists_or, exists_eq_left, or_assoc]

theorem readARTOrdinalNext_pos (db : DB) : 0 < (readARTOrdinalNext db).toNat := by
  unfold readARTOrdinalNext
  split
  · decide
  split
  · decide
  · next nonzero =>
    exact Nat.pos_of_ne_zero fun zero => nonzero (UInt64.toNat_inj.mp (by simpa using zero))

variable {sequencer : Sequencer}

/-- A reservation hands out the counter and moves it past what it hands out. -/
theorem reserveARTOrdinals_spec {reserved : Sequencer} {n : Nat}
    (done : reserveARTOrdinals env sequencer n = .ok (first, reserved)) :
    first = readARTOrdinalNext sequencer.db ∧ first.toNat + n < artOrdinalMax.toNat ∧
      (readARTOrdinalNext reserved.db).toNat = first.toNat + n := by
  have limit : artOrdinalMax.toNat = 1099511627776 := rfl
  simp only [reserveARTOrdinals] at done
  split at done
  · cases done
  split at done
  · next fits =>
    split at done
    · cases done
      refine ⟨rfl, fits, ?_⟩
      have pos := readARTOrdinalNext_pos sequencer.db
      have value : (advancedOrdinal sequencer.db n).toNat =
          (readARTOrdinalNext sequencer.db).toNat + n := by
        rw [advancedOrdinal, toNat_ofNat']
        omega
      have nonzero : advancedOrdinal sequencer.db n ≠ 0 := by
        intro zero
        rw [zero, UInt64.toNat_zero] at value
        omega
      refine Eq.trans ?_ value
      simp only [readARTOrdinalNext, if_neg nonzero]
    · cases done
  · cases done

/-- What a successful enrichment computes, from the missing accounts in the order of
their texts. -/
structure Stamps (env : EnrichEnv) (sequencer after : Sequencer) (block stamped : ZKBlock)
    (missing : List Address) : Prop where
  perm : missing.Perm (missingIdentities sequencer.db.accounts (touchedParties block.transactions))
  sorted : missing.Pairwise fun first second => env.addressHex first ≤ env.addressHex second
  fits : missing ≠ [] →
    (readARTOrdinalNext sequencer.db).toNat + missing.length < artOrdinalMax.toNat
  moved : (readARTOrdinalNext after.db).toNat =
    (readARTOrdinalNext sequencer.db).toNat + missing.length
  stamped : stamped = stampNonces block (touchedParties block.transactions)
    (assignedNonce sequencer.db.accounts missing (readARTOrdinalNext sequencer.db))

theorem enrichBlockAccountNonces_stamps
    (done : enrichBlockAccountNonces env sequencer block = .ok (stamped, after)) :
    ∃ missing, Stamps env sequencer after block stamped missing := by
  simp only [enrichBlockAccountNonces] at done
  split at done
  · next empty =>
    cases done
    have none : touchedParties block.transactions = [] := by simp [touchedParties, empty]
    refine ⟨[], ?_, .nil, fun some => absurd rfl some, rfl, ?_⟩ <;> rw [none]
    · exact .refl _
    · rfl
  split at done
  · cases done
  split at done
  · cases done
  have perm := env.slice.perm
    (missingIdentities sequencer.db.accounts (touchedParties block.transactions))
  split at done
  · next none =>
    cases done
    rw [none] at perm
    exact ⟨[], perm, .nil, fun some => absurd rfl some, rfl, rfl⟩
  split at done
  · cases done
  next first reserved taken =>
  cases done
  obtain ⟨rfl, fits, moved⟩ := reserveARTOrdinals_spec taken
  exact ⟨_, perm, env.slice.sorted _, fun _ => fits, moved, rfl⟩

/-- The ordinal of a missing account is the counter plus its place. -/
theorem Stamps.toNat_assignedNonce (stamps : Stamps env sequencer after block stamped missing)
    (absent : addr ∈ missing) :
    (assignedNonce sequencer.db.accounts missing (readARTOrdinalNext sequencer.db) addr).toNat =
      (readARTOrdinalNext sequencer.db).toNat + missing.idxOf addr := by
  have limit : artOrdinalMax.toNat = 1099511627776 := rfl
  have fits := stamps.fits (ne_nil_of_mem absent)
  have place := idxOf_lt_length_of_mem absent
  rw [assignedNonce, if_pos absent, UInt64.toNat_add, toNat_ofNat']
  omega

/-- An enriched block carries a nonce for each sender and receiver, none of them
the sentinel zero, and is otherwise the block that came in. -/
structure Enriched (block stamped : ZKBlock) : Prop where
  others : stamped = { block with accountNonces := stamped.accountNonces }
  carries : ∀ tx ∈ block.transactions, ∀ address,
    tx.fromAddr = some address ∨ tx.toAddr = some address →
      address ∈ stamped.accountNonces.map AccountNonce.address
  nonzero : ∀ entry ∈ stamped.accountNonces, entry.nonce ≠ 0

theorem enriched_stampNonces
    (nonzero : ∀ addr ∈ touchedParties block.transactions, nonces addr ≠ 0) :
    Enriched block (stampNonces block (touchedParties block.transactions) nonces) where
  others := rfl
  carries tx mem addr party := by
    rw [stampNonces, map_map]
    exact mem_map.mpr ⟨addr, mem_touchedParties.mpr ⟨tx, mem, party⟩, rfl⟩
  nonzero entry mem := by
    obtain ⟨addr, listed, rfl⟩ := mem_map.mp mem
    exact nonzero addr listed

theorem enrichBlockAccountNonces_ok
    (done : enrichBlockAccountNonces env sequencer block = .ok (stamped, after)) :
    Enriched block stamped := by
  obtain ⟨missing, stamps⟩ := enrichBlockAccountNonces_stamps done
  rw [stamps.stamped]
  apply enriched_stampNonces
  intro addr listed zero
  by_cases absent : addr ∈ missing
  · have pos := readARTOrdinalNext_pos sequencer.db
    have value := stamps.toNat_assignedNonce absent
    rw [zero, UInt64.toNat_zero] at value
    omega
  · -- an account that is not missing has a stored nonce
    rw [assignedNonce, if_neg absent] at zero
    rw [stamps.perm.mem_iff, missingIdentities, mem_filter, not_and] at absent
    have identity := absent listed
    cases found : sequencer.db.accounts.get addr with
    | none => simp [found] at identity
    | some doc =>
      rw [found] at identity zero
      exact identity (decide_eq_true zero)

/-! ## Fresh ordinals -/

/-- The entries of a stamped block for accounts that had no identity on the
stamping node. -/
def freshOrdinals (store : Accounts) (stamped : ZKBlock) : List AccountNonce :=
  stamped.accountNonces.filter fun entry =>
    (store.get entry.address).all fun doc => doc.nonce = 0

/-- What an enrichment does to the counter and which ordinals it hands out. -/
structure Reserves (sequencer after : Sequencer) (block stamped : ZKBlock) : Prop where
  grows : readARTOrdinalNext sequencer.db ≤ readARTOrdinalNext after.db
  above : ∀ entry ∈ freshOrdinals sequencer.db.accounts stamped,
    readARTOrdinalNext sequencer.db ≤ entry.nonce
  inside : ∀ entry ∈ freshOrdinals sequencer.db.accounts stamped,
    entry.nonce.toNat + 1 < artOrdinalMax.toNat
  apart : ∀ first ∈ freshOrdinals sequencer.db.accounts stamped,
    ∀ second ∈ freshOrdinals sequencer.db.accounts stamped,
      first.nonce = second.nonce → first.address = second.address
  stored : ∀ entry ∈ stamped.accountNonces,
    entry ∈ freshOrdinals sequencer.db.accounts stamped ∨
      ∃ doc, sequencer.db.accounts.get entry.address = some doc ∧ entry.nonce = doc.nonce
  touched : ∀ entry ∈ stamped.accountNonces,
    entry.address ∈ touchedParties block.transactions

theorem mem_freshOrdinals_stamp
    (fresh : entry ∈ freshOrdinals store (stampNonces block ordered nonces)) :
    entry.nonce = nonces entry.address ∧ entry.address ∈ missingIdentities store ordered := by
  obtain ⟨listed, missing⟩ := mem_filter.mp fresh
  obtain ⟨addr, mem, rfl⟩ := mem_map.mp listed
  exact ⟨rfl, mem_filter.mpr ⟨mem, missing⟩⟩

/-- An entry is fresh or carries the stored identity. -/
theorem fresh_or_stored (same : ∀ addr, addr ∈ missing → addr ∈ missingIdentities store ordered)
    (listed : entry ∈ (stampNonces block ordered (assignedNonce store missing first)).accountNonces) :
    entry ∈ freshOrdinals store (stampNonces block ordered (assignedNonce store missing first)) ∨
      ∃ doc, store.get entry.address = some doc ∧ entry.nonce = doc.nonce := by
  by_cases fresh : ((store.get entry.address).all fun doc => doc.nonce = 0) = true
  · exact .inl (mem_filter.mpr ⟨listed, fresh⟩)
  obtain ⟨addr, mem, rfl⟩ := mem_map.mp listed
  have present : addr ∉ missing := fun absent =>
    fresh (mem_filter.mp (same addr absent)).2
  cases found : store.get addr with
  | none => simp [found] at fresh
  | some doc =>
    refine .inr ⟨doc, rfl, ?_⟩
    change assignedNonce store missing first addr = doc.nonce
    rw [assignedNonce, if_neg present, found]
    rfl

theorem enrichBlockAccountNonces_reserves
    (done : enrichBlockAccountNonces env sequencer block = .ok (stamped, after)) :
    Reserves sequencer after block stamped := by
  obtain ⟨missing, stamps⟩ := enrichBlockAccountNonces_stamps done
  have ordinal : ∀ entry ∈ freshOrdinals sequencer.db.accounts stamped, entry.address ∈ missing ∧
      entry.nonce.toNat =
        (readARTOrdinalNext sequencer.db).toNat + missing.idxOf entry.address := by
    intro entry fresh
    rw [stamps.stamped] at fresh
    obtain ⟨value, absent⟩ := mem_freshOrdinals_stamp fresh
    have listed := stamps.perm.mem_iff.mpr absent
    exact ⟨listed, value ▸ stamps.toNat_assignedNonce listed⟩
  refine ⟨?_, ?_, ?_, ?_, ?_, ?_⟩
  · rw [le_iff_toNat_le, stamps.moved]
    omega
  · intro entry fresh
    rw [le_iff_toNat_le, (ordinal entry fresh).2]
    omega
  · intro entry fresh
    obtain ⟨absent, value⟩ := ordinal entry fresh
    have fits := stamps.fits (ne_nil_of_mem absent)
    have place := idxOf_lt_length_of_mem absent
    omega
  · intro left fresh right other equal
    obtain ⟨absent, value⟩ := ordinal left fresh
    have same := (ordinal right other).2
    rw [equal] at value
    exact (idxOf_inj absent).mp (by omega)
  · rw [stamps.stamped]
    exact fun entry => fresh_or_stored fun addr => stamps.perm.mem_iff.mp
  · rw [stamps.stamped]
    intro entry listed
    obtain ⟨addr, mem, rfl⟩ := mem_map.mp listed
    exact mem

end Jmdn.DBOPs
