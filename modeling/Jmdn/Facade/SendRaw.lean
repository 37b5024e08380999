import Jmdn.Go.NumberText
import Jmdn.Security.Dereference

/-!
# Submission of raw transactions

`SendRawTx` of `gETH/Facade/Service`, `SubmitRawTransaction` of `Block` and
`AllChecks` of `Security`, up to the answer to the client.  A text is hexadecimal
for the JSON of a transaction or for a signed Ethereum transaction.  Logging reads
`From` and `To` before anything is checked.
-/

namespace Jmdn.Facade

open Config DBOPs Go Security

variable {α : Type} {pointer : Option α} {result : Unit}

/-! ## The text -/

/-- `hex.DecodeString`: pairs of hexadecimal digits. -/
def hexDecode : List Char → Option (List UInt8)
  | [] => some []
  | [_] => none
  | high :: low :: rest => do
      let first ← hexValue high
      let second ← hexValue low
      let others ← hexDecode rest
      return UInt8.ofNat (16 * first + second) :: others

/-- `strings.TrimPrefix` of `0x`. -/
def trimHex (text : String) : List Char :=
  match text.toList with
  | '0' :: 'x' :: digits => digits
  | digits => digits

/-- What the decoders of `encoding/json` and go-ethereum compute: a transaction from
JSON, a legacy, access list or dynamic fee transaction from its binary form, and
the chain that the V of a legacy transaction names. -/
structure Decoders where
  unmarshalJSON : List UInt8 → Option Transaction
  unmarshalBinary : List UInt8 → Option EthTx
  deriveChainID : Int → Int

/-- `ChainId`. -/
def Decoders.chainID (decoders : Decoders) : EthTx → Int
  | .dynamicFee chainID .. => chainID
  | .accessList chainID .. => chainID
  | .legacy _ _ _ _ _ _ v _ _ => decoders.deriveChainID v

/-- `convertEthTxToConfigTx`.  The error of the recovery is dropped, and so is the
access list. -/
def convertEthTxToConfigTx (decoders : Decoders) (crypto : Crypto) (now : UInt64)
    (ethTx : EthTx) : Transaction :=
  let chain := decoders.chainID ethTx
  let base : Transaction :=
    { hash := crypto.txHash ethTx
      fromAddr := some ((crypto.sender (.latest (some chain)) ethTx).getD 0)
      timestamp := now
      chainID := some chain }
  match ethTx with
  | .dynamicFee _ nonce toAddr value gasTipCap gasFeeCap gas data _ v r s =>
    { base with
      toAddr, value, txType := 2, nonce, gasLimit := gas, data, maxFee := gasFeeCap,
      maxPriorityFee := gasTipCap, v, r, s }
  | .accessList _ nonce toAddr value gasPrice gas data _ v r s =>
    { base with
      toAddr, value, txType := 1, nonce, gasLimit := gas, data, gasPrice, v, r, s }
  | .legacy nonce toAddr value gasPrice gas data v r s =>
    { base with
      toAddr, value, txType := 0, nonce, gasLimit := gas, data, gasPrice, v, r, s }

/-! ## Submission -/

inductive RawTxError where
  | notHex
  | notParsed
  | groNotInitialized
  | hashRequired
  | valuesRejected
  | refused (cause : ValidationError)
  | valueAndDataEmpty
  | sameAddress
  deriving DecidableEq, Repr

/-- How a submission ends without a hash: by an error, or by dereferencing a nil
pointer. -/
inductive Halt where
  | nilDereference
  | reported (cause : RawTxError)
  deriving DecidableEq, Repr

/-- The node a text is sent to: its decoders, its checks and accounts, its clock, and
whether `LocalGRO` is set or can be set up. -/
structure Service where
  decoders : Decoders
  voter : Voter
  store : Accounts
  groReady : Bool := true
  now : UInt64 := 0

/-- Reading through a pointer. -/
def readPointer {α : Type} : Option α → Except Halt α
  | none => .error .nilDereference
  | some value => .ok value

/-- Return an error unless a check passed. -/
def ensure (passed : Bool) (cause : RawTxError) : Except Halt Unit :=
  if passed then .ok () else .error (.reported cause)

/-- The outcome of the transaction checks as an outcome of the submission. -/
def ofRefusal : Refusal → Halt
  | .nilDereference => .nilDereference
  | .rejected cause => .reported (.refused cause)

/-- `AllChecks`; the trace reads both addresses. -/
def allChecks (service : Service) (tx : Transaction) : Except Halt Unit := do
  let sender ← readPointer tx.fromAddr
  let receiver ← readPointer tx.toAddr
  ensure (checkTransactionValues tx) .valuesRejected
  ensure service.voter.connectionsOk (.refused .connectionFailed)
  ensure service.voter.loadOk (.refused .loadAccountsFailed)
  let cache := SecurityCache.loadAccounts service.store [sender, receiver]
  let _ ← (allChecksWithConn service.voter tx cache).mapError ofRefusal

/-- `SubmitRawTransaction` up to the hand-over to the mempool, with the hash it
returns. -/
def submitRawTransaction (service : Service) (tx : Transaction) : Except Halt Hash := do
  ensure service.groReady .groNotInitialized
  let _ ← readPointer tx.fromAddr
  let _ ← readPointer tx.toAddr
  ensure (tx.hash ≠ 0) .hashRequired
  allChecks service tx
  let value ← readPointer tx.value
  ensure (value ≠ 0 ∨ tx.data ≠ []) .valueAndDataEmpty
  -- `tx.To == tx.From` compares the pointers, which two decoded fields never share
  ensure (tx.toAddr ≠ none ∨ tx.fromAddr ≠ none) .sameAddress
  return tx.hash

/-- The transaction a text stands for. -/
def decodeRaw (service : Service) (rawHex : String) : Except RawTxError Transaction :=
  match hexDecode (trimHex rawHex) with
  | none => .error .notHex
  | some rawBytes =>
    match service.decoders.unmarshalJSON rawBytes with
    | some tx => .ok tx
    | none =>
      match service.decoders.unmarshalBinary rawBytes with
      | none => .error .notParsed
      | some ethTx =>
        .ok (convertEthTxToConfigTx service.decoders service.voter.crypto service.now ethTx)

/-- `SendRawTx`. -/
def sendRawTx (service : Service) (rawHex : String) : Except Halt Hash := do
  let tx ← (decodeRaw service rawHex).mapError Halt.reported
  submitRawTransaction service tx

/-! ## Which texts make the node read a nil pointer -/

/-- The checks before the value is read pass, and the balance of the sender is a
number. -/
structure ReachesValue (service : Service) (tx : Transaction) : Prop where
  hash : tx.hash ≠ 0
  values : checkTransactionValues tx = true
  connected : service.voter.connectionsOk = true
  loaded : service.voter.loadOk = true
  signed : ∃ chain, service.voter.expectedChainID = some chain ∧
    WellSigned service.voter.crypto chain tx
  sender : ∀ sender ∈ tx.fromAddr, ∃ doc, service.store.get sender = some doc ∧
    (setString doc.balance).isSome
  receiver : ∀ receiver ∈ tx.toAddr, service.voter.allowNewReceiverAccounts = true ∨
    (service.store.get receiver).isSome

/-- A transaction whose submission reads through a nil pointer: without a sender or
a receiver at once, without a value where the balance is checked. -/
def ReadsNil (service : Service) (tx : Transaction) : Prop :=
  service.groReady = true ∧
    (tx.fromAddr = none ∨ tx.toAddr = none ∨ (tx.value = none ∧ ReachesValue service tx))

@[simp]
theorem readPointer_eq_nil_iff :
    readPointer pointer = .error .nilDereference ↔ pointer = none := by
  cases pointer <;> simp [readPointer]

@[simp]
theorem readPointer_eq_ok_iff {value : α} :
    readPointer pointer = .ok value ↔ pointer = some value := by
  cases pointer <;> simp [readPointer]

@[simp]
theorem ensure_ne_nil (passed : Bool) (cause : RawTxError) :
    ensure passed cause ≠ .error .nilDereference := by
  cases passed <;> simp [ensure]

@[simp]
theorem ensure_eq_ok_iff {passed : Bool} {cause : RawTxError} :
    ensure passed cause = .ok result ↔ passed = true := by
  cases passed <;> simp [ensure]

theorem mapError_ofRefusal_eq_nil_iff {outcome : Except Refusal α} :
    outcome.mapError ofRefusal = .error .nilDereference ↔ outcome = .error .nilDereference := by
  cases outcome with
  | ok value => simp [Except.mapError]
  | error refusal => cases refusal <;> simp [Except.mapError, ofRefusal]

section

variable {service : Service} {tx : Transaction} {sender receiver : Address}

@[simp]
theorem pure_ne_nil (value : α) :
    (pure value : Except Halt α) ≠ .error .nilDereference := by
  intro same
  cases same

/-- `AllChecks` of a transaction between two accounts. -/
theorem allChecks_eq_nil_iff (sent : tx.fromAddr = some sender)
    (received : tx.toAddr = some receiver) (hashed : tx.hash ≠ 0) :
    allChecks service tx = .error .nilDereference ↔
      tx.value = none ∧ ReachesValue service tx := by
  have loadedSender : (SecurityCache.loadAccounts service.store [sender, receiver]).getAccount
      sender = service.store.get sender := by
    simp [SecurityCache.getAccount, SecurityCache.loadAccounts]
  have loadedReceiver : (SecurityCache.loadAccounts service.store [sender, receiver]).getAccount
      receiver = service.store.get receiver := by
    simp [SecurityCache.getAccount, SecurityCache.loadAccounts]
  unfold allChecks
  simp only [bind_eq_error_iff, sent, received, readPointer_eq_nil_iff, readPointer_eq_ok_iff,
    ensure_ne_nil, ensure_eq_ok_iff, mapError_ofRefusal_eq_nil_iff, reduceCtorEq, false_or,
    Option.some.injEq, exists_eq_left', exists_const, pure_ne_nil, and_false, exists_false,
    or_false, allChecksWithConn_eq_nil_iff sent, loadedSender, Option.mem_some_iff,
    forall_eq', loadedReceiver]
  constructor
  · rintro ⟨values, connected, loaded, absent, signed, funded, admitted⟩
    refine ⟨absent, hashed, values, connected, loaded, signed, ?_, ?_⟩
    · rw [sent]
      rintro _ ⟨⟩
      exact funded
    · rw [received]
      rintro _ ⟨⟩
      exact admitted
  · rintro ⟨absent, reaches⟩
    exact ⟨reaches.values, reaches.connected, reaches.loaded, absent, reaches.signed,
      reaches.sender sender sent, reaches.receiver receiver received⟩

/-- A transaction that passes `AllChecks` has a value. -/
theorem value_of_allChecks (passed : allChecks service tx = .ok result) :
    tx.value.isSome := by
  obtain ⟨_, -, passed⟩ := bind_eq_ok passed
  obtain ⟨_, -, passed⟩ := bind_eq_ok passed
  obtain ⟨_, -, passed⟩ := bind_eq_ok passed
  obtain ⟨_, -, passed⟩ := bind_eq_ok passed
  obtain ⟨_, -, passed⟩ := bind_eq_ok passed
  obtain ⟨_, checked, -⟩ := bind_eq_ok passed
  exact (allChecksWithConn_ok (mapError_eq_ok checked)).value

theorem submitRawTransaction_eq_nil_iff :
    submitRawTransaction service tx = .error .nilDereference ↔ ReadsNil service tx := by
  unfold submitRawTransaction ReadsNil
  simp only [bind_eq_error_iff, readPointer_eq_nil_iff, readPointer_eq_ok_iff, ensure_ne_nil,
    ensure_eq_ok_iff, false_or, exists_const, pure_ne_nil, and_false, or_false,
    decide_eq_true_eq]
  refine and_congr_right fun _ => ?_
  cases sent : tx.fromAddr with
  | none => simp
  | some sender =>
    cases received : tx.toAddr with
    | none => simp
    | some receiver =>
      simp only [reduceCtorEq, false_or, Option.some.injEq, exists_eq_left']
      constructor
      · rintro ⟨hashed, crashed | ⟨_, passed, absent⟩⟩
        · exact (allChecks_eq_nil_iff sent received hashed).mp crashed
        · have present := value_of_allChecks passed
          rw [absent] at present
          cases present
      · intro reaches
        exact ⟨reaches.2.hash, .inl ((allChecks_eq_nil_iff sent received
          reaches.2.hash).mpr reaches)⟩

end

/-- A text is answered, with a hash or an error, exactly when the transaction it
stands for, if any, reads no nil pointer. -/
theorem sendRawTx_answers_iff (service : Service) (rawHex : String) :
    ((∃ hash, sendRawTx service rawHex = .ok hash) ∨
      ∃ cause, sendRawTx service rawHex = .error (.reported cause)) ↔
      ∀ tx, decodeRaw service rawHex = .ok tx → ¬ ReadsNil service tx := by
  have answers : ∀ {outcome : Except Halt Hash}, ((∃ hash, outcome = .ok hash) ∨
      ∃ cause, outcome = .error (.reported cause)) ↔ outcome ≠ .error .nilDereference := by
    intro outcome
    cases outcome with
    | ok hash => simp
    | error halt => cases halt <;> simp
  rw [answers]
  unfold sendRawTx
  cases decoded : decodeRaw service rawHex with
  | error cause => simp [Except.mapError, bind, Except.bind]
  | ok tx =>
    have step : ((Except.ok tx : Except RawTxError Transaction).mapError Halt.reported >>=
        submitRawTransaction service) = submitRawTransaction service tx := rfl
    simp only [step, ne_eq, submitRawTransaction_eq_nil_iff, Except.ok.injEq, forall_eq']

/-- The RLP encoding of a legacy contract creation: nonce 0, gas price 1, gas 21000, no
receiver, value 1, no data, and the signature values 37, 1 and 1. -/
def creationBytes : List UInt8 :=
  [0xcb, 0x80, 0x01, 0x82, 0x52, 0x08, 0x80, 0x01, 0x80, 0x25, 0x01, 0x01]

/-- A node whose JSON decoder reads the empty object and whose binary decoder reads
the creation. -/
def sampleService : Service where
  decoders :=
    { unmarshalJSON := fun data => if data = [0x7b, 0x7d] then some {} else none
      unmarshalBinary := fun data =>
        if data = creationBytes then some (.legacy 0 none 1 1 21000 [] 37 1 1) else none
      deriveChainID := fun _ => 1 }
  voter :=
    { crypto :=
        { txHash := fun _ => 7, sender := fun _ _ => some 1, keccak256 := fun _ => 0
          sha256 := fun _ _ => 0 } }
  store := Accounts.empty

/-- The empty JSON object has no sender, and a contract creation no receiver. -/
theorem empty_object_and_creation_read_nil :
    decodeRaw sampleService "0x7b7d" = .ok {} ∧
      sendRawTx sampleService "0x7b7d" = .error .nilDereference ∧
      (decodeRaw sampleService "0xcb8001825208800180250101").toOption.map Transaction.toAddr =
        some none ∧
      sendRawTx sampleService "0xcb8001825208800180250101" = .error .nilDereference := by
  decide +kernel

end Jmdn.Facade
