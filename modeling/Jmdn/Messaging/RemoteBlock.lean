import Jmdn.Messaging.Certificate
import Jmdn.Messaging.Equivocation
import Jmdn.Security.Checks

/-!
# Admission of remote blocks

`validateRemoteBlock` of `messaging/blockPropagation.go` with the body binding
and the chain linkage of `messaging/consensus_hardening.go`.  The decoding of the
certificate text belongs to `encoding/json` and is a parameter.
-/

namespace Jmdn.Messaging

open Config Go Security

/-- The parts of `config.BlockMessage` the gate reads: the block pointer and the
text under `bls_results` of its data map. -/
structure BlockMessage where
  block : Option ZKBlock := none
  blsResults : Option String := none

/-- What the gate reads of the node: flags, the configured chain, the outside
functions, the committee, the local chain and the equivocation records.
`localTip` and `blockByNumber` answer `none` on a read error. -/
structure Node where
  enforceBodyBinding : Bool := true
  enforceBlockLinkage : Bool := true
  expectedChainID : Option Int := none
  crypto : Crypto
  committee : CommitteeConfig := {}
  verifier : VoteVerifier
  decodeResponses : String → Option (List BLSresponse)
  localTip : Option UInt64 := none
  blockByNumber : UInt64 → Option ZKBlock := fun _ => none
  storeIO : StoreIO := {}
  equivocation : EquivocationState := {}

/-! ## Body binding -/

/-- `RecomputeBlockHashFromTxs`. -/
def recomputeBlockHashFromTxs (crypto : Crypto) (txs : List Transaction) : Hash :=
  if txs = [] then 0 else crypto.keccak256 (txs.map Transaction.hash)

/-- One level of the Merkle tree; an odd last leaf is paired with itself. -/
def merkleLevel (crypto : Crypto) : List Hash → List Hash
  | [] => []
  | [last] => [crypto.sha256 last last]
  | left :: right :: rest => crypto.sha256 left right :: merkleLevel crypto rest

/-- The levels of the tree up to a single root.  Each level is shorter than the
one below it, so the number of leaves bounds the number of levels. -/
def merkleRoot (crypto : Crypto) : Nat → List Hash → Hash
  | 0, level => level.headD 0
  | fuel + 1, level =>
    if level.length > 1 then merkleRoot crypto fuel (merkleLevel crypto level)
    else level.headD 0

/-- `RecomputeTxnsRoot`; a single leaf is hashed with itself. -/
def recomputeTxnsRoot (crypto : Crypto) (txs : List Transaction) : String :=
  match txs.map Transaction.hash with
  | [] => hashHex 0
  | [only] => hashHex (crypto.sha256 only only)
  | level => hashHex (merkleRoot crypto level.length level)

/-- `checkBodyBinding`. -/
def checkBodyBinding (crypto : Crypto) (block : ZKBlock) : Option BlockRejection :=
  let wantHash := recomputeBlockHashFromTxs crypto block.transactions
  if block.blockHash ≠ wantHash then some (.bodyMismatch block.blockHash wantHash)
  else if trimSpace block.txnsRoot ≠ "" then
    let want := recomputeTxnsRoot crypto block.transactions
    if equalFoldHex (trimStart block.txnsRoot "0x") (trimStart want "0x") then none
    else some (.txnsRootMismatch block.blockHash block.txnsRoot want)
  else none

/-! ## Linkage -/

/-- `stateRootChain`: a parent without a state root is not chained from. -/
def stateRootChain (crypto : Crypto) (parentStateRoot blockHash : Hash) : Option Hash :=
  if parentStateRoot = 0 then none else some (crypto.keccak256 [parentStateRoot, blockHash])

/-- `linkageDecision`.  `none` for the tip or the parent is a read error or an
absent block. -/
def linkageDecision (crypto : Crypto) (block : ZKBlock) (localTip : Option UInt64)
    (parent : Option ZKBlock) : Option BlockRejection :=
  match localTip with
  | none => some (.tipUnreadable block.blockNumber)
  | some tip =>
    if tip = 0 then some (.notBootstrapped block.blockNumber)
    else if block.blockNumber ≤ tip then some (.staleHeight block.blockNumber tip)
    else if block.blockNumber > tip + 1 then some (.heightGap block.blockNumber (tip + 1) tip)
    else
      match parent with
      | none => some (.parentUnavailable tip block.blockNumber)
      | some parent =>
        if block.prevHash ≠ parent.blockHash then
          some (.badParent block.blockNumber block.prevHash tip parent.blockHash)
        else
          match stateRootChain crypto parent.stateRoot block.blockHash with
          | none => none
          | some want =>
            if block.stateRoot ≠ want then
              some (.badStateRoot block.blockNumber block.stateRoot parent.stateRoot want)
            else none

/-- `checkLinkage`; the request for catch-up it may send is left out. -/
def checkLinkage (node : Node) (block : ZKBlock) : Option BlockRejection :=
  let parent :=
    match node.localTip with
    | some tip => if tip > 0 ∧ block.blockNumber = tip + 1 then node.blockByNumber tip else none
    | none => none
  linkageDecision node.crypto block node.localTip parent

/-! ## The gate -/

/-- The checks of one transaction. -/
def checkTransaction (node : Node) (index : Nat) (tx : Transaction) : Option BlockRejection :=
  if tx.fromAddr = none then some (.nilSender index)
  else if !checkSignature node.crypto node.expectedChainID tx then
    some (.badSignature index tx.hash)
  else if !checkTransactionHash node.crypto tx then some (.txHashMismatch index)
  else if !checkTransactionValues tx then some (.negativeTxValue index)
  else none

/-- The loop over the transactions. -/
def checkTransactions (node : Node) : Nat → List Transaction → Option BlockRejection
  | _, [] => none
  | index, tx :: rest =>
    (checkTransaction node index tx).or (checkTransactions node (index + 1) rest)

/-- The loop over the nonces, with the last nonce of each sender. -/
def checkNonces : Nat → (Address → Option UInt64) → List Transaction → Option BlockRejection
  | _, _, [] => none
  | index, lastNonce, tx :: rest =>
    match tx.fromAddr with
    -- the loop before this one has rejected a nil sender
    | none => none
    | some sender =>
      match lastNonce sender with
      | some previous =>
        if tx.nonce ≤ previous then some (.badNonce index sender tx.nonce previous)
        else checkNonces (index + 1) (Function.update lastNonce sender (some tx.nonce)) rest
      | none =>
        checkNonces (index + 1) (Function.update lastNonce sender (some tx.nonce)) rest

/-- `verifyBlockCertificate`. -/
def verifyBlockCertificate (node : Node) (block : ZKBlock) (blsResults : Option String) :
    Option BlockRejection :=
  match blsResults with
  | none => some (.noCertificate block.blockHash)
  | some raw =>
    if raw = "" then some (.noCertificate block.blockHash)
    else
      match node.decodeResponses raw with
      | none => some .malformedCertificate
      | some responses =>
        if responses = [] then some .emptyCertificate
        else
          match verifyCertificate node.committee node.verifier responses
              (hashHex block.blockHash) block.blockNumber with
          | .error _ => some .committeeSourceInvalid
          | .ok result =>
            if result.reached then none
            else some (.quorumNotMet result.yesVotes result.threshold result.committeeSize)

/-- The checks that need no database and no certificate, in order; the first rejection
wins. -/
def contentChecks (node : Node) (block : ZKBlock) : Option BlockRejection :=
  if block.transactions = [] then some (.emptyBlock block.blockHash)
  else if block.feeRecipients ≠ [] then some (.feeRecipientsUnsupported block.blockHash)
  else
    (checkTransactions node 0 block.transactions).or <|
    (checkNonces 0 (fun _ => none) block.transactions).or <|
    if node.enforceBodyBinding then
      (checkBodyBinding node.crypto block).or <|
      if checkBlockHash node.crypto block then none
      else some (.blockHashMismatch block.blockHash)
    else none

/-- The checks before equivocation, in order. -/
def admissionChecks (node : Node) (block : ZKBlock) (blsResults : Option String) :
    Option BlockRejection :=
  (contentChecks node block).or <|
  (if node.enforceBlockLinkage then checkLinkage node block else none).or <|
  verifyBlockCertificate node block blsResults

/-- `validateRemoteBlock`: the outcome, and the equivocation records afterwards.
The proof seam `verifyBlockProof` accepts every block. -/
def validateRemoteBlock (node : Node) (message : BlockMessage) :
    EquivocationResult × EquivocationState :=
  match message.block with
  | none => (.reject .nilBlock, node.equivocation)
  | some block =>
    match admissionChecks node block message.blsResults with
    | some rejection => (.reject rejection, node.equivocation)
    | none =>
      checkEquivocation node.storeIO node.equivocation block.blockNumber
        (hashHex block.blockHash)

end Jmdn.Messaging
