import Jmdn.Facade.SendRaw

/-!
# Rebuilding a submitted transaction

The checks of a submitted transaction rebuild the Ethereum transaction from its
`config.Transaction`.  The conversion keeps every field but the access list, so a
signed transaction passes them exactly when it has none.
-/

namespace Jmdn.Facade

open Config Security

/-- The access list of a transaction; a legacy one has none. -/
def accessTuples : EthTx → List AccessTuple
  | .dynamicFee _ _ _ _ _ _ _ _ accessList _ _ _ => accessList
  | .accessList _ _ _ _ _ _ _ accessList _ _ _ => accessList
  | .legacy .. => []

/-- A transaction without its access list. -/
def dropAccessList : EthTx → EthTx
  | .dynamicFee chainID nonce toAddr value gasTipCap gasFeeCap gas data _ v r s =>
    .dynamicFee chainID nonce toAddr value gasTipCap gasFeeCap gas data [] v r s
  | .accessList chainID nonce toAddr value gasPrice gas data _ v r s =>
    .accessList chainID nonce toAddr value gasPrice gas data [] v r s
  | .legacy nonce toAddr value gasPrice gas data v r s =>
    .legacy nonce toAddr value gasPrice gas data v r s

theorem dropAccessList_eq_self_iff (ethTx : EthTx) :
    dropAccessList ethTx = ethTx ↔ accessTuples ethTx = [] := by
  cases ethTx <;> simp [dropAccessList, accessTuples, eq_comm]

/-- A transaction signed for a chain by the key of an address: it names the chain,
and the signers for the chain recover the address, the EIP-155 signer where the
transaction is a legacy one. -/
structure SignedFor (decoders : Decoders) (crypto : Crypto) (chain : Int) (signer : Address)
    (ethTx : EthTx) : Prop where
  chainID : decoders.chainID ethTx = chain
  latest : crypto.sender (.latest (some chain)) ethTx = some signer
  eip155 : ∀ nonce toAddr value gasPrice gas data v r s,
    ethTx = .legacy nonce toAddr value gasPrice gas data v r s →
      crypto.sender (.eip155 (some chain)) ethTx = some signer

section

variable (decoders : Decoders) (crypto : Crypto) (now : UInt64) (ethTx : EthTx)

/-- Converting and rebuilding loses the access list and nothing else. -/
theorem ethTxFromConfig_convert :
    ethTxFromConfig (convertEthTxToConfigTx decoders crypto now ethTx) = dropAccessList ethTx := by
  cases ethTx <;> rfl

theorem hash_convert :
    (convertEthTxToConfigTx decoders crypto now ethTx).hash = crypto.txHash ethTx := by
  cases ethTx <;> rfl

variable {decoders crypto ethTx} {chain : Int} {signer : Address}

section

variable (signed : SignedFor decoders crypto chain signer ethTx)
include signed

theorem fromAddr_convert :
    (convertEthTxToConfigTx decoders crypto now ethTx).fromAddr = some signer := by
  have recovered : (convertEthTxToConfigTx decoders crypto now ethTx).fromAddr =
      some ((crypto.sender (.latest (some (decoders.chainID ethTx))) ethTx).getD 0) := by
    cases ethTx <;> rfl
  rw [recovered, signed.chainID, signed.latest, Option.getD_some]

/-- Without an access list, the rebuilt transaction is the signed one. -/
theorem checkSignature_convert (plain : accessTuples ethTx = []) :
    checkSignature crypto (some chain) (convertEthTxToConfigTx decoders crypto now ethTx) =
      true := by
  have rebuilt : ethTxFromConfig (convertEthTxToConfigTx decoders crypto now ethTx) = ethTx :=
    (ethTxFromConfig_convert decoders crypto now ethTx).trans
      ((dropAccessList_eq_self_iff ethTx).mpr plain)
  have known := fromAddr_convert now signed
  unfold checkSignature
  rw [known, rebuilt]
  cases ethTx with
  | dynamicFee => simp [convertEthTxToConfigTx, signed.latest]
  | accessList => simp [convertEthTxToConfigTx, signed.latest]
  | legacy nonce toAddr value gasPrice gas data v r s =>
    have recovered := signed.eip155 nonce toAddr value gasPrice gas data v r s rfl
    simp [convertEthTxToConfigTx, recovered]

/-- A transaction signed for the configured chain keeps its signer through the
conversion, and it passes the hash and signature checks exactly when it has no
access list. -/
theorem converted_passes_checks_iff
    (collisionFree : crypto.txHash (dropAccessList ethTx) = crypto.txHash ethTx →
      dropAccessList ethTx = ethTx) :
    ((convertEthTxToConfigTx decoders crypto now ethTx).fromAddr = some signer ∧
      checkTransactionHash crypto (convertEthTxToConfigTx decoders crypto now ethTx) = true ∧
      checkSignature crypto (some chain) (convertEthTxToConfigTx decoders crypto now ethTx) =
        true) ↔ accessTuples ethTx = [] := by
  have hashed : checkTransactionHash crypto (convertEthTxToConfigTx decoders crypto now ethTx) =
      true ↔ accessTuples ethTx = [] := by
    rw [checkTransactionHash, decide_eq_true_eq, ethTxFromConfig_convert, hash_convert,
      ← dropAccessList_eq_self_iff]
    exact ⟨collisionFree, congrArg crypto.txHash⟩
  constructor
  · rintro ⟨-, passed, -⟩
    exact hashed.mp passed
  · intro plain
    exact ⟨fromAddr_convert now signed, hashed.mpr plain, checkSignature_convert now signed plain⟩

end

end

/-- Hashes that tell whether a transaction has an access list, and one key. -/
def sampleCrypto : Crypto where
  txHash ethTx := BitVec.ofNat 256 (accessTuples ethTx).length
  sender _ _ := some 1
  keccak256 _ := 0
  sha256 _ _ := 0

def sampleDecoders : Decoders where
  unmarshalJSON _ := none
  unmarshalBinary _ := none
  deriveChainID _ := 7

/-- A dynamic fee transfer on chain 7 with a given access list. -/
def sampleTransfer (accessList : List AccessTuple) : EthTx :=
  .dynamicFee 7 0 (some 2) 5 1 2 21000 [] accessList 0 1 1

theorem signedFor_sampleTransfer (accessList : List AccessTuple) :
    SignedFor sampleDecoders sampleCrypto 7 1 (sampleTransfer accessList) where
  chainID := rfl
  latest := rfl
  eip155 _ _ _ _ _ _ _ _ _ same := by cases same

theorem plain_transfer_passes_checks :
    (convertEthTxToConfigTx sampleDecoders sampleCrypto 0 (sampleTransfer [])).fromAddr = some 1 ∧
      checkTransactionHash sampleCrypto
        (convertEthTxToConfigTx sampleDecoders sampleCrypto 0 (sampleTransfer [])) = true ∧
      checkSignature sampleCrypto (some 7)
        (convertEthTxToConfigTx sampleDecoders sampleCrypto 0 (sampleTransfer [])) = true :=
  (converted_passes_checks_iff 0 (signedFor_sampleTransfer []) fun _ => rfl).mpr rfl

/-- With an access list of one entry the rebuilt transaction has another hash. -/
theorem access_list_fails_hash_check :
    SignedFor sampleDecoders sampleCrypto 7 1 (sampleTransfer [⟨5, []⟩]) ∧
      checkTransactionHash sampleCrypto
        (convertEthTxToConfigTx sampleDecoders sampleCrypto 0 (sampleTransfer [⟨5, []⟩])) =
          false :=
  ⟨signedFor_sampleTransfer _, by decide +kernel⟩

end Jmdn.Facade
