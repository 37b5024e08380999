import Mathlib.Data.BitVec

/-!
# Blocks, transactions and accounts

The records of `config/ZKBlock.go`, and the account document of
`DB_OPs/account_immuclient.go`.  A pointer of the source is an `Option`, a
`*big.Int` an `Option Int`, and every field has the zero value of its Go type as
its default.

Addresses and hashes are bit vectors, so their numerical order is the order of
their bytes.  The hexadecimal forms the source uses as map and database keys are
injective, and the maps below are keyed by the values themselves.
-/

namespace Jmdn.Config

/-- `common.Address`: twenty bytes. -/
abbrev Address := BitVec 160

/-- `common.Hash`: thirty-two bytes. -/
abbrev Hash := BitVec 256

instance lawfulBEqAddress : LawfulBEq Address := inferInstance

instance lawfulBEqHash : LawfulBEq Hash := inferInstance

structure AccessTuple where
  address : Address
  storageKeys : List Hash
  deriving DecidableEq, Repr

/-- `config.Transaction`.  `toAddr` is absent for a contract creation. -/
structure Transaction where
  hash : Hash := 0
  fromAddr : Option Address := none
  toAddr : Option Address := none
  value : Option Int := none
  txType : UInt8 := 0
  timestamp : UInt64 := 0
  chainID : Option Int := none
  nonce : UInt64 := 0
  gasLimit : UInt64 := 0
  gasPrice : Option Int := none
  maxFee : Option Int := none
  maxPriorityFee : Option Int := none
  data : List UInt8 := []
  accessList : List AccessTuple := []
  v : Option Int := none
  r : Option Int := none
  s : Option Int := none
  deriving DecidableEq, Repr

/-- One weighted destination of the coinbase side of a gas fee. -/
structure FeeRecipient where
  addr : Address
  weight : UInt64
  deriving DecidableEq, Repr

/-- The identity nonce a block carries for one account. -/
structure AccountNonce where
  address : Address
  nonce : UInt64
  deriving DecidableEq, Repr

/-- `config.ZKBlock`. -/
structure ZKBlock where
  starkProof : List UInt8 := []
  commitment : List UInt32 := []
  proofHash : String := ""
  status : String := ""
  txnsRoot : String := ""
  transactions : List Transaction := []
  timestamp : Int64 := 0
  extraData : String := ""
  stateRoot : Hash := 0
  logsBloom : List UInt8 := []
  coinbaseAddr : Option Address := none
  zkvmAddr : Option Address := none
  feeRecipients : List FeeRecipient := []
  prevHash : Hash := 0
  blockHash : Hash := 0
  gasLimit : UInt64 := 0
  gasUsed : UInt64 := 0
  blockNumber : UInt64 := 0
  l1TxHash : String := ""
  l1BlockNumber : UInt64 := 0
  accountNonces : List AccountNonce := []
  deriving DecidableEq, Repr

/-- `DB_OPs.Account`, the stored account document.  `metadata` is the JSON text
of the optional metadata object. -/
@[ext]
structure Account where
  didAddress : String := ""
  nonce : UInt64 := 0
  address : Address := 0
  balance : String := ""
  txNonce : UInt64 := 0
  txCountSent : UInt64 := 0
  accountType : String := ""
  createdAt : Int64 := 0
  updatedAt : Int64 := 0
  metadata : Option String := none
  deriving DecidableEq, Repr

/-- The hashes of a block's transactions, in block order. -/
def txHashes (block : ZKBlock) : List Hash :=
  block.transactions.map Transaction.hash

end Jmdn.Config
