import Mathlib.Data.Vector.Basic
import Nox.Library.BoundedQuantifiers

/-! # Consensus data types of `include/CryptoTypes.h` and `include/CryptoNote.h`

The cryptographic values are fixed-size byte arrays. Transaction inputs and output targets are
the `boost::variant`s of the source, one constructor per alternative. Integer fields keep the
width of their C++ type, so that a serializer round trip is a statement about every value of the
type. `RawBlock` is the stored form of a block: its template's bytes and its transactions' bytes.
-/

namespace Nox.Crypto

/-- `Crypto::Hash`. -/
structure Hash where
  data : Vector UInt8 32
deriving DecidableEq, Repr

/-- `Crypto::PublicKey`. -/
structure PublicKey where
  data : Vector UInt8 32
deriving DecidableEq, Repr

/-- `Crypto::KeyImage`. -/
structure KeyImage where
  data : Vector UInt8 32
deriving DecidableEq, Repr

/-- `Crypto::Signature`: the two scalars of one ring member. -/
structure Signature where
  data : Vector UInt8 64
deriving DecidableEq, Repr

end Nox.Crypto

namespace Nox.CryptoNote

open Nox.Crypto

/-- The coinbase input, naming the index of the block it creates. -/
structure BaseInput where
  blockIndex : UInt32
deriving DecidableEq, Repr

/-- A ring input: the amount, the ring members as relative global output indexes, and the key
image that marks the spent output. -/
structure KeyInput where
  amount : UInt64
  outputIndexes : List UInt32
  keyImage : KeyImage
deriving DecidableEq, Repr

/-- `boost::variant<BaseInput, KeyInput>`. -/
inductive TransactionInput where
  | base (input : BaseInput)
  | key (input : KeyInput)
deriving DecidableEq, Repr

/-- The one-time public key an output pays to. -/
structure KeyOutput where
  key : PublicKey
deriving DecidableEq, Repr

/-- `boost::variant<KeyOutput>`. -/
inductive TransactionOutputTarget where
  | key (output : KeyOutput)
deriving DecidableEq, Repr

structure TransactionOutput where
  amount : UInt64
  target : TransactionOutputTarget
deriving DecidableEq, Repr

structure TransactionPrefix where
  version : UInt8
  unlockTime : UInt64
  inputs : List TransactionInput
  outputs : List TransactionOutput
  extra : List UInt8
deriving DecidableEq, Repr

/-- A transaction with one list of ring signatures per input. -/
structure Transaction extends TransactionPrefix where
  signatures : List (List Signature)
deriving DecidableEq, Repr

/-- The coinbase of a merge-mined parent block: a prefix without signatures. -/
structure BaseTransaction extends TransactionPrefix
deriving DecidableEq, Repr

/-- The merge-mined parent block carried by blocks of major version 2 and later. -/
structure ParentBlock where
  majorVersion : UInt8
  minorVersion : UInt8
  previousBlockHash : Hash
  transactionCount : UInt16
  baseTransactionBranch : List Hash
  baseTransaction : BaseTransaction
  blockchainBranch : List Hash
deriving DecidableEq, Repr

structure BlockHeader where
  majorVersion : UInt8
  minorVersion : UInt8
  nonce : UInt32
  timestamp : UInt64
  previousBlockHash : Hash
deriving DecidableEq, Repr

structure BlockTemplate extends BlockHeader where
  parentBlock : ParentBlock
  baseTransaction : Transaction
  transactionHashes : List Hash
deriving DecidableEq, Repr

/-- A block as stored and relayed: the serialized template and the serialized transactions. -/
structure RawBlock where
  block : List UInt8
  transactions : List (List UInt8)
deriving DecidableEq, Repr

end Nox.CryptoNote
