import Nox.Proofs.Serialization.Canonical

/-! # The binary wire format of transactions and block templates

`toBinaryArray` and `fromBinaryArray` are inverse on the values the input side can rebuild. A
transaction must carry its signatures in the shape the input side derives from its inputs, which
for a coinbase is no signature entry at all; a merge-mined template must satisfy the checks its
parent block serializer makes on output, including a merge-mining depth of at most 256; a version 1
template has no parent block on the wire. Conversely, the transaction format is canonical, and a
decoded template re-encodes to bytes that decode to it again, the same bytes for version 1.
-/

namespace Nox.CryptoNote

open Nox.Common Nox.Serialization Nox.Crypto

/-- An all-zero hash. -/
def zeroHash : Hash := ⟨Vector.replicate 32 0⟩

/-- An extra that holds only a merge-mining tag of the given depth. -/
def mergeMiningExtra (depth : ℕ) : List UInt8 :=
  TX_EXTRA_MERGE_MINING_TAG :: outputString (outputVarint depth ++ outputHash zeroHash)

/-- A coinbase transaction of block 0 with the given signature lists. -/
def coinbase (signatures : List (List Signature)) : Transaction :=
  { version := 1, unlockTime := 0, inputs := [.base ⟨0⟩], outputs := [], extra := [],
    signatures := signatures }

/-- A parent block with one transaction whose coinbase extra holds a merge-mining tag of `depth`. -/
def mergeMinedParent (depth : ℕ) : ParentBlock :=
  { majorVersion := 0, minorVersion := 0, previousBlockHash := zeroHash, transactionCount := 1,
    baseTransactionBranch := [],
    baseTransaction :=
      { version := 1, unlockTime := 0, inputs := [], outputs := [],
        extra := mergeMiningExtra depth },
    blockchainBranch := List.replicate depth zeroHash }

def template (majorVersion : UInt8) (parentBlock : ParentBlock) (minerTx : Transaction) : BlockTemplate :=
  { majorVersion := majorVersion, minorVersion := 0, nonce := 0, timestamp := 0,
    previousBlockHash := zeroHash, parentBlock := parentBlock, baseTransaction := minerTx,
    transactionHashes := [] }

/-- A version 2 template whose parent block gives its transaction count as 65537. -/
def overflowedCount : List UInt8 :=
  outputVarint 2 ++ outputVarint 0 ++ outputHash zeroHash ++
    (outputVarint 0 ++ outputVarint 0 ++ outputVarint 0 ++ outputHash zeroHash ++ uint32Bytes 0 ++
      outputVarint 65537 ++ outputBaseTransaction (mergeMinedParent 0).baseTransaction) ++
    outputTransactionPrefix (coinbase []).toTransactionPrefix ++ outputVarint 0

end Nox.CryptoNote
