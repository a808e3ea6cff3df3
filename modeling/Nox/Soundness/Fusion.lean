import Nox.Proofs.Wallet.Fusion
import Nox.Soundness.WalletGreen

/-! # Fusion transactions the daemon accepts

`createFusionTransaction` picks its inputs from one power-of-ten bucket, none of them dust, sums
them, decomposes the sum without a dust threshold and sends the outputs sorted, once the transaction
is within `fusionTxMaxSize` with `fusionTxMinInputCount` inputs or more. The daemon decomposes the
sum again, with its fusion dust threshold, and compares. The sum is a multiple of the bucket's power
of ten, so no two of its chunks are dust together and the two decompositions agree; and it is at
most nine units of the bucket for each input, so once there are twelve inputs it has at most a
quarter as many chunks.

Both facts are about the sum as a number, and the wallet adds in a word. They hold for a wallet
that holds no more than the money supply, as a wallet of the chain does. A larger sum wraps to a
number of no bucket, the wallet sends it decomposed into many chunks, and the daemon rejects the
transaction.
-/

namespace Nox.CryptoNote

open Nox.Crypto

namespace Scenario

/-- Stand-ins for the cryptography of a fusion transaction. -/
def fusionCrypto : TransactionCrypto where
  transactionPublicKey := keyOf 40
  derivePublicKey _ outputIndex := keyOf (50 + outputIndex)
  generateKeyImage input := ⟨input.keyInfo.realOutput.transactionPublicKey.data⟩
  generateRingSignature _ _ _ := ⟨Vector.replicate 64 0⟩

/-- Engines that always draw 0, and the stand-in cryptography in every round. -/
def fusionDraws : FusionDraws := ⟨fun _ => 0, fun _ => 0, fun _ _ => 0, fun _ => fusionCrypto⟩

/-- Twelve outputs of the amount, at global indexes 0 to 11. -/
def fusionOutputs (amount : UInt64) : List TransactionOutputInformation :=
  (List.range 12).map fun i => ⟨amount, UInt32.ofNat i, 0, hashOf (60 + i), keyOf (60 + i), keyOf (80 + i)⟩

/-- A wallet of the configuration's currency, at height 0, whose one address holds twelve outputs of
the amount. -/
def fusionWallet (amount : UInt64) : FusionWallet where
  currency := currency
  walletCount := 1
  walletOuts := [⟨0, fusionOutputs amount⟩]
  destination := walletAddress
  lastKnownBlockHeight := 0
  getRandomOutsByAmounts _ _ := none

end Scenario

end Nox.CryptoNote
