import Nox.Proofs.Wallet.WalletGreen
import Nox.Soundness.SegmentTree
import Nox.Model.CryptoNoteCore.TransactionPool

/-! # Conservation of value in a prepared transaction

When `prepareTransaction` returns, the amounts of the outputs and the fee add up to the money
found, and the money found is the `uint64_t` sum of the selected transfers. The donation stays
within its threshold and within the surplus. The selected transfers are drawn from the wallets'
outputs without repeating a position, so they are distinct when the wallets' outputs are. The
wallets are what `pickWallets` reads for the source addresses, and nothing refuses an address given
twice. A wallet listed twice offers each of its outputs twice, and both copies can be selected.
-/

namespace Nox.CryptoNote

open Nox.Crypto

namespace Scenario

/-- The address of the wallet, which every address text here stands for. -/
def walletAddress : AccountPublicAddress := ⟨keyOf 1, keyOf 2⟩

/-- Two outputs of one transaction and a dust output of another. -/
def largeOutput : TransactionOutputInformation := ⟨100, 12, 0, hashOf 7, keyOf 7, keyOf 10⟩
def smallOutput : TransactionOutputInformation := ⟨57, 30, 1, hashOf 7, keyOf 7, keyOf 11⟩
def dustOutput : TransactionOutputInformation := ⟨5, 4, 0, hashOf 8, keyOf 8, keyOf 12⟩

/-- A transfer of 150 with the minimum fee from two wallets with dust, mixin 0 and a donation
threshold of 15, over the dust threshold of height 0. -/
def donatingTransfer : Except WalletError PreparedTransaction :=
  prepareTransaction (fun _ => some walletAddress) (fun _ => "change") (currency.defaultDustThresholdAt 0)
    (fun k => k * 7 + 3) (fun k => k) [⟨0, [largeOutput, smallOutput]⟩, ⟨1, [dustOutput]⟩]
    [⟨"destination", 150⟩] MINIMUM_FEE 0 ⟨"donation", 15⟩ walletAddress

/-- The transaction it prepares: 162 found for 160 needed, the whole surplus of 2 donated and no
change. -/
def donatingPrepared : PreparedTransaction :=
  ⟨[⟨.USUAL, "destination", 150⟩, ⟨.DONATION, "donation", 2⟩], 160, 0, 162, 2,
    [⟨smallOutput, 0⟩, ⟨largeOutput, 0⟩, ⟨dustOutput, 1⟩], [⟨walletAddress, [50, 100]⟩, ⟨walletAddress, [2]⟩]⟩

/-- A transfer of 120 with the minimum fee and mixin 1 from the wallet's address given twice, so that
`pickWallets` lists the wallet twice. -/
def twiceListedTransfer : Except WalletError PreparedTransaction :=
  prepareTransaction (fun _ => some walletAddress) (fun _ => "change") (currency.defaultDustThresholdAt 0)
    (fun _ => 0) (fun _ => 0) [⟨0, [largeOutput]⟩, ⟨0, [largeOutput]⟩] [⟨"destination", 120⟩] MINIMUM_FEE 1
    ⟨"", 0⟩ walletAddress

end Scenario

end Nox.CryptoNote
