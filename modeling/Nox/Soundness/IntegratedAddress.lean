import Nox.Proofs.Wallet.IntegratedAddress

/-! # Integrated addresses determine their parts

Whatever `cn_fast_hash` and `check_key` are, a standard address that `parseAccountAddressString`
accepts is the address of what it reads, and the integrated address of it and a payment id of 64
hexadecimal digits is read back as the two by the wallet service and by zedwallet. Every text the
wallet service reads as an integrated address is the one it writes for what it reads, and no
standard address is read as an integrated one by either.
-/

namespace Nox.PaymentService

open Nox.Crypto Nox.Tools Nox.CryptoNote

theorem integrated_address_round_trip (cnFastHash : List UInt8 → Hash) (checkKey : PublicKey → Bool) :
    (∀ (address : List UInt8) (tag : UInt64) (adr : AccountPublicAddress),
        parseAccountAddressString cnFastHash checkKey address = some (tag, adr) →
          address = getAccountAddressAsStr cnFastHash tag adr) ∧
      (∀ (uninitialized : AccountPublicAddress) (address paymentId : List UInt8) (adr : AccountPublicAddress),
        parseAccountAddressString cnFastHash checkKey address = some (CRYPTONOTE_PUBLIC_ADDRESS_BASE58_PREFIX, adr) →
        checkPaymentId paymentId = true →
          (WalletService.createIntegratedAddress cnFastHash checkKey CRYPTONOTE_PUBLIC_ADDRESS_BASE58_PREFIX
              uninitialized address paymentId >>=
            decodeIntegratedAddress cnFastHash checkKey CRYPTONOTE_PUBLIC_ADDRESS_BASE58_PREFIX) =
              .ok (address, paymentId) ∧
          Zedwallet.extractIntegratedAddress cnFastHash checkKey
              (Zedwallet.createIntegratedAddress cnFastHash uninitialized address paymentId) =
            .ok (some (address, paymentId))) ∧
      (∀ (publicAddressBase58Prefix : UInt64) (uninitialized : AccountPublicAddress)
        (integratedAddr address paymentId : List UInt8),
        decodeIntegratedAddress cnFastHash checkKey publicAddressBase58Prefix integratedAddr = .ok (address, paymentId) →
          WalletService.createIntegratedAddress cnFastHash checkKey publicAddressBase58Prefix uninitialized address
            paymentId = .ok integratedAddr) ∧
      ∀ (publicAddressBase58Prefix : UInt64) (str : List UInt8) (tag : UInt64) (adr : AccountPublicAddress),
        parseAccountAddressString cnFastHash checkKey str = some (tag, adr) →
          (∀ result, decodeIntegratedAddress cnFastHash checkKey publicAddressBase58Prefix str ≠ .ok result) ∧
            Zedwallet.extractIntegratedAddress cnFastHash checkKey str = .ok none :=
  ⟨fun _ _ _ standard => (getAccountAddressAsStr_of_parseAccountAddressString cnFastHash checkKey standard).1,
    fun uninitialized _ _ _ standard valid =>
      ⟨decodeIntegratedAddress_createIntegratedAddress_eq cnFastHash checkKey uninitialized standard valid,
        Zedwallet.extractIntegratedAddress_createIntegratedAddress_eq cnFastHash checkKey uninitialized standard valid⟩,
    fun _ uninitialized _ _ _ decoded =>
      createIntegratedAddress_of_decodeIntegratedAddress cnFastHash checkKey _ uninitialized decoded,
    fun _ _ _ _ standard =>
      ⟨decodeIntegratedAddress_of_parseAccountAddressString cnFastHash checkKey _ standard,
        Zedwallet.extractIntegratedAddress_of_parseAccountAddressString cnFastHash checkKey standard⟩⟩

namespace Scenario

/-- A hash that is zero everywhere, and a `check_key` that takes every key. -/
def zeroHash (_ : List UInt8) : Hash := ⟨Vector.replicate 32 0⟩
def anyKey (_ : PublicKey) : Bool := true

def sampleKeys : AccountPublicAddress := ⟨⟨Vector.replicate 32 1⟩, ⟨Vector.replicate 32 2⟩⟩

def sampleAddress : List UInt8 := getAccountAddressAsStr zeroHash CRYPTONOTE_PUBLIC_ADDRESS_BASE58_PREFIX sampleKeys

/-- Sixty-four times the digit `a`. -/
def samplePaymentId : List UInt8 := List.replicate 64 0x61

/-- The sample address and payment id are read back from their integrated address by both. -/
theorem integrated_address_round_trip_sample :
    parseAccountAddressString zeroHash anyKey sampleAddress = some (CRYPTONOTE_PUBLIC_ADDRESS_BASE58_PREFIX, sampleKeys) ∧
      checkPaymentId samplePaymentId = true ∧
      (WalletService.createIntegratedAddress zeroHash anyKey CRYPTONOTE_PUBLIC_ADDRESS_BASE58_PREFIX sampleKeys
          sampleAddress samplePaymentId >>=
        decodeIntegratedAddress zeroHash anyKey CRYPTONOTE_PUBLIC_ADDRESS_BASE58_PREFIX) =
          .ok (sampleAddress, samplePaymentId) ∧
      Zedwallet.extractIntegratedAddress zeroHash anyKey
          (Zedwallet.createIntegratedAddress zeroHash sampleKeys sampleAddress samplePaymentId) =
        .ok (some (sampleAddress, samplePaymentId)) := by
  have standard : parseAccountAddressString zeroHash anyKey sampleAddress =
      some (CRYPTONOTE_PUBLIC_ADDRESS_BASE58_PREFIX, sampleKeys) :=
    parseAccountAddressString_getAccountAddressAsStr zeroHash anyKey _ rfl
  have valid : checkPaymentId samplePaymentId = true := by decide
  exact ⟨standard, valid,
    (integrated_address_round_trip zeroHash anyKey).2.1 sampleKeys _ _ _ standard valid⟩

end Scenario

end Nox.PaymentService
