import Nox.Model.CryptoNoteCore.AccountAddress

/-! # Integrated addresses of the wallet service and of zedwallet

An integrated address is the Base58 address of the network tag and of a payment id, 64
hexadecimal digits as text, followed by the binary array of the keys; the payment id carries no
length. `decodeIntegratedAddress` of `WalletService.cpp` cuts the data after 64 bytes, checks the
payment id, reads the keys from the rest and checks the standard address they make.
`extractIntegratedAddress` of zedwallet first wants the text to have the integrated length, and
checks the standard address with `parseStandardAddress`: 99 symbols, the first four `TRTL`, that
`parseAccountAddressString` accepts whatever its tag; it checks the payment id by writing it into
a transaction extra. Neither of the two `createIntegratedAddress` looks at the result of
`parseAccountAddressString`, and the keys they write are those it left in `addr`, or the value
`addr` held before, `uninitialized`, when it left none.
-/

namespace Nox.PaymentService

open Nox.Crypto Nox.Tools Nox.CryptoNote

/-- The `std::error_code`s of the `std::system_error`s thrown here. -/
inductive WalletServiceError where
  | BAD_ADDRESS
  | WRONG_PAYMENT_ID_FORMAT
deriving DecidableEq, Repr

/-- `checkPaymentId(paymentId)`: 64 hexadecimal digits, of either case. -/
def checkPaymentId (paymentId : List UInt8) : Bool :=
  paymentId.length == 64 && paymentId.all fun c =>
    (0x30 ≤ c && c ≤ 0x39) || (0x61 ≤ c && c ≤ 0x66) || (0x41 ≤ c && c ≤ 0x46)

/-- `validatePaymentId(paymentId, logger)`. -/
def validatePaymentId (paymentId : List UInt8) : Except WalletServiceError Unit :=
  if checkPaymentId paymentId then .ok () else .error .WRONG_PAYMENT_ID_FORMAT

section

variable (cnFastHash : List UInt8 → Hash) (checkKey : PublicKey → Bool) (publicAddressBase58Prefix : UInt64)

/-- `validateAddresses(addresses, currency, logger)`. -/
def validateAddresses (addresses : List (List UInt8)) : Except WalletServiceError Unit :=
  addresses.forM fun address =>
    if validateAddress cnFastHash checkKey publicAddressBase58Prefix address then .ok () else .error .BAD_ADDRESS

/-- `decodeIntegratedAddress(integratedAddr, currency, logger)`: the standard address and the
payment id. -/
def decodeIntegratedAddress (integratedAddr : List UInt8) :
    Except WalletServiceError (List UInt8 × List UInt8) := do
  let some (tag, decoded) := Base58.decodeAddr cnFastHash integratedAddr | throw .BAD_ADDRESS
  if tag ≠ CRYPTONOTE_PUBLIC_ADDRESS_BASE58_PREFIX then throw .BAD_ADDRESS
  let paymentID := decoded.take 64
  validatePaymentId paymentID
  -- the payment id has 64 bytes, so `substr(64)` is in range
  let keys := decoded.drop 64
  let .ok addr := fromBinaryArray inputAccountPublicAddress keys | throw .BAD_ADDRESS
  let address := getAccountAddressAsStr cnFastHash tag addr
  validateAddresses cnFastHash checkKey publicAddressBase58Prefix [address]
  pure (address, paymentID)

/-- `WalletService::createIntegratedAddress(address, paymentId, integratedAddress)`, with the
integrated address as the value on success. -/
def WalletService.createIntegratedAddress (uninitialized : AccountPublicAddress) (address paymentId : List UInt8) :
    Except WalletServiceError (List UInt8) := do
  validateAddresses cnFastHash checkKey publicAddressBase58Prefix [address]
  validatePaymentId paymentId
  let addr := (parsedAccountAddress cnFastHash address).getD uninitialized
  let keys := outputAccountPublicAddress addr
  pure (Base58.encodeAddr cnFastHash CRYPTONOTE_PUBLIC_ADDRESS_BASE58_PREFIX (paymentId ++ keys))

end

end Nox.PaymentService

namespace Nox.Zedwallet

open Nox.Crypto Nox.Tools Nox.CryptoNote

namespace WalletConfig

def standardAddressLength : ℕ := 99

/-- A payment id of 64 symbols is eight full Base58 blocks of eleven symbols more. -/
def integratedAddressLength : ℕ := standardAddressLength + 64 * 11 / 8

def addressPrefix : List UInt8 := "TRTL".toList.map (·.toNat.toUInt8)

end WalletConfig

section

variable (cnFastHash : List UInt8 → Hash) (checkKey : PublicKey → Bool)

/-- `createIntegratedAddress(address, paymentID)` of `zedwallet/Tools.cpp`: it checks neither part. -/
def createIntegratedAddress (uninitialized : AccountPublicAddress) (address paymentID : List UInt8) : List UInt8 :=
  let addr := (parsedAccountAddress cnFastHash address).getD uninitialized
  let keys := outputAccountPublicAddress addr
  Base58.encodeAddr cnFastHash CRYPTONOTE_PUBLIC_ADDRESS_BASE58_PREFIX (paymentID ++ keys)

/-- `parseStandardAddress(address, printErrors)`: the length, then the first symbols, then the
result of `parseAccountAddressString`, whose tag it does not compare. -/
def parseStandardAddress (address : List UInt8) : Bool :=
  let valid := (parseAccountAddressString cnFastHash checkKey address).isSome
  if address.length ≠ WalletConfig.standardAddressLength then false
  else if address.take WalletConfig.addressPrefix.length ≠ WalletConfig.addressPrefix then false
  else valid

/-- `extractIntegratedAddress(integratedAddress)` of `zedwallet/Transfer.cpp`: `none` is
`Nothing`, and the error is the `std::out_of_range` of `substr(64)` on fewer than 64 bytes. -/
def extractIntegratedAddress (integratedAddress : List UInt8) :
    Except String (Option (List UInt8 × List UInt8)) :=
  if integratedAddress.length ≠ WalletConfig.integratedAddressLength then .ok none
  else
    match Base58.decodeAddr cnFastHash integratedAddress with
    | none => .ok none
    | some (tag, decoded) =>
      if tag ≠ CRYPTONOTE_PUBLIC_ADDRESS_BASE58_PREFIX then .ok none
      else
        let paymentID := decoded.take 64
        if decoded.length < 64 then .error "basic_string::substr"
        else
          let keys := decoded.drop 64
          match fromBinaryArray inputAccountPublicAddress keys with
          | .error _ => .ok none
          | .ok addr =>
            let address := getAccountAddressAsStr cnFastHash tag addr
            if !parseStandardAddress cnFastHash checkKey address then .ok none
            else if (createTxExtraWithPaymentId paymentID []).isNone then .ok none
            else .ok (some (address, paymentID))

end

end Nox.Zedwallet
