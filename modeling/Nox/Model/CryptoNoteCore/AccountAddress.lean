import Nox.Model.Common.Base58
import Nox.Model.CryptoNoteCore.TransactionExtraWriter

/-! # Account addresses of `CryptoNoteBasicImpl.cpp`, `Currency.cpp` and `WalletUtils.cpp`

A standard address is the Base58 address (`encode_addr`) of the network tag and of the binary
array of the two public keys, the spend key first. `parseAccountAddressString` reads the tag and
the keys back with `decode_addr` and `fromBinaryArray`, and asks `check_key` of both keys; the
currency also wants its own tag, which `CurrencyBuilder` sets to
`CRYPTONOTE_PUBLIC_ADDRESS_BASE58_PREFIX`. `cn_fast_hash` and `check_key` are parameters.

`fromBinaryArray` writes the keys into the out parameter as soon as it has read them, before
`check_key` is asked, and a caller that ignores the result goes on with what was written:
`parsedAccountAddress` is that value, `none` when nothing was written.
-/

namespace Nox.CryptoNote

open Nox.Crypto Nox.Serialization Nox.Tools

def CRYPTONOTE_PUBLIC_ADDRESS_BASE58_PREFIX : UInt64 := 3914525

/-- `serialize(AccountPublicAddress&)` on output: the two keys as 32-byte pods. -/
def outputAccountPublicAddress (address : AccountPublicAddress) : List UInt8 :=
  address.spendPublicKey.data.toList ++ address.viewPublicKey.data.toList

/-- `serialize(AccountPublicAddress&)` on input. -/
def inputAccountPublicAddress : Decoder UInt8 AccountPublicAddress := do
  let spendPublicKey ← inputPod 32
  let viewPublicKey ← inputPod 32
  pure ⟨⟨spendPublicKey⟩, ⟨viewPublicKey⟩⟩

section

variable (cnFastHash : List UInt8 → Hash) (checkKey : PublicKey → Bool)

/-- `getAccountAddressAsStr(prefix, adr)`; `toBinaryArray` of two pods cannot throw. -/
def getAccountAddressAsStr (tag : UInt64) (adr : AccountPublicAddress) : List UInt8 :=
  Base58.encodeAddr cnFastHash tag (outputAccountPublicAddress adr)

/-- `parseAccountAddressString(prefix, adr, str)`: the tag and the keys, both of which pass
`check_key`. -/
def parseAccountAddressString (str : List UInt8) : Option (UInt64 × AccountPublicAddress) := do
  let (tag, data) ← Base58.decodeAddr cnFastHash str
  let adr ← (fromBinaryArray inputAccountPublicAddress data).toOption
  if checkKey adr.spendPublicKey && checkKey adr.viewPublicKey then some (tag, adr) else none

/-- What `parseAccountAddressString(prefix, adr, str)` leaves in `adr`, whatever it returns. -/
def parsedAccountAddress (str : List UInt8) : Option AccountPublicAddress := do
  let (_, data) ← Base58.decodeAddr cnFastHash str
  (fromBinaryArray inputAccountPublicAddress data).toOption

/-- `Currency::parseAccountAddressString(str, addr)`: an address of the currency's own tag. -/
def Currency.parseAccountAddressString (publicAddressBase58Prefix : UInt64) (str : List UInt8) :
    Option AccountPublicAddress := do
  let (tag, addr) ← CryptoNote.parseAccountAddressString cnFastHash checkKey str
  if tag ≠ publicAddressBase58Prefix then none else some addr

/-- `validateAddress(address, currency)`. -/
def validateAddress (publicAddressBase58Prefix : UInt64) (address : List UInt8) : Bool :=
  (Currency.parseAccountAddressString cnFastHash checkKey publicAddressBase58Prefix address).isSome

end

end Nox.CryptoNote
