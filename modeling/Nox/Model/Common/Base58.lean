import Nox.Model.Common.IntUtil
import Nox.Model.Common.StreamTools
import Nox.Model.CryptoNote

/-! # Blockwise Base58 and addresses of `Common/Base58.cpp`

`encode` cuts the data into blocks of eight bytes and a last shorter one; a block of `size` bytes
is read as a big-endian number and written as `encoded_block_sizes[size]` digits of base 58, the
most significant first, padded with `alphabet[0]`. `decode` cuts the text into blocks of eleven
symbols and a last shorter one whose size must be an encoded size; a block is read from its last
symbol with `mul128` and a carry test refusing overflow, and a partial block must stay below
`2 ^ (8 size)`. An address is the varint tag, the data and the first four bytes of `cn_fast_hash`
of both, in Base58; `cn_fast_hash` is a parameter of the model. `read_varint` of `Varint.h` returns
the count of bytes read when the input ends inside the varint.
-/

namespace Nox.Tools

open Nox.Crypto

/-- `read_varint<bits>(first, last, i)`: the count of bytes read, `-1` on overflow, `-2` on a zero
byte after the first; at the end of the input the count so far. The value is exact: the overflow
test keeps every piece below bit `bits`. -/
def readVarintLoop (bits : ℕ) : ℕ → ℕ → ℕ → List UInt8 → ℤ × ℕ
  | _, read, i, [] => (read, i)
  | shift, read, i, byte :: rest =>
    if shift + 7 ≥ bits ∧ byte.toNat ≥ 2 ^ (bits - shift) then (-1, i)
    else if byte = 0 ∧ shift ≠ 0 then (-2, i)
    else
      let i := i ||| (byte.toNat &&& 0x7f) <<< shift
      if byte &&& 0x80 = 0 then (read + 1, i) else readVarintLoop bits (shift + 7) (read + 1) i rest

/-- `read_varint(first, last, i)` for a `uint64_t`. -/
def readVarint (input : List UInt8) : ℤ × UInt64 :=
  let (read, i) := readVarintLoop 64 0 0 0 input
  (read, UInt64.ofNat i)

/-- `get_varint_data(v)`: `write_varint` writes the bytes of `Common::writeVarint`. -/
def getVarintData (value : UInt64) : List UInt8 := Nox.Common.writeVarint value.toNat

namespace Base58

def alphabet : List UInt8 :=
  "123456789ABCDEFGHJKLMNPQRSTUVWXYZabcdefghijkmnopqrstuvwxyz".toList.map (·.toNat.toUInt8)

def alphabetSize : ℕ := 58
def encodedBlockSizes : List ℕ := [0, 2, 3, 5, 6, 7, 9, 10, 11]
def fullBlockSize : ℕ := 8
def fullEncodedBlockSize : ℕ := 11
def addrChecksumSize : ℕ := 4

/-- The table of `reverse_alphabet`, from `'1'` to `'z'`: each symbol's index, `-1` between. -/
def reverseAlphabetTable : List ℤ :=
  (List.range alphabetSize).foldl (fun data i => data.set ((alphabet.getD i 0).toNat - 0x31) i)
    (List.replicate (0x7a - 0x31 + 1) (-1))

/-- `reverse_alphabet::operator()(letter)`; below `'1'` the index wraps past the table. -/
def reverseAlphabet (letter : UInt8) : ℤ :=
  if letter.toNat < 0x31 then -1 else reverseAlphabetTable.getD (letter.toNat - 0x31) (-1)

/-- The table of `decoded_block_sizes`: the block size of each encoded size, `-1` for none. -/
def decodedBlockSizesTable : List ℤ :=
  (List.range (fullBlockSize + 1)).foldl (fun data i => data.set (encodedBlockSizes.getD i 0) i)
    (List.replicate (fullEncodedBlockSize + 1) (-1))

def decodedBlockSize (encodedBlockSize : ℕ) : ℤ := decodedBlockSizesTable.getD encodedBlockSize (-1)

/-- `uint_8be_to_64(data, size)`. -/
def uint8beTo64 (data : List UInt8) : UInt64 := data.foldl (fun res byte => (res <<< 8) ||| byte.toUInt64) 0

/-- `uint_64_to_8be(num, size, data)`: the low `size` bytes of `num`, the highest first. -/
def uint64To8be (num : UInt64) (size : ℕ) : List UInt8 :=
  (List.range size).reverse.map fun k => (num >>> (8 * k).toUInt64).toUInt8

/-- The `while (0 < num)` loop of `encode_block`: the next digit goes to index `i`, leftwards. The
block's number has at most as many digits as the block has places, so the loop never runs past
the block's first place. -/
def encodeBlockLoop : ℕ → UInt64 → List UInt8 → List UInt8
  | 0, _, res => res
  | i + 1, num, res =>
    if 0 < num then encodeBlockLoop i (num / 58) (res.set i (alphabet.getD (num % 58).toNat 0))
    else res

/-- `encode_block(block, size, res)` into its places of `res`, which `encode` fills with
`alphabet[0]`. -/
def encodeBlock (block : List UInt8) : List UInt8 :=
  let size := encodedBlockSizes.getD block.length 0
  encodeBlockLoop size (uint8beTo64 block) (List.replicate size (alphabet.getD 0 0))

/-- The loop of `decode_block` from the last symbol: `res_num` and `order`. -/
def decodeBlockLoop : List UInt8 → UInt64 → UInt64 → Option UInt64
  | [], resNum, _ => some resNum
  | letter :: rest, resNum, order =>
    if reverseAlphabet letter < 0 then none
    else
      let (product, productHi) := IntUtil.mul128 order (UInt64.ofNat (reverseAlphabet letter).toNat)
      if resNum + product < resNum ∨ productHi ≠ 0 then none
      else decodeBlockLoop rest (resNum + product) (order * 58)

/-- `decode_block(block, size, res)`. -/
def decodeBlock (block : List UInt8) : Option (List UInt8) :=
  let resSize := decodedBlockSize block.length
  if resSize ≤ 0 then none
  else do
    let resNum ← decodeBlockLoop block.reverse 0 1
    if resSize.toNat < fullBlockSize ∧ (1 : UInt64) <<< (8 * resSize.toNat).toUInt64 ≤ resNum then none
    else some (uint64To8be resNum resSize.toNat)

/-- The loop of `encode` over the full blocks. -/
def encodeFullBlocks : ℕ → List UInt8 → List UInt8
  | 0, _ => []
  | count + 1, data => encodeBlock (data.take fullBlockSize) ++ encodeFullBlocks count (data.drop fullBlockSize)

/-- `encode(data)`. -/
def encode (data : List UInt8) : List UInt8 :=
  if data = [] then []
  else
    let fullBlockCount := data.length / fullBlockSize
    let lastBlockSize := data.length % fullBlockSize
    encodeFullBlocks fullBlockCount data ++
      (if 0 < lastBlockSize then encodeBlock (data.drop (fullBlockCount * fullBlockSize)) else [])

/-- The loop of `decode` over the full blocks, up to the first that fails. -/
def decodeFullBlocks : ℕ → List UInt8 → Option (List UInt8)
  | 0, _ => some []
  | count + 1, enc => do
    let block ← decodeBlock (enc.take fullEncodedBlockSize)
    let rest ← decodeFullBlocks count (enc.drop fullEncodedBlockSize)
    pure (block ++ rest)

/-- `decode(enc, data)`. -/
def decode (enc : List UInt8) : Option (List UInt8) :=
  if enc = [] then some []
  else
    let fullBlockCount := enc.length / fullEncodedBlockSize
    let lastBlockSize := enc.length % fullEncodedBlockSize
    if decodedBlockSize lastBlockSize < 0 then none
    else do
      let data ← decodeFullBlocks fullBlockCount enc
      let last ← if 0 < lastBlockSize then decodeBlock (enc.drop (fullBlockCount * fullEncodedBlockSize))
        else some []
      pure (data ++ last)

/-- `encode_addr(tag, data)`. -/
def encodeAddr (cnFastHash : List UInt8 → Hash) (tag : UInt64) (data : List UInt8) : List UInt8 :=
  let buf := getVarintData tag ++ data
  encode (buf ++ (cnFastHash buf).data.toList.take addrChecksumSize)

/-- `decode_addr(addr, tag, data)`. -/
def decodeAddr (cnFastHash : List UInt8 → Hash) (addr : List UInt8) : Option (UInt64 × List UInt8) := do
  let addrData ← decode addr
  if addrData.length ≤ addrChecksumSize then none
  else
    let checksum := addrData.drop (addrData.length - addrChecksumSize)
    let addrData := addrData.take (addrData.length - addrChecksumSize)
    if (cnFastHash addrData).data.toList.take addrChecksumSize ≠ checksum then none
    else
      let (read, tag) := readVarint addrData
      if read ≤ 0 then none else some (tag, addrData.drop read.toNat)

example : encode [0x00, 0xff] = [0x31, 0x35, 0x51] := by decide
example : decode (encode [1, 2, 3, 4, 5, 6, 7, 8, 9, 10]) = some [1, 2, 3, 4, 5, 6, 7, 8, 9, 10] := by decide
set_option maxRecDepth 10000 in
example : decode [0x7a, 0x7a, 0x7a, 0x7a, 0x7a, 0x7a, 0x7a, 0x7a, 0x7a, 0x7a, 0x7a] = none := by with_unfolding_all decide

end Base58

end Nox.Tools
