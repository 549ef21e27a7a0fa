import Pluto.Lib.SszContainer

/-!
# RLP

`eth2util/src/rlp.rs` reads and writes lists of byte strings in the recursive length prefix format.
A position and a length in a slice are `usize`, so sums wrap at `2 ^ 64` where the source wraps them.
-/

namespace Pluto.Rlp

open SszContainer (leBytes)

inductive RlpError
  | inputTooShort
  | negativeLength
  | overflow
  deriving DecidableEq, Repr

/-- `usize::wrapping_add` -/
def wrappingAdd (a b : ℕ) : ℕ := (a + b) % 2 ^ 64

/-- An integer in big-endian byte representation without leading zeros. -/
def toBigEndian (value : ℕ) : Bytes := (leBytes 8 value).reverse.dropWhile (· = 0)

/-- One byte of the loop of `from_big_endian`; the shift drops the upper bits. -/
def shiftIn (acc : ℕ) (byte : UInt8) : Option ℕ :=
  let shifted := acc * 256 % 2 ^ 64
  if shifted + byte.toNat < 2 ^ 64 then some (shifted + byte.toNat) else none

def fromBigEndian (bytes : Bytes) (offset length : ℕ) : Except RlpError ℕ :=
  if bytes.length ≤ offset ∨ bytes.length ≤ wrappingAdd offset length then .error .inputTooShort
  else Except.okOr (((bytes.drop offset).take length).foldlM shiftIn 0) .overflow

def validateLengthAndOffset (offset length : ℕ) : Except RlpError Unit :=
  if offset + length < 2 ^ 64 then .ok () else .error .overflow

/-- The length of a long item, in the `lengthSize` bytes after the first one. -/
def decodeLongLength (item : Bytes) (lengthSize : ℕ) : Except RlpError (ℕ × ℕ) := do
  let offset := 1 + lengthSize
  let length ← fromBigEndian item 1 lengthSize
  validateLengthAndOffset offset length
  return (offset, length)

/-- Decodes the RLP encoding prefix, returning the offset and length. -/
def decodeLength : Bytes → Except RlpError (ℕ × ℕ)
  | [] => .error .inputTooShort
  | first :: rest =>
    let p := first.toNat
    if p ≤ 0x7f then .ok (0, 1)
    else if p ≤ 0xb7 then .ok (1, p - 0x80)
    else if p ≤ 0xbf then decodeLongLength (first :: rest) (p - 0xb7)
    else if p ≤ 0xf7 then .ok (1, p - 0xc0)
    else decodeLongLength (first :: rest) (p - 0xf7)

/-- The loop of `decode_bytes_list`; every round gets ahead, so that one for each byte is enough. -/
def decodeItems (input : Bytes) (stop : ℕ) : ℕ → ℕ → Except RlpError (List Bytes)
  | 0, _ => .ok []
  | fuel + 1, i =>
    if stop ≤ i then .ok []
    else do
      let (itemOffset, itemLength) ← decodeLength (input.drop i)
      let start := wrappingAdd i itemOffset
      let finish := wrappingAdd start itemLength
      if input.length < finish ∨ finish < start then throw .inputTooShort
      let items ← decodeItems input stop fuel finish
      return (input.drop start).take (finish - start) :: items

/-- Decodes a list of byte slices from RLP encoded data. -/
def decodeBytesList (input : Bytes) : Except RlpError (List Bytes) :=
  if input = [] then .ok []
  else do
    let (offset, length) ← decodeLength input
    if input.length < wrappingAdd offset length then throw .inputTooShort
    decodeItems input (wrappingAdd offset length) input.length offset

/-- Encodes the length with the given offset into RLP prefix format. -/
def encodeLength (length : ℕ) (offset : UInt8) : Bytes :=
  if length < 56 then [UInt8.ofNat length + offset]
  else
    let bigEndian := toBigEndian length
    (UInt8.ofNat bigEndian.length + offset + 55) :: bigEndian

/-- Encodes a single byte slice into RLP format. -/
def encodeBytes (item : Bytes) : Bytes :=
  if item.length = 1 ∧ (item.headD 0).toNat < 0x80 then item
  else encodeLength item.length 0x80 ++ item

/-- Encodes a list of byte slices into RLP format. -/
def encodeBytesList (items : List Bytes) : Bytes :=
  let encodedItems := items.flatMap encodeBytes
  encodeLength encodedItems.length 0xc0 ++ encodedItems

end Pluto.Rlp
