/-!
Contract: words read from bytes and mixed.

Owns:
- `byteAt`, `word32`, `word64`: little-endian reads at an offset;
- `rotate`, `swapBytes`, `swapBytes32`, `foldProduct`: the mixing steps.

A read past the end gives zero bytes; no fingerprint reads there.
-/

set_option autoImplicit false

namespace CodeIndex.Fingerprint

/-- The byte at an offset. -/
def byteAt (bytes : ByteArray) (offset : Nat) : UInt64 :=
  if inside : offset < bytes.size then bytes[offset].toUInt64 else 0

/-- Four bytes from an offset, the least significant first. -/
def word32 (bytes : ByteArray) (offset : Nat) : UInt64 :=
  byteAt bytes offset ||| byteAt bytes (offset + 1) <<< 8 |||
    byteAt bytes (offset + 2) <<< 16 ||| byteAt bytes (offset + 3) <<< 24

/-- Eight bytes from an offset, the least significant first. -/
def word64 (bytes : ByteArray) (offset : Nat) : UInt64 :=
  word32 bytes offset ||| word32 bytes (offset + 4) <<< 32

/-- The bits moved to the left, those that fall out coming in on the right. -/
def rotate (word count : UInt64) : UInt64 :=
  word <<< count ||| word >>> (64 - count)

/-- The four bytes of a small word in the opposite order. -/
def swapBytes32 (word : UInt64) : UInt64 :=
  let byte : UInt64 → UInt64 := fun shift => (word >>> shift) &&& 0xff
  byte 0 <<< 24 ||| byte 8 <<< 16 ||| byte 16 <<< 8 ||| byte 24

/-- The bytes of a word in the opposite order. -/
def swapBytes (word : UInt64) : UInt64 :=
  swapBytes32 (word &&& 0xffffffff) <<< 32 ||| swapBytes32 (word >>> 32)

/-- The two halves of the full product, combined. -/
def foldProduct (left right : UInt64) : UInt64 :=
  let product := left.toNat * right.toNat
  UInt64.ofNat product ^^^ UInt64.ofNat (product >>> 64)

end CodeIndex.Fingerprint
