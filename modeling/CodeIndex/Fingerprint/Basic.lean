import CodeIndex.Fingerprint.Secret
import CodeIndex.Fingerprint.Word
import CodeIndex.Text.Digits

/-!
Contract: a 64-bit digest of bytes.

Owns:
- one rule for each class of lengths: none, up to 3, 8, 16, 128 and 240 bytes, and more;
- `digest`: the digest as a word;
- `fingerprint`: the digest as sixteen hexadecimal digits.

Equal bytes have equal fingerprints. The digest is not meant to withstand an adversary.
-/

set_option autoImplicit false

namespace CodeIndex

namespace Fingerprint

/-! ## Final mixing -/

private def avalanche (hash : UInt64) : UInt64 :=
  let first := (hash ^^^ hash >>> 37) * mixerA
  first ^^^ first >>> 32

private def longAvalanche (hash : UInt64) : UInt64 :=
  let first := (hash ^^^ hash >>> 33) * primeB
  let second := (first ^^^ first >>> 29) * primeC
  second ^^^ second >>> 32

private def strongAvalanche (hash length : UInt64) : UInt64 :=
  let first := (hash ^^^ (rotate hash 49 ^^^ rotate hash 24)) * mixerB
  let second := (first ^^^ (first >>> 35 + length)) * mixerB
  second ^^^ second >>> 28

/-! ## Short input -/

private def ofNone : UInt64 :=
  longAvalanche (word64 secret 56 ^^^ word64 secret 64)

private def upTo3 (bytes : ByteArray) : UInt64 :=
  let size := bytes.size
  let first := byteAt bytes 0
  let middle := byteAt bytes (size / 2)
  let last := byteAt bytes (size - 1)
  let combined := first <<< 16 ||| middle <<< 24 ||| last ||| UInt64.ofNat size <<< 8
  longAvalanche (combined ^^^ (word32 secret 0 ^^^ word32 secret 4))

private def upTo8 (bytes : ByteArray) : UInt64 :=
  let size := bytes.size
  let combined := word32 bytes (size - 4) + word32 bytes 0 <<< 32
  strongAvalanche (combined ^^^ (word64 secret 8 ^^^ word64 secret 16)) (UInt64.ofNat size)

private def upTo16 (bytes : ByteArray) : UInt64 :=
  let size := bytes.size
  let low := word64 bytes 0 ^^^ (word64 secret 24 ^^^ word64 secret 32)
  let high := word64 bytes (size - 8) ^^^ (word64 secret 40 ^^^ word64 secret 48)
  avalanche (UInt64.ofNat size + swapBytes low + high + foldProduct low high)

/-! ## Middle-sized input -/

/-- Sixteen bytes of input with sixteen of the secret. -/
private def mix16 (bytes : ByteArray) (offset secretOffset : Nat) : UInt64 :=
  foldProduct
    (word64 bytes offset ^^^ word64 secret secretOffset)
    (word64 bytes (offset + 8) ^^^ word64 secret (secretOffset + 8))

/-- Mixes pairs of blocks from both ends, the outermost last. -/
private def mixEnds (bytes : ByteArray) : Nat → UInt64
  | 0 => 0
  | pairs + 1 =>
      mix16 bytes (16 * pairs) (32 * pairs) +
        mix16 bytes (bytes.size - 16 * (pairs + 1)) (32 * pairs + 16) + mixEnds bytes pairs

private def upTo128 (bytes : ByteArray) : UInt64 :=
  avalanche (UInt64.ofNat bytes.size * primeA + mixEnds bytes ((bytes.size - 1) / 32 + 1))

/-- The sum over the first blocks, the secret read from an offset on. -/
private def mixBlocks (bytes : ByteArray) (start secretOffset : Nat) : Nat → UInt64
  | 0 => 0
  | count + 1 =>
      mixBlocks bytes start secretOffset count +
        mix16 bytes (16 * (start + count)) (16 * count + secretOffset)

private def upTo240 (bytes : ByteArray) : UInt64 :=
  let size := bytes.size
  let head := avalanche (UInt64.ofNat size * primeA + mixBlocks bytes 0 0 8)
  let rest := mixBlocks bytes 8 3 (size / 16 - 8)
  avalanche (head + rest + mix16 bytes (size - 16) 119)

/-! ## Long input -/

/-- The eight running sums of a long input. -/
structure Lanes where
  lane0 : UInt64
  lane1 : UInt64
  lane2 : UInt64
  lane3 : UInt64
  lane4 : UInt64
  lane5 : UInt64
  lane6 : UInt64
  lane7 : UInt64

private def firstLanes : Lanes :=
  ⟨primeC32, primeA, primeB, primeC, primeD, primeB32, primeE, primeA32⟩

/-- The product of the two halves of a word. -/
private def halves (word : UInt64) : UInt64 :=
  let low : UInt64 := word &&& 0xffffffff
  let high : UInt64 := word >>> 32
  low * high

/-- Adds a stripe of 64 bytes. Each word goes to its own lane multiplied and to its neighbour as
it is. -/
private def addStripe (bytes : ByteArray) (offset secretOffset : Nat) (lanes : Lanes) : Lanes :=
  let word := fun index => word64 bytes (offset + 8 * index)
  let key := fun index => halves (word index ^^^ word64 secret (secretOffset + 8 * index))
  ⟨lanes.lane0 + word 1 + key 0,
    lanes.lane1 + word 0 + key 1,
    lanes.lane2 + word 3 + key 2,
    lanes.lane3 + word 2 + key 3,
    lanes.lane4 + word 5 + key 4,
    lanes.lane5 + word 4 + key 5,
    lanes.lane6 + word 7 + key 6,
    lanes.lane7 + word 6 + key 7⟩

/-- Adds a number of stripes, the secret moving on by a word for each. -/
private def addStripes (bytes : ByteArray) (offset : Nat) : Nat → Lanes → Lanes
  | 0, lanes => lanes
  | count + 1, lanes =>
      addStripe bytes (offset + 64 * count) (8 * count) (addStripes bytes offset count lanes)

/-- Mixes one lane at the end of a block. -/
private def scrambleLane (lane : UInt64) (index : Nat) : UInt64 :=
  (lane ^^^ lane >>> 47 ^^^ word64 secret (128 + 8 * index)) * primeA32

private def scramble (lanes : Lanes) : Lanes :=
  ⟨scrambleLane lanes.lane0 0,
    scrambleLane lanes.lane1 1,
    scrambleLane lanes.lane2 2,
    scrambleLane lanes.lane3 3,
    scrambleLane lanes.lane4 4,
    scrambleLane lanes.lane5 5,
    scrambleLane lanes.lane6 6,
    scrambleLane lanes.lane7 7⟩

/-- Adds a number of blocks of sixteen stripes. -/
private def addBlocks (bytes : ByteArray) : Nat → Lanes → Lanes
  | 0, lanes => lanes
  | count + 1, lanes => scramble (addStripes bytes (1024 * count) 16 (addBlocks bytes count lanes))

/-- Two lanes with two words of the secret. -/
private def foldPair (left right : UInt64) (secretOffset : Nat) : UInt64 :=
  foldProduct (left ^^^ word64 secret secretOffset) (right ^^^ word64 secret (secretOffset + 8))

private def long (bytes : ByteArray) : UInt64 :=
  let size := bytes.size
  let blocks := (size - 1) / 1024
  let stripes := (size - 1 - 1024 * blocks) / 64
  let whole := addStripes bytes (1024 * blocks) stripes (addBlocks bytes blocks firstLanes)
  let lanes := addStripe bytes (size - 64) 121 whole
  avalanche
    (UInt64.ofNat size * primeA +
      foldPair lanes.lane0 lanes.lane1 11 +
      foldPair lanes.lane2 lanes.lane3 27 +
      foldPair lanes.lane4 lanes.lane5 43 +
      foldPair lanes.lane6 lanes.lane7 59)

/-! ## Digest -/

/-- The digest of bytes. -/
def digest (bytes : ByteArray) : UInt64 :=
  if bytes.size = 0 then
    ofNone
  else if bytes.size ≤ 3 then
    upTo3 bytes
  else if bytes.size ≤ 8 then
    upTo8 bytes
  else if bytes.size ≤ 16 then
    upTo16 bytes
  else if bytes.size ≤ 128 then
    upTo128 bytes
  else if bytes.size ≤ 240 then
    upTo240 bytes
  else
    long bytes

end Fingerprint

/-- The digest of bytes as sixteen hexadecimal digits. -/
def fingerprint (bytes : ByteArray) : String :=
  String.ofList (Text.padLeft 16 '0' (Text.hexDigits (Fingerprint.digest bytes).toNat))

end CodeIndex
