/-!
Contract: texts from bytes.

Owns:
- `decodeBytes`: the characters of a row of bytes, with a gap for what is none;
- `decodeLossy`: the text with a replacement character for each gap;
- `decode?`: the text, if there is no gap.

A gap is the longest beginning of a character that the next byte does not continue, or a single
byte that begins none.
-/

set_option autoImplicit false

namespace CodeIndex.Text

/-- Whether a byte continues a character. -/
def isContinuation (byte : UInt8) : Bool :=
  0x80 ≤ byte && byte ≤ 0xbf

/-- Whether two bytes begin a character of three. Longer forms than needed and surrogates are
none. -/
def startsThree (first second : UInt8) : Bool :=
  (first == 0xe0 && 0xa0 ≤ second && second ≤ 0xbf) ||
    (0xe1 ≤ first && first ≤ 0xec && isContinuation second) ||
    (first == 0xed && 0x80 ≤ second && second ≤ 0x9f) ||
    (0xee ≤ first && first ≤ 0xef && isContinuation second)

/-- Whether two bytes begin a character of four. -/
def startsFour (first second : UInt8) : Bool :=
  (first == 0xf0 && 0x90 ≤ second && second ≤ 0xbf) ||
    (0xf1 ≤ first && first ≤ 0xf3 && isContinuation second) ||
    (first == 0xf4 && 0x80 ≤ second && second ≤ 0x8f)

/-- The character of payload bits, six more for each byte. -/
def assemble (first : UInt8) (mask : Nat) (others : List UInt8) : Char :=
  Char.ofNat (others.foldl (fun code byte => code * 64 + byte.toNat % 64) (first.toNat % mask))

/-- The characters of bytes; `none` is a gap. -/
def decodeBytes : List UInt8 → List (Option Char)
  | [] => []
  | first :: afterFirst =>
      if first < 0x80 then
        some (Char.ofNat first.toNat) :: decodeBytes afterFirst
      else
        match afterFirst with
        | [] => [none]
        | second :: afterSecond =>
            if 0xc2 ≤ first && first ≤ 0xdf && isContinuation second then
              some (assemble first 32 [second]) :: decodeBytes afterSecond
            else if startsThree first second then
              match afterSecond with
              | [] => [none]
              | third :: afterThird =>
                  if isContinuation third then
                    some (assemble first 16 [second, third]) :: decodeBytes afterThird
                  else
                    none :: decodeBytes (third :: afterThird)
            else if startsFour first second then
              match afterSecond with
              | [] => [none]
              | third :: afterThird =>
                  if isContinuation third then
                    match afterThird with
                    | [] => [none]
                    | fourth :: afterFourth =>
                        if isContinuation fourth then
                          some (assemble first 8 [second, third, fourth]) ::
                            decodeBytes afterFourth
                        else
                          none :: decodeBytes (fourth :: afterFourth)
                  else
                    none :: decodeBytes (third :: afterThird)
            else
              none :: decodeBytes (second :: afterSecond)

/-- What stands for a gap. -/
def replacement : Char := '�'

/-- The text of bytes, with a replacement character for each gap. -/
def decodeLossy (bytes : ByteArray) : String :=
  String.ofList ((decodeBytes bytes.data.toList).map fun character =>
    character.getD replacement)

/-- The text of bytes, if all of them belong to characters. -/
def decode? (bytes : ByteArray) : Option String :=
  ((decodeBytes bytes.data.toList).mapM id).map String.ofList

end CodeIndex.Text
