import CodeIndex.Glob.Basic

/-!
Contract: which paths a pattern matches.

Owns:
- `Glob.Token.remainders`: what can be left of some bytes after a token has matched their beginning;
- `Glob.matchesPath`: a pattern has to match all bytes of a path.

Patterns match the UTF-8 bytes of a path: a wildcard for one character matches one byte.
-/

set_option autoImplicit false

namespace CodeIndex.Glob

/-- The byte of a slash. -/
def slash : UInt8 := 0x2f

/-- The ranges of bytes that a range of characters stands for: the bytes of its first character but
the last, from that to the first byte of its last character, and the other bytes of that. -/
def byteRanges (low high : Char) : List (UInt8 × UInt8) :=
  if low = high then
    (String.utf8EncodeChar low).map fun byte => (byte, byte)
  else
    match (String.utf8EncodeChar low).reverse, String.utf8EncodeChar high with
    | last :: before, first :: after =>
        (before.reverse.map fun byte => (byte, byte)) ++ (last, first) ::
          after.map fun byte => (byte, byte)
    | _, _ => []

/-- Whether a byte belongs to a set of characters. -/
def inSet (negated : Bool) (ranges : List (Char × Char)) (byte : UInt8) : Bool :=
  let found := ranges.any fun range =>
    (byteRanges range.1 range.2).any fun bytes => bytes.1 ≤ byte && byte ≤ bytes.2
  found != negated

/-- What follows the given bytes. -/
def strip? : List UInt8 → List UInt8 → Option (List UInt8)
  | [], bytes => some bytes
  | _ :: _, [] => none
  | expected :: more, byte :: rest => if expected = byte then strip? more rest else none

/-- What can be left after any number of bytes that a test allows. -/
def afterMany (allowed : UInt8 → Bool) : List UInt8 → List (List UInt8)
  | [] => [[]]
  | byte :: rest => (byte :: rest) :: if allowed byte then afterMany allowed rest else []

/-- What can be left after any bytes and a slash. -/
def afterSlash : List UInt8 → List (List UInt8)
  | [] => []
  | byte :: rest => if byte = slash then rest :: afterSlash rest else afterSlash rest

/-- Each remainder once. Remainders of one text are equal if they are equally long. -/
def distinct : List (List UInt8) → List (List UInt8)
  | [] => []
  | bytes :: rest => bytes :: (distinct rest).filter fun other => other.length != bytes.length

mutual

/-- Whether a pattern says nothing at all. -/
def Token.isVacuous : Token → Bool
  | .alternates branches => allVacuous branches
  | _ => false

def tokensVacuous : List Token → Bool
  | [] => true
  | token :: rest => token.isVacuous && tokensVacuous rest

def allVacuous : List (List Token) → Bool
  | [] => true
  | branch :: rest => tokensVacuous branch && allVacuous rest

end

mutual

/-- What can be left of some bytes after a token has matched their beginning. Alternatives that say
nothing are passed over. -/
def Token.remainders (stops : Bool) (token : Token) (bytes : List UInt8) : List (List UInt8) :=
  match token with
  | .literal character => (strip? (String.utf8EncodeChar character) bytes).toList
  | .one =>
      match bytes with
      | byte :: rest => if stops && byte == slash then [] else [rest]
      | [] => []
  | .many => afterMany (fun byte => !(stops && byte == slash)) bytes
  | .oneOf negated ranges =>
      match bytes with
      | byte :: rest => if inSet negated ranges byte then [rest] else []
      | [] => []
  | .leading => bytes :: afterSlash bytes
  | .trailing =>
      match bytes with
      | byte :: rest => if byte = slash then afterMany (fun _ => true) rest else []
      | [] => []
  | .between =>
      match bytes with
      | byte :: rest => if byte = slash then rest :: afterSlash rest else []
      | [] => []
  | .alternates branches =>
      if allVacuous branches then [bytes] else remaindersOfAny stops branches bytes

/-- What can be left after all tokens, from any of several beginnings. -/
def remaindersOfAll (stops : Bool) (tokens : List Token) (starts : List (List UInt8)) :
    List (List UInt8) :=
  match tokens with
  | [] => starts
  | token :: rest =>
      remaindersOfAll stops rest
        (distinct (starts.flatMap fun bytes => token.remainders stops bytes))

/-- What can be left after one of several alternatives. -/
def remaindersOfAny (stops : Bool) (branches : List (List Token)) (bytes : List UInt8) :
    List (List UInt8) :=
  match branches with
  | [] => []
  | branch :: rest =>
      (if tokensVacuous branch then [] else remaindersOfAll stops branch [bytes]) ++
        remaindersOfAny stops rest bytes

end

/-- A pattern that is nothing but directories at the beginning matches everything. -/
def isEverything (glob : Glob) : Bool :=
  match glob.tokens with
  | [.leading] => true
  | _ => false

/-- Whether a pattern matches a whole path. -/
def matchesPath (glob : Glob) (path : String) : Bool :=
  glob.isEverything ||
    (remaindersOfAll glob.stopsAtSlash glob.tokens [path.toUTF8.toList]).any List.isEmpty

end CodeIndex.Glob
