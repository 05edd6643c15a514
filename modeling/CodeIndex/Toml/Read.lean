import CodeIndex.Toml.Moment
import CodeIndex.Toml.Number
import CodeIndex.Toml.Scan
import CodeIndex.Toml.Table

/-!
Contract: TOML documents read from text.

Owns:
- `Toml.readValue?`: a single value;
- `Toml.read?`: the top table of a document.
-/

set_option autoImplicit false

namespace CodeIndex.Toml

/-- A date, a time or a number. -/
private def readNumeric? (text : List Char) : Option (Toml × List Char) :=
  match scanMoment text with
  | .found rest =>
      let written := text.take (text.length - rest.length)
      some (.moment (String.ofList written), rest)
  | .absent => scanNumber? text
  | .malformed => none

/-- A value that holds no others. -/
private def readScalar? (text : List Char) : Option (Toml × List Char) :=
  match text with
  | '\x22' :: _ => (scanString? text).map fun result => (.string result.1, result.2)
  | '\x27' :: _ => (scanString? text).map fun result => (.string result.1, result.2)
  | 't' :: 'r' :: 'u' :: 'e' :: rest => some (.bool true, rest)
  | 'f' :: 'a' :: 'l' :: 's' :: 'e' :: rest => some (.bool false, rest)
  | _ => readNumeric? text

mutual

/-- A value. The first argument bounds how deep it is nested, the second the work. -/
def readValue? : Nat → Nat → List Char → Option (Toml × List Char)
  | _, 0, _ => none
  | levels, steps + 1, text =>
      match text with
      | '[' :: rest =>
          if levels = 0 then
            none
          else
            (readItems? (levels - 1) steps (skipSpace rest.length rest)).map fun result =>
              (.array result.1, result.2)
      | '\x7b' :: rest =>
          if levels = 0 then
            none
          else
            match skipBlanks rest with
            | '\x7d' :: after => some (.table [], after)
            | inner =>
                (readMembers? (levels - 1) steps [] inner).map fun result =>
                  (.table (finishMembers result.1), result.2)
      | _ => readScalar? text

/-- The items of an array and its closing bracket, after blanks. A comma may follow the last
item. -/
def readItems? : Nat → Nat → List Char → Option (List Toml × List Char)
  | _, 0, _ => none
  | levels, steps + 1, text =>
      match text with
      | ']' :: rest => some ([], rest)
      | _ =>
          match readValue? levels steps text with
          | some (item, afterItem) =>
              match skipSpace afterItem.length afterItem with
              | ',' :: rest =>
                  (readItems? levels steps (skipSpace rest.length rest)).map fun result =>
                    (item :: result.1, result.2)
              | ']' :: rest => some ([item], rest)
              | _ => none
          | none => none

/-- The members of a table on one line and its closing brace. -/
def readMembers? : Nat → Nat → Members → List Char → Option (Members × List Char)
  | _, 0, _, _ => none
  | levels, steps + 1, members, text =>
      match scanKey? text with
      | some (key, '=' :: afterSign) =>
          match readValue? levels steps (skipBlanks afterSign) with
          | some (value, afterValue) =>
              match insertPair? key value members with
              | some grown =>
                  match skipBlanks afterValue with
                  | ',' :: rest => readMembers? levels steps grown rest
                  | '\x7d' :: rest => some (grown, rest)
                  | _ => none
              | none => none
          | none => none
      | _ => none

end

/-- A document that has been read up to some line: its top table and the header that is open. -/
structure Document where
  members : Members := []
  opened : List String := []

/-- The key of a header, after its opening brackets, and the text after the line. -/
private def scanHeader? (closing : List Char) (text : List Char) :
    Option (List String × List Char) :=
  match scanKey? text with
  | some (key, rest) =>
      if closing.isPrefixOf rest then
        (endLine? (rest.drop closing.length)).map fun after => (key, after)
      else
        none
  | none => none

/-- Reads one line, or several that hold one value. -/
def readLine? (document : Document) (text : List Char) : Option (Document × List Char) :=
  match text with
  | '[' :: '[' :: rest =>
      match scanHeader? [']', ']'] rest with
      | some (key, after) =>
          (openElement? key document.members).map fun members =>
            ({ members := members, opened := key }, after)
      | none => none
  | '[' :: rest =>
      match scanHeader? [']'] rest with
      | some (key, after) =>
          (openTable? key document.members).map fun members =>
            ({ members := members, opened := key }, after)
      | none => none
  | _ =>
      match scanKey? text with
      | some (key, '=' :: afterSign) =>
          let start := skipBlanks afterSign
          match readValue? maximalDepth (start.length + 1) start with
          | some (value, afterValue) =>
              match endLine? afterValue with
              | some after =>
                  (insertWithin? document.opened key value document.members).map fun members =>
                    ({ document with members := members }, after)
              | none => none
          | none => none
      | _ => none

/-- Reads all lines. The first argument bounds their number. -/
def readLines? : Nat → Document → List Char → Option Document
  | steps, document, text =>
      match skipSpace text.length text with
      | [] => some document
      | start =>
          match steps with
          | 0 => none
          | fewer + 1 =>
              match readLine? document start with
              | some (next, rest) => readLines? fewer next rest
              | none => none

/-- The top table of a document. A mark of byte order at the beginning is passed over. -/
def read? (text : String) : Option Toml :=
  let characters :=
    match text.toList with
    | '\uFEFF' :: rest => rest
    | characters => characters
  (readLines? characters.length {} characters).map fun document =>
    .table (finishMembers document.members)

end CodeIndex.Toml
