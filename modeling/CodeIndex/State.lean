import CodeIndex.Document
import CodeIndex.Record.Codec
import CodeIndex.Staleness

/-!
Contract: what an index keeps between runs.

Owns:
- `State`: when files were clean, their records, and the fingerprints of their chunks;
- `State.load`, `State.save`: three documents in one directory.

The documents are written one after the other, the times before the records. What is lost of them is
made anew by the next run, and so is the record of a file whose time alone is kept.
-/

set_option autoImplicit false

namespace CodeIndex

/-- What is kept between runs. -/
structure State where
  clean : Std.ExtTreeMap String Timestamp := ∅
  records : Std.ExtTreeMap String Record := ∅
  fingerprints : Std.ExtTreeMap String String := ∅

namespace State

/-- The version of all documents. -/
def version : Nat := 1

def cleanFile : String := "staleness.json"

def recordsFile : String := "records.json"

def fingerprintsFile : String := "search.json"

/-! ## Entries -/

/-- When a file was clean, as JSON. -/
def timeToJson (time : Timestamp) : Json :=
  .record [("lastIndexed", .ofInt time.toInt)]

def timeOfJson? (levels : Nat) (value : Json) : Option Timestamp :=
  Json.within? levels
    (fun _ value =>
      match value.fields? ["lastIndexed"] with
      | some [some time] => time.int64?
      | _ => none)
    value

/-- A fingerprint as JSON. -/
def fingerprintOfJson? (_ : Nat) (value : Json) : Option String :=
  value.text?

/-! ## Documents -/

/-- The texts of the documents by file, in the order in which they are written. -/
def documents (state : State) : List (String × String) :=
  [(cleanFile, Document.text version timeToJson state.clean),
    (recordsFile, Document.text version Record.toJson state.records),
    (fingerprintsFile, Document.text version Json.ofText state.fingerprints)]

/-- The state that a directory keeps. -/
def load (tree : FileTree) (directory : String) : State :=
  { clean := Document.load tree (directory ++ "/" ++ cleanFile) version timeOfJson?
    records := Document.load tree (directory ++ "/" ++ recordsFile) version Record.ofJson?
    fingerprints :=
      Document.load tree (directory ++ "/" ++ fingerprintsFile) version fingerprintOfJson? }

/-- Writes documents one after the other, up to the first that cannot be written. -/
def writeDocuments (directory : String) (now : Timestamp) :
    List (String × String) → FileTree → Document.Saved × FileTree
  | [], tree => (.complete, tree)
  | (name, text) :: rest, tree =>
      match Document.save tree (directory ++ "/" ++ name) text now with
      | (.complete, written) => writeDocuments directory now rest written
      | (.failed, partly) => (.failed, partly)

/-- Keeps a state in a directory. -/
def save (state : State) (tree : FileTree) (directory : String) (now : Timestamp) :
    Document.Saved × FileTree :=
  writeDocuments directory now state.documents tree

end State

end CodeIndex
