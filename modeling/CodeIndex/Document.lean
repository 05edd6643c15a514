import CodeIndex.FileTree
import CodeIndex.Json.Decode
import CodeIndex.Json.Read
import CodeIndex.Json.Write
import CodeIndex.Text.Utf8

/-!
Contract: documents that keep a map between runs.

Owns:
- `Document.text`: the text of a document;
- `Document.entries?`: the entries of a text, if it is a document of the right version;
- `Document.load`: the entries of a file, or none;
- `Document.save`: a document written to a file at once.

A document is a JSON record of a version and of entries by path. One that cannot be used counts as
empty, so that what it kept is made anew.
-/

set_option autoImplicit false

namespace CodeIndex.Document

/-- The text of a document. Entries are in the order of their paths. -/
def text {α : Type} (version : Nat) (encode : α → Json) (entries : Std.ExtTreeMap String α) :
    String :=
  (Json.record
    [("version", .ofNat version),
      ("entries", .record (entries.toList.map fun entry => (entry.1, encode entry.2)))]).compact

/-- How deep the arrays and objects of a document may be nested. -/
def maximalDepth : Nat := 127

/-- The version and the entries of a JSON value. -/
def decode? {α : Type} (decode : Nat → Json → Option α) (value : Json) :
    Option (UInt32 × Std.ExtTreeMap String α) :=
  Json.within? maximalDepth
    (fun levels value =>
      match value.fields? ["version", "entries"] with
      | some [some version, some entries] => do
          let version ← version.uint32?
          let entries ← Json.within? levels (fun rest => Json.map? (decode rest)) entries
          return (version, entries)
      | _ => none)
    value

/-- The entries of a text, if it is a document of a version. -/
def entries? {α : Type} (version : Nat) (decode : Nat → Json → Option α) (text : String) :
    Option (Std.ExtTreeMap String α) :=
  match (Json.read? text).bind (decode? decode) with
  | some (found, entries) => if found.toNat = version then some entries else none
  | none => none

/-- The entries of a file. Without a document that can be used there are none. -/
def load {α : Type} (tree : FileTree) (path : String) (version : Nat)
    (decode : Nat → Json → Option α) : Std.ExtTreeMap String α :=
  match ((tree.read? path).bind Text.decode?).bind (entries? version decode) with
  | some entries => entries
  | none => ∅

/-- Whether everything was written. -/
inductive Saved where
  | complete
  | failed
  deriving DecidableEq, Repr

/-- Writes a document beside its place and then moves it there, so that a reader finds the old one
or the new one. -/
def save (tree : FileTree) (path text : String) (now : Timestamp) : Saved × FileTree :=
  let file : File := { bytes := text.toUTF8, modified := now }
  let beside := path ++ ".tmp"
  match tree.write? beside file now with
  | none => (.failed, tree)
  | some written =>
      match (written.write? path file now).bind fun moved => moved.remove? beside with
      | some moved => (.complete, moved)
      | none => (.failed, written)

end CodeIndex.Document
