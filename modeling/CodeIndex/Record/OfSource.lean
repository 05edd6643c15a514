import CodeIndex.Extract.Basic
import CodeIndex.Fingerprint.Basic
import CodeIndex.Record.Basic
import CodeIndex.Text.Utf8

/-!
Contract: the record of a file's bytes.

Owns:
- `Record.ofBytes`: fingerprint, extracted parts and skeleton of a file.
-/

set_option autoImplicit false

namespace CodeIndex.Record

/-- The record of a file. A file in a language without a grammar has a record without parts. -/
def ofBytes (path : String) (bytes : ByteArray) (now : Timestamp) : Record :=
  let source := Text.decodeLossy bytes
  let bare : Record :=
    { path := path
      fingerprint := CodeIndex.fingerprint bytes
      lastIndexed := now }
  match Extract.ofSource? (Language.ofPath path) source with
  | some extracted =>
      { bare with
        symbols := extracted.symbols
        imports := extracted.imports
        exports := extracted.exports
        skeleton := CodeIndex.skeleton source extracted.bodies }
  | none => bare

end CodeIndex.Record
