import CodeIndex.Record.Export
import CodeIndex.Record.Import
import CodeIndex.Record.Symbol
import Std.Data.ExtTreeSet

/-!
Contract: the record of one indexed file.

Owns:
- `Record`: symbols, imports, exports and skeleton of a file;
- `Record.surface`: what other files can see of it;
- `Record.specifiers`: the modules it depends on.
-/

set_option autoImplicit false

namespace CodeIndex

/-- Milliseconds since the epoch. -/
abbrev Timestamp : Type := Int64

/-- The record of one file. -/
structure Record where
  path : String
  /-- A digest of the file's bytes. -/
  fingerprint : String
  lastIndexed : Timestamp
  symbols : List Symbol := []
  imports : List Import := []
  exports : List Export := []
  /-- The text with function bodies collapsed. -/
  skeleton : String := ""
  deriving Inhabited

/-- By name, then by kind. -/
def surfaceOrder : String × ExportKind → String × ExportKind → Ordering :=
  compareLex (compareOn fun entry => entry.1) (compareOn fun entry => entry.2.rank)

instance : Std.TransCmp surfaceOrder :=
  inferInstanceAs
    (Std.TransCmp (compareLex
      (compareOn fun entry : String × ExportKind => entry.1)
      (compareOn fun entry : String × ExportKind => entry.2.rank)))

instance : Std.LawfulEqCmp surfaceOrder where
  eq_of_compare := by
    intro left right same
    have parts := compareLex_eq_eq.mp same
    have names : left.1 = right.1 := Std.LawfulEqCmp.eq_of_compare parts.1
    have ranks : left.2.rank = right.2.rank := Std.LawfulEqCmp.eq_of_compare parts.2
    exact Prod.ext names (ExportKind.eq_of_rank_eq ranks)

/-- Exported names with their kinds. -/
abbrev Surface : Type := Std.ExtTreeSet (String × ExportKind) surfaceOrder

namespace Record

/-- What other files can see: the exported names with their kinds. -/
def surface (record : Record) : Surface :=
  Std.ExtTreeSet.ofList (record.exports.map fun entry => (entry.name, entry.kind)) surfaceOrder

/-- The modules of the imports, then those of the exports that are passed on. -/
def specifiers (record : Record) : List String :=
  record.imports.map (·.source) ++ record.exports.filterMap (·.source)

end Record

end CodeIndex
