import CodeIndex.Extract.Bodies
import CodeIndex.Extract.Exports
import CodeIndex.Source.Parse

/-!
Contract: everything that is extracted from a source text.

Owns:
- `Extracted`: symbols, imports, exports and bodies of a file;
- `Extract.ofTree`, `Extract.ofSource?`.
-/

set_option autoImplicit false

namespace CodeIndex

/-- What is extracted from one file. -/
structure Extracted where
  symbols : List Symbol
  imports : List Import
  exports : List Export
  bodies : List BodyRange
  deriving Inhabited

namespace Extract

/-- What is extracted from a tree. -/
def ofTree (root : Source.Tree) : Extracted :=
  let declared := symbolsOf root
  let imports := importsOf root
  let symbols := dropAllBuiltinCalls (boundNames declared imports) declared
  { symbols := markExported root symbols
    imports := imports
    exports := exportsOf symbols imports root
    bodies := bodiesOf root }

/-- What is extracted from a text, if its language has a grammar. -/
def ofSource? (language : Language) (source : String) : Option Extracted :=
  language.dialect?.map fun dialect => ofTree (Source.parse dialect source)

end Extract

end CodeIndex
