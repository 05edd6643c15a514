import CodeIndex.Path.Basic
import CodeIndex.Source.Cursor
import CodeIndex.Text.CaseMap

/-!
Contract: the languages of source files.

Owns:
- `Language`: which languages are told apart, by file extension and by name;
- `Language.dialect?`: the grammar a language is read with;
- `sourceExtensions`: the extensions a module specifier may leave out.
-/

set_option autoImplicit false

namespace CodeIndex

/-- The language of a file. -/
inductive Language where
  | typeScript
  | typeScriptReact
  | javaScript
  | javaScriptReact
  /-- Any other; such files are not indexed. -/
  | unknown
  deriving DecidableEq, Repr, Inhabited

namespace Language

def name : Language → String
  | typeScript => "typescript"
  | typeScriptReact => "typescriptreact"
  | javaScript => "javascript"
  | javaScriptReact => "javascriptreact"
  | unknown => "unknown"

def ofName? : String → Option Language
  | "typescript" => some typeScript
  | "typescriptreact" => some typeScriptReact
  | "javascript" => some javaScript
  | "javascriptreact" => some javaScriptReact
  | "unknown" => some unknown
  | _ => none

/-- The language of files with this extension, in lower case. -/
def ofExtension : String → Language
  | "ts" => typeScript
  | "mts" => typeScript
  | "cts" => typeScript
  | "tsx" => typeScriptReact
  | "js" => javaScript
  | "mjs" => javaScript
  | "cjs" => javaScript
  | "jsx" => javaScriptReact
  | _ => unknown

/-- The language of a file, by its extension in any case. -/
def ofPath (path : String) : Language :=
  match Path.extension? path with
  | some extension => ofExtension (Text.toLower extension)
  | none => unknown

def isIndexable (language : Language) : Bool :=
  language != unknown

/-- The grammar that files of a language are read with. Plain JavaScript may hold elements. -/
def dialect? : Language → Option Source.Dialect
  | typeScript => some { types := true, elements := false }
  | typeScriptReact => some { types := true, elements := true }
  | javaScript => some { types := false, elements := true }
  | javaScriptReact => some { types := false, elements := true }
  | unknown => none

end Language

/-- Extensions that a module specifier may leave out. -/
def sourceExtensions : List String :=
  ["ts", "tsx", "js", "jsx", "mjs", "cjs", "mts", "cts"]

end CodeIndex
