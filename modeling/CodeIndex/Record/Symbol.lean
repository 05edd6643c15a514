/-!
Contract: symbols, the things that a file declares.

Owns:
- `SymbolKind`, `Flags`, `Param`, `Symbol`;
- `Symbol.signature`: the one-line form of a symbol.

Does not own: how symbols are found in a file, nor how they are stored.
-/

set_option autoImplicit false

namespace CodeIndex

/-- What a symbol is. -/
inductive SymbolKind where
  | function
  | classType
  | interfaceType
  | typeAlias
  | enumeration
  | binding
  | method
  deriving DecidableEq, Repr, Inhabited

namespace SymbolKind

/-- The word for a kind. -/
def name : SymbolKind → String
  | function => "function"
  | classType => "class"
  | interfaceType => "interface"
  | typeAlias => "type"
  | enumeration => "enum"
  | binding => "variable"
  | method => "method"

/-- The kind that a word stands for. -/
def ofName? : String → Option SymbolKind
  | "function" => some function
  | "class" => some classType
  | "interface" => some interfaceType
  | "type" => some typeAlias
  | "enum" => some enumeration
  | "variable" => some binding
  | "method" => some method
  | _ => none

theorem ofName?_name (kind : SymbolKind) : ofName? kind.name = some kind := by
  cases kind <;> rfl

/-- Whether a symbol of this kind takes parameters. -/
def isCallable : SymbolKind → Bool
  | function => true
  | method => true
  | _ => false

end SymbolKind

/-- A set of marks on a symbol, one bit each. Bits without a meaning are kept. -/
structure Flags where
  bits : UInt8
  deriving DecidableEq, Repr, Inhabited

namespace Flags

def empty : Flags := ⟨0⟩

/-- The symbol is visible to other files. -/
def exported : Flags := ⟨1⟩

/-- The function waits for other work. -/
def async : Flags := ⟨2⟩

/-- The member belongs to the class itself. -/
def static : Flags := ⟨4⟩

def union (left right : Flags) : Flags :=
  ⟨left.bits ||| right.bits⟩

/-- Whether all marks of the second set are in the first. -/
def contains (flags wanted : Flags) : Bool :=
  flags.bits &&& wanted.bits == wanted.bits

end Flags

/-- A parameter of a function. -/
structure Param where
  name : String
  typeText : Option String
  deriving DecidableEq, Repr, Inhabited

/-- Something a file declares. -/
structure Symbol where
  name : String
  kind : SymbolKind
  /-- First line, counted from one. -/
  line : UInt32
  endLine : UInt32
  params : List Param := []
  /-- The type a function returns, or the type of a variable. -/
  returnType : Option String := none
  flags : Flags := Flags.empty
  /-- Members of a class or an interface. -/
  methods : List Symbol := []
  /-- Names called in the body, in order of first occurrence. -/
  calls : List String := []
  deriving Inhabited

namespace Symbol

def isExported (symbol : Symbol) : Bool :=
  symbol.flags.contains Flags.exported

def isAsync (symbol : Symbol) : Bool :=
  symbol.flags.contains Flags.async

def isStatic (symbol : Symbol) : Bool :=
  symbol.flags.contains Flags.static

/-- The symbol with another mark. -/
def mark (symbol : Symbol) (flags : Flags) : Symbol :=
  { symbol with flags := symbol.flags.union flags }

/-- A parameter with its type, as written in a signature. -/
def paramText (param : Param) : String :=
  match param.typeText with
  | some written => param.name ++ ": " ++ written
  | none => param.name

/-- Marks, kind, name with the owner's before it, parameters and type in one line. -/
def signature (symbol : Symbol) (parent : Option String) : String :=
  (if symbol.isStatic then "static " else "") ++
  (if symbol.isAsync then "async " else "") ++
  symbol.kind.name ++ " " ++
  (match parent with
    | some owner => owner ++ "."
    | none => "") ++
  symbol.name ++
  (if symbol.kind.isCallable then
    "(" ++ String.intercalate ", " (symbol.params.map paramText) ++ ")"
  else "") ++
  (match symbol.returnType with
    | some written => ": " ++ written
    | none => "")

end Symbol

/-- The name of a symbol that is unique among all files. -/
def qualifiedKey (path name : String) : String :=
  path ++ "#" ++ name

end CodeIndex
