/-!
Contract: the requests of the command line.

Owns:
- `Verb`: the commands by name;
- `Command`: a command with what it is about;
- `Invocation`: a command with the options that hold for every command.
-/

set_option autoImplicit false

namespace CodeIndex

/-- A command by name. -/
inductive Verb where
  | index
  | stats
  | skeleton
  | symbol
  | symbols
  | callers
  | callees
  | references
  | imports
  | importers
  | exports
  | search
  | watch
  deriving DecidableEq, Repr

namespace Verb

def name : Verb → String
  | .index => "index"
  | .stats => "stats"
  | .skeleton => "skeleton"
  | .symbol => "symbol"
  | .symbols => "symbols"
  | .callers => "callers"
  | .callees => "callees"
  | .references => "refs"
  | .imports => "imports"
  | .importers => "importers"
  | .exports => "exports"
  | .search => "search"
  | .watch => "watch"

def all : List Verb :=
  [.index, .stats, .skeleton, .symbol, .symbols, .callers, .callees, .references, .imports,
    .importers, .exports, .search, .watch]

/-- The short names of commands. -/
def abbreviations : List (String × Verb) :=
  [("i", .index), ("sk", .skeleton), ("s", .search), ("w", .watch)]

/-- The command that a word names, in full or in short. -/
def ofWord? (word : String) : Option Verb :=
  match all.find? fun verb => verb.name == word with
  | some verb => some verb
  | none => abbreviations.lookup word

/-- What a command is about. -/
inductive Operand where
  | nothing
  | text
  | path
  deriving DecidableEq, Repr

def operand : Verb → Operand
  | .index => .nothing
  | .stats => .nothing
  | .watch => .nothing
  | .skeleton => .path
  | .imports => .path
  | .importers => .path
  | .exports => .path
  | .symbol => .text
  | .symbols => .text
  | .callers => .text
  | .callees => .text
  | .references => .text
  | .search => .text

/-- Whether the number of results can be limited. -/
def hasLimit (verb : Verb) : Bool :=
  verb == .symbols || verb == .search

/-- Whether kept state can be discarded. -/
def hasForce (verb : Verb) : Bool :=
  verb == .index

end Verb

/-- A request. -/
inductive Command where
  | index (force : Bool)
  | stats
  | skeleton (file : String)
  | symbol (name : String)
  | symbols (query : String) (limit : Option Nat)
  | callers (name : String)
  | callees (name : String)
  | references (name : String)
  | imports (file : String)
  | importers (file : String)
  | exports (file : String)
  | search (query : String) (limit : Option Nat)
  | watch
  deriving DecidableEq, Repr

/-- The verb of a command. -/
def Command.verb : Command → Verb
  | .index _ => .index
  | .stats => .stats
  | .skeleton _ => .skeleton
  | .symbol _ => .symbol
  | .symbols _ _ => .symbols
  | .callers _ => .callers
  | .callees _ => .callees
  | .references _ => .references
  | .imports _ => .imports
  | .importers _ => .importers
  | .exports _ => .exports
  | .search _ _ => .search
  | .watch => .watch

/-- A request with the options that hold for every request. -/
structure Invocation where
  command : Command
  /-- The directory of the project, if it is given. -/
  project : Option String
  /-- Whether the answer is wanted as JSON. -/
  json : Bool
  deriving DecidableEq, Repr

/-- The command of a verb with what was given to it. -/
def Verb.toCommand (verb : Verb) (force : Bool) (operand : String) (limit : Option Nat) :
    Command :=
  match verb with
  | .index => .index force
  | .stats => .stats
  | .skeleton => .skeleton operand
  | .symbol => .symbol operand
  | .symbols => .symbols operand limit
  | .callers => .callers operand
  | .callees => .callees operand
  | .references => .references operand
  | .imports => .imports operand
  | .importers => .importers operand
  | .exports => .exports operand
  | .search => .search operand limit
  | .watch => .watch

end CodeIndex
