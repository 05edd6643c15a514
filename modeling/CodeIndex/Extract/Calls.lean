import CodeIndex.Record.Import
import CodeIndex.Record.Symbol
import CodeIndex.Source.Tree
import Std.Data.ExtTreeSet

/-!
Contract: the names that a body calls.

Owns:
- `calleeName?`: the name behind a called expression;
- `FoundCalls.search`: the search for calls with a stack of nodes that are still to be visited;
- `collectCalls`: the names called anywhere in a body, each once;
- `dropBuiltinCalls`: the calls without those of the language's own library.
-/

set_option autoImplicit false

namespace CodeIndex.Extract

open CodeIndex.Source

/-- The name behind a called expression: an identifier, or the last property of a path. -/
def calleeName? (callee : Tree) : Option String :=
  match callee.kind with
  | .identifier => some callee.text
  | .memberExpression => (callee.child? .property).map (·.text)
  | _ => none

/-- The name that a node itself calls or constructs. -/
def calledName? (node : Tree) : Option String :=
  match node.kind with
  | .callExpression => (node.child? .callee).bind calleeName?
  | .newExpression => (node.child? .constructed).bind calleeName?
  | _ => none

/-- The names that a search for calls has found so far: in the order in which it came by them, and
as a set. -/
structure FoundCalls where
  names : List String := []
  seen : Std.ExtTreeSet String := ∅

/-- Adds the name a node calls, unless it has been seen. -/
def FoundCalls.note (found : FoundCalls) (node : Tree) : FoundCalls :=
  match calledName? node with
  | some name =>
      if name.isEmpty || found.seen.contains name then found
      else { names := found.names ++ [name], seen := found.seen.insert name }
  | none => found

/-- Puts nodes on a stack one after the other, so that the last of them is on top. The top of a
stack is the head of the list. -/
def pushAll (stack nodes : List Tree) : List Tree :=
  nodes.foldl (fun pushed node => node :: pushed) stack

theorem pushAll_reverse (stack nodes : List Tree) :
    pushAll stack nodes.reverse = nodes ++ stack := by
  simp [pushAll]

/-- Takes the node on top of the stack, notes its call, and pushes its named children from right to
left, so that the leftmost is visited next; until the stack is empty. -/
def FoundCalls.search (found : FoundCalls) : List Tree → FoundCalls
  | [] => found
  | node :: stack => (found.note node).search (pushAll stack node.namedChildren.reverse)
termination_by stack => Tree.sizeAll stack
decreasing_by
  have fewer := Tree.sizeAll_namedChildren_lt node
  rw [pushAll_reverse, Tree.sizeAll_append, Tree.sizeAll]
  omega

/-- The names called anywhere in a body, in order of first occurrence. -/
def collectCalls (body : Tree) : List String :=
  (FoundCalls.search {} [body]).names

/-- Names of the language's own library that tell nothing about a program. -/
def commonBuiltins : List String :=
  ["console", "log", "error", "warn", "info", "debug", "push", "then", "require", "parseInt",
    "parseFloat", "isNaN", "isFinite", "setTimeout", "setInterval", "clearTimeout",
    "clearInterval", "JSON", "Math", "Date", "Array", "Object", "String", "Number", "Boolean",
    "Promise", "Symbol", "Error"]

/-- The names that a file declares or imports. -/
def boundNames (symbols : List Symbol) (imports : List Import) : Std.ExtTreeSet String :=
  let declared := symbols.flatMap fun symbol => symbol.name :: symbol.methods.map (·.name)
  let imported := imports.flatMap fun statement =>
    statement.names.filter (· != wildcard) ++ statement.aliases.keys
  Std.ExtTreeSet.ofList (declared ++ imported)

/-- Whether a call may lead to something in the program. -/
def isProgramCall (bound : Std.ExtTreeSet String) (name : String) : Bool :=
  bound.contains name || !commonBuiltins.contains name

mutual

/-- A symbol and its members without calls of built-in names that the file does not bind. -/
def dropBuiltinCalls (bound : Std.ExtTreeSet String) : Symbol → Symbol
  | ⟨name, kind, line, endLine, params, returnType, flags, methods, calls⟩ =>
      ⟨name, kind, line, endLine, params, returnType, flags, dropAllBuiltinCalls bound methods,
        calls.filter (isProgramCall bound)⟩

def dropAllBuiltinCalls (bound : Std.ExtTreeSet String) : List Symbol → List Symbol
  | [] => []
  | symbol :: rest => dropBuiltinCalls bound symbol :: dropAllBuiltinCalls bound rest

end

end CodeIndex.Extract
