import CodeIndex.Skeleton
import CodeIndex.Source.Tree

/-!
Contract: the bodies of the functions of a file.

Owns:
- `bodiesOf`: the block of every function, method and arrow function, nested ones included.
-/

set_option autoImplicit false

namespace CodeIndex.Extract

open CodeIndex.Source

/-- Whether nodes of a kind have a body that a skeleton collapses. -/
def ownsBody : Kind → Bool
  | .functionDeclaration => true
  | .generatorFunctionDeclaration => true
  | .methodDefinition => true
  | .arrowFunction => true
  | .functionExpression => true
  | .generatorFunction => true
  | _ => false

/-- The block that is the body of a node. -/
def ownBody? (node : Tree) : Option BodyRange :=
  if ownsBody node.kind then
    match node.child? .body with
    | some body => if body.kind == .statementBlock then some (.ofSpan body.span) else none
    | none => none
  else
    none

mutual

/-- The bodies of a node and of all nodes below it. -/
def bodiesUnder : Tree → List BodyRange
  | ⟨role, kind, span, text, children⟩ =>
      (ownBody? ⟨role, kind, span, text, children⟩).toList ++ bodiesUnderAll children

/-- The bodies under nodes that are no bare tokens. -/
def bodiesUnderAll : List Tree → List BodyRange
  | [] => []
  | child :: rest => (if child.isNamed then bodiesUnder child else []) ++ bodiesUnderAll rest

end

/-- The bodies of a file, in order of their start. -/
def bodiesOf (root : Tree) : List BodyRange :=
  sortRanges (bodiesUnder root)

end CodeIndex.Extract
