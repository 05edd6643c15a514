import CodeIndex.Source.Span

/-!
Contract: the syntax tree of one source file.

Owns:
- `Kind`: the node kinds that extraction tells apart, and their grammar names;
- `Role`: the part a node plays in its parent;
- `Tree`: a node with its kind, role, stretch of text and children;
- look-ups by role and by token;
- `Tree.size`: the number of nodes.

Does not own: how a tree is read from text, nor what is extracted from it.

A keyword or punctuation mark that extraction asks for is a child of kind
`token`; all other children are named nodes. Kinds that extraction does not
tell apart are `other`. Comments and blanks leave no node, with one exception
that the grammar of namespace exports states.
-/

set_option autoImplicit false

namespace CodeIndex.Source

/-- What a node is. -/
inductive Kind where
  | functionDeclaration
  | generatorFunctionDeclaration
  | classDeclaration
  | abstractClassDeclaration
  | interfaceDeclaration
  | typeAliasDeclaration
  | enumDeclaration
  | lexicalDeclaration
  | variableDeclaration
  | variableDeclarator
  | ambientDeclaration
  | importStatement
  | importClause
  | namedImports
  | importSpecifier
  | namespaceImport
  | importRequireClause
  | exportStatement
  | exportClause
  | exportSpecifier
  | namespaceExport
  | classBody
  | interfaceBody
  | objectType
  | methodDefinition
  | fieldDefinition
  | methodSignature
  | abstractMethodSignature
  | formalParameters
  | requiredParameter
  | optionalParameter
  | assignmentPattern
  | restPattern
  | identifier
  | callExpression
  | newExpression
  | memberExpression
  | arrowFunction
  | functionExpression
  | generatorFunction
  | statementBlock
  | other
  | token
  deriving DecidableEq, Repr, Inhabited

namespace Kind

/-- The kind that a grammar name denotes; a name without a rule of its own is `other`. -/
def ofName : String → Kind
  | "function_declaration" => functionDeclaration
  | "generator_function_declaration" => generatorFunctionDeclaration
  | "class_declaration" => classDeclaration
  | "abstract_class_declaration" => abstractClassDeclaration
  | "interface_declaration" => interfaceDeclaration
  | "type_alias_declaration" => typeAliasDeclaration
  | "enum_declaration" => enumDeclaration
  | "lexical_declaration" => lexicalDeclaration
  | "variable_declaration" => variableDeclaration
  | "variable_declarator" => variableDeclarator
  | "ambient_declaration" => ambientDeclaration
  | "import_statement" => importStatement
  | "import_clause" => importClause
  | "named_imports" => namedImports
  | "import_specifier" => importSpecifier
  | "namespace_import" => namespaceImport
  | "import_require_clause" => importRequireClause
  | "export_statement" => exportStatement
  | "export_clause" => exportClause
  | "export_specifier" => exportSpecifier
  | "namespace_export" => namespaceExport
  | "class_body" => classBody
  | "interface_body" => interfaceBody
  | "object_type" => objectType
  | "method_definition" => methodDefinition
  | "public_field_definition" => fieldDefinition
  | "field_definition" => fieldDefinition
  | "method_signature" => methodSignature
  | "abstract_method_signature" => abstractMethodSignature
  | "formal_parameters" => formalParameters
  | "required_parameter" => requiredParameter
  | "optional_parameter" => optionalParameter
  | "assignment_pattern" => assignmentPattern
  | "rest_pattern" => restPattern
  | "identifier" => identifier
  | "call_expression" => callExpression
  | "new_expression" => newExpression
  | "member_expression" => memberExpression
  | "arrow_function" => arrowFunction
  | "function_expression" => functionExpression
  | "function" => functionExpression
  | "generator_function" => generatorFunction
  | "statement_block" => statementBlock
  | _ => other

/-- Whether a node of this kind is an expression whose value is a function. -/
def isFunctionValue : Kind → Bool
  | arrowFunction => true
  | functionExpression => true
  | generatorFunction => true
  | _ => false

end Kind

/-- The part a node plays in its parent. -/
inductive Role where
  | name
  | alias
  | declaration
  | value
  | source
  | body
  | parameters
  | parameter
  | pattern
  | annotatedType
  | returnType
  | left
  | callee
  | constructed
  | property
  deriving DecidableEq, Repr, Inhabited

/-- A node of a syntax tree. -/
structure Tree where
  role : Option Role
  kind : Kind
  span : Span
  /-- The source text of `span`. -/
  text : String
  /-- The parts of the node, in source order. -/
  children : List Tree
  deriving Inhabited

namespace Tree

/-- The same node in another role. -/
def inRole (tree : Tree) (role : Role) : Tree :=
  { tree with role := some role }

/-- Whether the node is anything but a bare keyword or punctuation mark. -/
def isNamed (tree : Tree) : Bool :=
  tree.kind != .token

/-- The children that are no bare tokens. -/
def namedChildren (tree : Tree) : List Tree :=
  tree.children.filter isNamed

/-- The first child in the given role. -/
def child? (tree : Tree) (role : Role) : Option Tree :=
  tree.children.find? fun candidate => candidate.role == some role

/-- The text of the first child in the given role, unless it is empty. -/
def childText? (tree : Tree) (role : Role) : Option String :=
  match tree.child? role with
  | some part => if part.text.isEmpty then none else some part.text
  | none => none

/-- Whether one of the children is this keyword or mark. -/
def hasToken (tree : Tree) (word : String) : Bool :=
  tree.children.any fun candidate => candidate.kind == .token && candidate.text == word

mutual

/-- The number of nodes of a tree. -/
def size : Tree → Nat
  | ⟨_, _, _, _, children⟩ => sizeAll children + 1

/-- The number of nodes of all these trees. -/
def sizeAll : List Tree → Nat
  | [] => 0
  | first :: rest => size first + sizeAll rest

end

theorem size_eq (tree : Tree) : tree.size = sizeAll tree.children + 1 := by
  cases tree
  rw [size]

theorem sizeAll_append (nodes others : List Tree) :
    sizeAll (nodes ++ others) = sizeAll nodes + sizeAll others := by
  induction nodes with
  | nil => rw [List.nil_append, sizeAll, Nat.zero_add]
  | cons first rest inductionHypothesis =>
      rw [List.cons_append, sizeAll, sizeAll, inductionHypothesis, Nat.add_assoc]

theorem sizeAll_filter_le (keep : Tree → Bool) (nodes : List Tree) :
    sizeAll (nodes.filter keep) ≤ sizeAll nodes := by
  induction nodes with
  | nil => exact Nat.le_refl _
  | cons first rest inductionHypothesis =>
      rw [List.filter_cons]
      split <;> simp only [sizeAll] <;> omega

/-- The named children of a node have fewer nodes than the node has. -/
theorem sizeAll_namedChildren_lt (tree : Tree) : sizeAll tree.namedChildren < tree.size := by
  have fewer := sizeAll_filter_le isNamed tree.children
  rw [size_eq, namedChildren]
  omega

/-- The line of the first character. -/
def startLine (tree : Tree) : UInt32 :=
  tree.span.start.line

/-- The line of the place after the last character. -/
def stopLine (tree : Tree) : UInt32 :=
  tree.span.stop.line

end Tree

end CodeIndex.Source
