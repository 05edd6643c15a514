import CodeIndex.Proofs.Record.RoundTrip
import CodeIndex.Record.OfSource

/-!
Contract: what the symbols of a file are made of.

Owns:
- `Extract.FunctionSymbol`: the symbol of a function somewhere in a tree;
- `Extract.DeclaredSymbol`: a symbol of a function, or one without calls whose members are functions;
- `Extract.declaredSymbol_symbolsOf`: all symbols that a file declares are of these two sorts;
- `Extract.ExtractedFrom`, `Extract.exists_of_mem_ofTree`: the symbols that are extracted are those
  that are declared, but for marks and for calls of built-in names;
- `Record.nested_ofBytes`: members of the symbols in a record have no members.

Does not own: what a function calls.
-/

set_option autoImplicit false

namespace CodeIndex

/-! ## Parts of a tree -/

namespace Source.Tree

/-- A node is the root itself, or a part of a node in its tree. Bare tokens count too. -/
inductive Within (root : Tree) : Tree → Prop
  | itself : Within root root
  | part {node child : Tree} : Within root node → child ∈ node.children → Within root child

namespace Within

variable {root node child : Tree}

theorem child? (within : Within root node) {role : Role} (found : node.child? role = some child) :
    Within root child :=
  within.part (List.mem_of_find?_eq_some found)

theorem namedChild (within : Within root node) (member : child ∈ node.namedChildren) :
    Within root child :=
  within.part (List.mem_filter.mp member).1

end Within

end Source.Tree

namespace Extract

open CodeIndex.Source CodeIndex.Source.Tree

/-! ## Functions and their holders -/

/-- A node declares a function if it is one, or has one as its value or as what it exports. -/
inductive DeclaresFunction (extent : Tree) : Tree → Prop
  | itself : DeclaresFunction extent extent
  | value {function : Tree} : extent.child? .value = some function →
      DeclaresFunction extent function
  | exported {function : Tree} : extent.child? .declaration = some function →
      DeclaresFunction extent function

/-- The symbol of a function in a tree. Its lines are those of a node that declares the function. -/
inductive FunctionSymbol (root : Tree) : Symbol → Prop
  | intro {extent function : Tree} (name : String) (kind : SymbolKind) (flags : Flags) :
      Within root extent → DeclaresFunction extent function → kind.isCallable = true →
        FunctionSymbol root (callableSymbol name kind function extent flags)

/-- A symbol is that of a function, or has no calls of its own and functions for its members. -/
inductive DeclaredSymbol (root : Tree) (symbol : Symbol) : Prop
  | function : FunctionSymbol root symbol → DeclaredSymbol root symbol
  | holder : symbol.kind.isCallable = false → symbol.calls = [] →
      (∀ method ∈ symbol.methods, FunctionSymbol root method) → DeclaredSymbol root symbol

theorem FunctionSymbol.methods_eq_nil {root : Tree} {symbol : Symbol}
    (made : FunctionSymbol root symbol) : symbol.methods = [] := by
  cases made
  rfl

section Makers

variable {root node : Tree} {flags : Flags} {symbol : Symbol}

theorem functionSymbol_classMember? (within : Within root node)
    (found : classMember? node = some symbol) : FunctionSymbol root symbol := by
  unfold classMember? at found
  dsimp only at found
  split at found
  · obtain ⟨name, _, rfl⟩ := Option.map_eq_some_iff.mp found
    exact .intro name .method _ within .itself rfl
  · obtain ⟨name, _, rfl⟩ := Option.map_eq_some_iff.mp found
    exact .intro name .method _ within .itself rfl
  · split at found
    · next value name isValue _ =>
        rw [Option.ite_none_right_eq_some, Option.some.injEq] at found
        rw [← found.2]
        exact .intro name .method _ within (.value isValue) rfl
    · exact absurd found (by simp)
  · exact absurd found (by simp)

theorem functionSymbol_interfaceMember? (within : Within root node)
    (found : interfaceMember? node = some symbol) : FunctionSymbol root symbol := by
  unfold interfaceMember? at found
  split at found
  · obtain ⟨name, _, rfl⟩ := Option.map_eq_some_iff.mp found
    exact .intro name .method _ within .itself rfl
  · exact absurd found (by simp)

/-- A named declaration without members. -/
theorem declaredSymbol_plainSymbol? {kind : SymbolKind} (notCallable : kind.isCallable = false)
    (found : plainSymbol? node kind flags = some symbol) : DeclaredSymbol root symbol := by
  obtain ⟨name, _, rfl⟩ := Option.map_eq_some_iff.mp found
  exact .holder notCallable rfl fun method member => absurd member List.not_mem_nil

/-- A named declaration with the members that are found in a part of it. -/
theorem declaredSymbol_withMembers {kind : SymbolKind} {body : Tree} {plain : Symbol}
    {member? : Tree → Option Symbol} (notCallable : kind.isCallable = false)
    (found : plainSymbol? node kind flags = some plain) (within : Within root body)
    (members : ∀ {member method}, Within root member → member? member = some method →
      FunctionSymbol root method) :
    DeclaredSymbol root { plain with methods := body.namedChildren.filterMap member? } := by
  obtain ⟨name, _, rfl⟩ := Option.map_eq_some_iff.mp found
  refine .holder notCallable rfl ?_
  intro method inside
  obtain ⟨member, isMember, made⟩ := List.mem_filterMap.mp inside
  exact members (within.namedChild isMember) made

theorem declaredSymbol_classSymbol? (within : Within root node)
    (found : classSymbol? node flags = some symbol) : DeclaredSymbol root symbol := by
  obtain ⟨plain, isPlain, rfl⟩ := Option.map_eq_some_iff.mp found
  split
  · next body isBody =>
      exact declaredSymbol_withMembers rfl isPlain (within.child? isBody)
        functionSymbol_classMember?
  · exact declaredSymbol_plainSymbol? rfl isPlain

theorem declaredSymbol_interfaceSymbol? (within : Within root node)
    (found : interfaceSymbol? node flags = some symbol) : DeclaredSymbol root symbol := by
  obtain ⟨plain, isPlain, rfl⟩ := Option.map_eq_some_iff.mp found
  split
  · next body isBody =>
      split
      · exact declaredSymbol_withMembers rfl isPlain (within.child? isBody)
          functionSymbol_interfaceMember?
      · exact declaredSymbol_plainSymbol? rfl isPlain
  · exact declaredSymbol_plainSymbol? rfl isPlain

theorem declaredSymbol_variableSymbol? (within : Within root node)
    (found : variableSymbol? node flags = some symbol) : DeclaredSymbol root symbol := by
  unfold variableSymbol? at found
  split at found
  · rw [Option.ite_none_right_eq_some] at found
    obtain ⟨_, made⟩ := found
    dsimp only at made
    split at made
    · next value isValue =>
        split at made
        · rw [← Option.some.inj made]
          exact .function (.intro _ .function flags within (.value isValue) rfl)
        · rw [← Option.some.inj made]
          exact .holder rfl rfl fun method member => absurd member List.not_mem_nil
    · rw [← Option.some.inj made]
      exact .holder rfl rfl fun method member => absurd member List.not_mem_nil
  · exact absurd found (by simp)

theorem functionSymbol_defaultFunction? {function : Tree} (within : Within root node)
    (declares : DeclaresFunction node function)
    (found : defaultFunction? function node flags = some symbol) : FunctionSymbol root symbol := by
  unfold defaultFunction? at found
  rw [Option.ite_none_right_eq_some, Option.some.injEq] at found
  rw [← found.2]
  exact .intro _ .function flags within declares rfl

theorem declaredSymbol_plainDeclaration (within : Within root node)
    (member : symbol ∈ plainDeclaration flags node) : DeclaredSymbol root symbol := by
  have ofFunction {name : String}
      (made : symbol ∈ [callableSymbol name .function node node flags]) :
      DeclaredSymbol root symbol := by
    rw [List.mem_singleton.mp made]
    exact .function (.intro name .function flags within .itself rfl)
  have ofVariables (made : symbol ∈ node.namedChildren.filterMap
      fun declarator => variableSymbol? declarator flags) : DeclaredSymbol root symbol := by
    obtain ⟨declarator, isPart, found⟩ := List.mem_filterMap.mp made
    exact declaredSymbol_variableSymbol? (within.namedChild isPart) found
  unfold plainDeclaration at member
  split at member
  · split at member
    · exact ofFunction member
    · exact absurd member List.not_mem_nil
  · split at member
    · exact ofFunction member
    · exact absurd member List.not_mem_nil
  · exact declaredSymbol_classSymbol? within (Option.mem_toList.mp member)
  · exact declaredSymbol_classSymbol? within (Option.mem_toList.mp member)
  · exact declaredSymbol_interfaceSymbol? within (Option.mem_toList.mp member)
  · exact declaredSymbol_plainSymbol? rfl (Option.mem_toList.mp member)
  · exact declaredSymbol_plainSymbol? rfl (Option.mem_toList.mp member)
  · exact ofVariables member
  · exact ofVariables member
  · exact absurd member List.not_mem_nil

/-- An export declares what its declaration does, or a function without a name of its own. -/
theorem declaredSymbol_defaultDeclaration {declared : Option (List Symbol)}
    (within : Within root node)
    (known : ∀ symbols, declared = some symbols → ∀ symbol ∈ symbols, DeclaredSymbol root symbol)
    (member : symbol ∈ defaultDeclaration node flags declared) : DeclaredSymbol root symbol := by
  have ofDefault {role : Role} (declares : ∀ {function}, node.child? role = some function →
      DeclaresFunction node function)
      (made : symbol ∈ ((node.child? role).bind (defaultFunction? · node flags)).toList) :
      DeclaredSymbol root symbol := by
    obtain ⟨function, isFunction, found⟩ :=
      Option.bind_eq_some_iff.mp (Option.mem_toList.mp made)
    exact .function (functionSymbol_defaultFunction? within (declares isFunction) found)
  unfold defaultDeclaration at member
  split at member
  · split at member
    · exact ofDefault .exported member
    · exact absurd member List.not_mem_nil
  · next symbols _ => exact known symbols rfl symbol member
  · split at member
    · exact ofDefault .value member
    · exact absurd member List.not_mem_nil

end Makers

/-! ## All symbols of a file -/

mutual

theorem declaredSymbol_declaration {root : Tree} (flags : Flags) (node : Tree)
    (within : Within root node) : ∀ symbol ∈ declaration flags node, DeclaredSymbol root symbol := by
  obtain ⟨role, kind, span, text, children⟩ := node
  have parts : ∀ child ∈ children, Within root child := fun child member => within.part member
  intro symbol member
  rw [declaration.eq_def] at member
  dsimp only at member
  split at member
  · exact declaredSymbol_defaultDeclaration within
      (declaredSymbol_exportedDeclaration? _ children parts) member
  · exact declaredSymbol_allDeclarations flags children parts symbol member
  · exact declaredSymbol_plainDeclaration within member

theorem declaredSymbol_exportedDeclaration? {root : Tree} (flags : Flags) (nodes : List Tree)
    (within : ∀ node ∈ nodes, Within root node) (symbols : List Symbol)
    (found : exportedDeclaration? flags nodes = some symbols) :
    ∀ symbol ∈ symbols, DeclaredSymbol root symbol := by
  cases nodes with
  | nil =>
      rw [exportedDeclaration?] at found
      exact absurd found (by simp)
  | cons child rest =>
      rw [List.forall_mem_cons] at within
      rw [exportedDeclaration?] at found
      split at found
      · exact Option.some.inj found ▸ declaredSymbol_declaration flags child within.1
      · exact declaredSymbol_exportedDeclaration? flags rest within.2 symbols found

theorem declaredSymbol_allDeclarations {root : Tree} (flags : Flags) (nodes : List Tree)
    (within : ∀ node ∈ nodes, Within root node) :
    ∀ symbol ∈ allDeclarations flags nodes, DeclaredSymbol root symbol := by
  intro symbol member
  cases nodes with
  | nil =>
      rw [allDeclarations] at member
      exact absurd member List.not_mem_nil
  | cons child rest =>
      rw [List.forall_mem_cons] at within
      rw [allDeclarations, List.mem_append] at member
      rcases member with own | later
      · split at own
        · exact declaredSymbol_declaration flags child within.1 symbol own
        · exact absurd own List.not_mem_nil
      · exact declaredSymbol_allDeclarations flags rest within.2 symbol later

end

theorem declaredSymbol_symbolsOf {root : Tree} {symbol : Symbol}
    (member : symbol ∈ symbolsOf root) : DeclaredSymbol root symbol :=
  declaredSymbol_allDeclarations Flags.empty root.children
    (fun _ isChild => Within.itself.part isChild) symbol member

/-! ## Marks and calls that are dropped -/

theorem dropAllBuiltinCalls_eq_map (bound : Std.ExtTreeSet String) (symbols : List Symbol) :
    dropAllBuiltinCalls bound symbols = symbols.map (dropBuiltinCalls bound) := by
  induction symbols with
  | nil => rfl
  | cons symbol rest inductionHypothesis =>
      rw [dropAllBuiltinCalls, inductionHypothesis, List.map_cons]

/-- Nothing but calls is dropped, here and in the members. -/
theorem dropBuiltinCalls_eq (bound : Std.ExtTreeSet String) (symbol : Symbol) :
    dropBuiltinCalls bound symbol =
      { symbol with
        methods := symbol.methods.map (dropBuiltinCalls bound)
        calls := symbol.calls.filter (isProgramCall bound) } := by
  cases symbol
  rw [dropBuiltinCalls, dropAllBuiltinCalls_eq_map]

/-- A symbol without its marks. -/
def unmarked (symbol : Symbol) : Symbol :=
  { symbol with flags := Flags.empty }

theorem map_unmarked_markFirst (name : String) (symbols : List Symbol) :
    (markFirst name symbols).map unmarked = symbols.map unmarked := by
  induction symbols with
  | nil => rfl
  | cons first rest inductionHypothesis =>
      rw [markFirst]
      split
      · rfl
      · rw [List.map_cons, inductionHypothesis, List.map_cons]

theorem map_unmarked_markExported (root : Tree) (symbols : List Symbol) :
    (markExported root symbols).map unmarked = symbols.map unmarked :=
  List.foldlRecOn (motive := fun marked : List Symbol =>
    marked.map unmarked = symbols.map unmarked) _ _ rfl
    fun marked same name _ => (map_unmarked_markFirst name marked).trans same

/-- The names that a file binds, as its declarations and its imports have them. -/
def boundIn (root : Tree) : Std.ExtTreeSet String :=
  boundNames (symbolsOf root) (importsOf root)

theorem map_unmarked_ofTree (root : Tree) :
    (ofTree root).symbols.map unmarked =
      (symbolsOf root).map fun symbol => unmarked (dropBuiltinCalls (boundIn root) symbol) := by
  dsimp only [ofTree]
  rw [map_unmarked_markExported, dropAllBuiltinCalls_eq_map, List.map_map]
  rfl

/-- What is extracted of a declared symbol: all but its marks and calls of built-in names. -/
structure ExtractedFrom (bound : Std.ExtTreeSet String) (declared symbol : Symbol) : Prop where
  name : symbol.name = declared.name
  kind : symbol.kind = declared.kind
  line : symbol.line = declared.line
  endLine : symbol.endLine = declared.endLine
  params : symbol.params = declared.params
  returnType : symbol.returnType = declared.returnType
  methods : symbol.methods = declared.methods.map (dropBuiltinCalls bound)
  calls : symbol.calls = declared.calls.filter (isProgramCall bound)

theorem extractedFrom_of_unmarked {bound : Std.ExtTreeSet String} {declared symbol : Symbol}
    (same : unmarked (dropBuiltinCalls bound declared) = unmarked symbol) :
    ExtractedFrom bound declared symbol := by
  rw [dropBuiltinCalls_eq] at same
  cases symbol
  simp only [unmarked, Symbol.mk.injEq] at same
  obtain ⟨name, kind, line, endLine, params, returnType, _, methods, calls⟩ := same
  exact ⟨name.symm, kind.symm, line.symm, endLine.symm, params.symm, returnType.symm,
    methods.symm, calls.symm⟩

theorem exists_of_mem_ofTree {root : Tree} {symbol : Symbol}
    (member : symbol ∈ (ofTree root).symbols) :
    ∃ declared ∈ symbolsOf root, ExtractedFrom (boundIn root) declared symbol := by
  have inside : unmarked symbol ∈ (ofTree root).symbols.map unmarked := List.mem_map_of_mem member
  rw [map_unmarked_ofTree] at inside
  obtain ⟨declared, isDeclared, same⟩ := List.mem_map.mp inside
  exact ⟨declared, isDeclared, extractedFrom_of_unmarked same⟩

/-! ## Members of members -/

theorem DeclaredSymbol.nested {root : Tree} {symbol : Symbol}
    (declared : DeclaredSymbol root symbol) : symbol.Nested 1 := by
  intro method member
  cases declared with
  | function made =>
      rw [made.methods_eq_nil] at member
      exact absurd member List.not_mem_nil
  | holder _ _ members => exact (members method member).methods_eq_nil

theorem nested_ofTree (root : Tree) : ∀ symbol ∈ (ofTree root).symbols, symbol.Nested 1 := by
  intro symbol extracted method member
  obtain ⟨declared, inside, kept⟩ := exists_of_mem_ofTree extracted
  rw [kept.methods] at member
  obtain ⟨original, isOriginal, rfl⟩ := List.mem_map.mp member
  have noMembers : original.methods = [] :=
    (declaredSymbol_symbolsOf inside).nested original isOriginal
  rw [Symbol.Nested, dropBuiltinCalls_eq, noMembers, List.map_nil]

end Extract

/-- The members of the symbols of a file have no members. -/
theorem Record.nested_ofBytes (path : String) (bytes : ByteArray) (now : Timestamp) :
    ∀ symbol ∈ (Record.ofBytes path bytes now).symbols, symbol.Nested 1 := by
  intro symbol member
  dsimp only [ofBytes] at member
  split at member
  · next extracted found =>
      have own : symbol ∈ extracted.symbols := member
      obtain ⟨dialect, _, parsed⟩ := Option.map_eq_some_iff.mp found
      rw [← parsed] at own
      exact Extract.nested_ofTree _ symbol own
  · exact absurd member List.not_mem_nil

end CodeIndex
