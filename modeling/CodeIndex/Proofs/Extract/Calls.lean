import CodeIndex.Proofs.Extract.Declared
import CodeIndex.Proofs.Ordered
import CodeIndex.Proofs.Source.Walk

/-!
Contract: the names that functions call, in the order in which they are written.

Owns:
- `Extract.CallsName`: which name a node calls, if any;
- `Extract.CallsInOrder`: all calls in a tree with their places, in pre-order;
- `Extract.FoundCalls.search_eq_foldl`: the search with a stack visits the nodes as a recursive walk
  does;
- `Extract.collectCalls_eq`: what is collected is each name of these once, where it occurs first;
- `Extracted.Binds`: the names that a file declares or imports;
- `Extract.calls_listed_in_preorder`: the calls of all symbols and members of a file.

A default or a namespace is imported as the wildcard, so its local name is none that is bound here.
-/

set_option autoImplicit false

namespace CodeIndex

namespace Extract

open CodeIndex.Source CodeIndex.Source.Tree

/-! ## Calls in a tree -/

/-- The name behind a called expression: an identifier, or the last property of a path. -/
inductive HasName : Tree → String → Prop
  | identifier {expression : Tree} : expression.kind = .identifier →
      HasName expression expression.text
  | property {expression last : Tree} : expression.kind = .memberExpression →
      expression.child? .property = some last → HasName expression last.text

/-- A node calls a name, or constructs something under it. -/
inductive CallsName (node : Tree) (name : String) : Prop
  | call {callee : Tree} : node.kind = .callExpression → node.child? .callee = some callee →
      HasName callee name → name ≠ "" → CallsName node name
  | construction {constructed : Tree} : node.kind = .newExpression →
      node.child? .constructed = some constructed →
      HasName constructed name → name ≠ "" → CallsName node name

/-- All calls in a tree with their places. In the lexicographic order of places a call comes before
those in its callee and its arguments, and what is further left comes first. -/
structure CallsInOrder (body : Tree) (calls : List (List Nat × String)) : Prop where
  ordered : calls.Pairwise fun earlier later => List.Lex (· < ·) earlier.1 later.1
  complete : ∀ address name, (address, name) ∈ calls ↔
    ∃ node, body.nodeAt? address = some node ∧ CallsName node name

theorem calleeName?_eq_some (expression : Tree) (name : String) :
    calleeName? expression = some name ↔ HasName expression name := by
  constructor
  · intro found
    unfold calleeName? at found
    split at found
    · next kind => exact Option.some.inj found ▸ .identifier kind
    · next kind =>
        obtain ⟨last, isLast, rfl⟩ := Option.map_eq_some_iff.mp found
        exact .property kind isLast
    · exact absurd found (by simp)
  · intro named
    cases named with
    | identifier kind => rw [calleeName?, kind]
    | property kind isLast => rw [calleeName?, kind, isLast, Option.map_some]

/-- The name that a node calls, unless it is empty. -/
def calledWord? (node : Tree) : Option String :=
  (calledName? node).filter (· ≠ "")

theorem calledWord?_eq_some (node : Tree) (name : String) :
    calledWord? node = some name ↔ CallsName node name := by
  rw [calledWord?, Option.filter_eq_some_iff, decide_eq_true_eq]
  constructor
  · intro called
    obtain ⟨found, nonempty⟩ := called
    unfold calledName? at found
    split at found
    · next kind =>
        obtain ⟨callee, isCallee, named⟩ := Option.bind_eq_some_iff.mp found
        exact .call kind isCallee ((calleeName?_eq_some callee name).mp named) nonempty
    · next kind =>
        obtain ⟨constructed, isConstructed, named⟩ := Option.bind_eq_some_iff.mp found
        exact .construction kind isConstructed ((calleeName?_eq_some constructed name).mp named)
          nonempty
    · exact absurd found (by simp)
  · intro calls
    cases calls with
    | call kind isCallee named nonempty =>
        rw [← calleeName?_eq_some] at named
        exact ⟨by rw [calledName?, kind, isCallee, Option.bind_some, named], nonempty⟩
    | construction kind isConstructed named nonempty =>
        rw [← calleeName?_eq_some] at named
        exact ⟨by rw [calledName?, kind, isConstructed, Option.bind_some, named], nonempty⟩

/-- The calls that a walk comes by. -/
def callsOnWalk (visits : List (List Nat × Tree)) : List (List Nat × String) :=
  visits.filterMap fun visit => (calledWord? visit.2).map fun name => (visit.1, name)

theorem callsInOrder_of_isWalk {body : Tree} {visits : List (List Nat × Tree)}
    (isWalk : IsWalk body visits) : CallsInOrder body (callsOnWalk visits) where
  ordered := by
    refine isWalk.ordered.filterMap _ ?_
    intro earlier later before first isFirst second isSecond
    obtain ⟨_, _, rfl⟩ := Option.map_eq_some_iff.mp isFirst
    obtain ⟨_, _, rfl⟩ := Option.map_eq_some_iff.mp isSecond
    exact before
  complete := by
    intro address name
    rw [callsOnWalk, List.mem_filterMap]
    constructor
    · intro listed
      obtain ⟨⟨place, node⟩, visited, found⟩ := listed
      obtain ⟨_, called, same⟩ := Option.map_eq_some_iff.mp found
      obtain ⟨rfl, rfl⟩ := Prod.mk.inj same
      exact ⟨node, (isWalk.complete place node).mp visited, (calledWord?_eq_some node _).mp called⟩
    · intro called
      obtain ⟨node, found, calls⟩ := called
      refine ⟨(address, node), (isWalk.complete address node).mpr found, ?_⟩
      rw [(calledWord?_eq_some node name).mpr calls, Option.map_some]

/-! ## Names in the order of first occurrences -/

/-- The names found, and the names seen, are the same. -/
def FoundCalls.InStep (found : FoundCalls) : Prop :=
  ∀ name, name ∈ found.seen ↔ name ∈ found.names

/-- A node adds the name it calls, unless that has been found before. -/
theorem FoundCalls.InStep.note {found : FoundCalls} (inStep : found.InStep) (node : Tree) :
    (found.note node).InStep ∧
      (found.note node).names = (calledWord? node).toList.foldl Ordered.addNew found.names := by
  have known : ∀ name, found.seen.contains name = found.names.contains name := by
    intro name
    rw [Bool.eq_iff_iff, Std.ExtTreeSet.contains_iff_mem, List.contains_iff_mem]
    exact inStep name
  unfold FoundCalls.note calledWord?
  cases calledName? node with
  | none => exact ⟨inStep, rfl⟩
  | some name =>
      dsimp only
      by_cases empty : name = ""
      · simp [empty, Option.filter, inStep]
      · by_cases member : name ∈ found.names
        · simp [empty, known, member, Option.filter, Ordered.addNew, inStep]
        · refine ⟨?_, by simp [empty, known, member, Option.filter, Ordered.addNew]⟩
          intro other
          rw [if_neg (by simp [empty, known, member])]
          show other ∈ found.seen.insert name ↔ other ∈ found.names ++ [name]
          rw [Std.ExtTreeSet.mem_insert, Std.LawfulEqCmp.compare_eq_iff_eq, inStep other,
            List.mem_append, List.mem_singleton, or_comm, @eq_comm _ name other]

/-- Notes taken node by node are the names of the nodes, each where it occurs first. -/
theorem FoundCalls.InStep.names_foldl_note {found : FoundCalls} (inStep : found.InStep)
    (nodes : List Tree) :
    (nodes.foldl FoundCalls.note found).names =
      (nodes.filterMap calledWord?).foldl Ordered.addNew found.names := by
  induction nodes generalizing found with
  | nil => rfl
  | cons node rest inductionHypothesis =>
      obtain ⟨still, names⟩ := inStep.note node
      rw [List.foldl_cons, inductionHypothesis still, names]
      cases word : calledWord? node with
      | none => rw [List.filterMap_cons_none word]; rfl
      | some name => rw [List.filterMap_cons_some word]; rfl

/-! ## The search is a walk -/

theorem map_snd_visitIn (position : Nat) (visits : List (List Nat × Tree)) :
    (visits.map (visitIn position)).map (·.2) = visits.map (·.2) := by
  rw [List.map_map]
  rfl

theorem map_snd_walkAll (nodes : List Tree) (start : Nat) :
    (walkAll start nodes).map (·.2) =
      (nodes.filter isNamed).flatMap fun node => (walk node).map (·.2) := by
  induction nodes generalizing start with
  | nil => rw [walkAll]; rfl
  | cons first others inductionHypothesis =>
      by_cases named : first.isNamed = true
      · rw [walkAll_cons_of_isNamed named, List.map_append, map_snd_visitIn,
          List.filter_cons_of_pos named, List.flatMap_cons, inductionHypothesis]
      · rw [walkAll_cons_of_token named, List.filter_cons_of_neg named, inductionHypothesis]

/-- A walk visits a node, and then it walks through the named children from left to right. -/
theorem map_snd_walk (tree : Tree) :
    (walk tree).map (·.2) =
      tree :: tree.namedChildren.flatMap fun node => (walk node).map (·.2) := by
  rw [walk_eq, List.map_cons, map_snd_walkAll]
  rfl

/-- The search with a stack notes the nodes in the order of the recursive walks through the nodes on
the stack, from its top down. -/
theorem FoundCalls.search_eq_foldl (found : FoundCalls) (stack : List Tree) :
    found.search stack =
      (stack.flatMap fun node => (walk node).map (·.2)).foldl FoundCalls.note found := by
  fun_induction FoundCalls.search found stack with
  | case1 found => rfl
  | case2 found node stack inductionHypothesis =>
      rw [inductionHypothesis, pushAll_reverse, List.flatMap_append, List.flatMap_cons,
        map_snd_walk node, List.cons_append, List.foldl_cons]

/-- Each name is collected once, in the order in which a walk first comes by it. -/
theorem collectCalls_eq (body : Tree) :
    collectCalls body = ((callsOnWalk (walk body)).map (·.2)).eraseDups := by
  have words : (callsOnWalk (walk body)).map (·.2) =
      ((walk body).map (·.2)).filterMap calledWord? := by
    rw [callsOnWalk, List.map_filterMap, List.filterMap_map]
    congr 1
    funext visit
    simp [Function.comp_def]
  have start : FoundCalls.InStep {} := by
    intro name
    simp
  rw [collectCalls, FoundCalls.search_eq_foldl, List.flatMap_singleton, start.names_foldl_note,
    words]
  exact Ordered.foldl_addNew [] _

/-! ## Names that a file binds -/

/-- The names of a symbol and of its members. -/
def ownNames (symbol : Symbol) : List String :=
  symbol.name :: symbol.methods.map (·.name)

theorem ownNames_dropBuiltinCalls (bound : Std.ExtTreeSet String) (symbol : Symbol) :
    ownNames (unmarked (dropBuiltinCalls bound symbol)) = ownNames symbol := by
  have names : (symbol.methods.map (dropBuiltinCalls bound)).map (·.name) =
      symbol.methods.map (·.name) := by
    rw [List.map_map]
    apply List.map_congr_left
    intro method _
    rw [Function.comp_apply, dropBuiltinCalls_eq]
  rw [dropBuiltinCalls_eq]
  exact congrArg (symbol.name :: ·) names

/-- What is extracted has the names that are declared. -/
theorem ownNames_ofTree (root : Tree) :
    (ofTree root).symbols.flatMap ownNames = (symbolsOf root).flatMap ownNames := by
  have views : (ofTree root).symbols.map ownNames = (symbolsOf root).map ownNames := by
    calc (ofTree root).symbols.map ownNames
      _ = ((ofTree root).symbols.map unmarked).map ownNames := by rw [List.map_map]; rfl
      _ = (symbolsOf root).map ownNames := by
          rw [map_unmarked_ofTree, List.map_map]
          apply List.map_congr_left
          intro symbol _
          exact ownNames_dropBuiltinCalls (boundIn root) symbol
  rw [List.flatMap_def, List.flatMap_def, views]

end Extract

/-- A file binds the names of its symbols and of their members, the names that it imports, and the
local names that it gives to imports. -/
def Extracted.Binds (extracted : Extracted) (name : String) : Prop :=
  (∃ symbol ∈ extracted.symbols, symbol.name = name) ∨
  (∃ symbol ∈ extracted.symbols, ∃ method ∈ symbol.methods, method.name = name) ∨
  (∃ statement ∈ extracted.imports, name ∈ statement.names) ∨
  (∃ statement ∈ extracted.imports, name ∈ statement.aliases)

instance (extracted : Extracted) (name : String) : Decidable (extracted.Binds name) :=
  inferInstanceAs (Decidable (_ ∨ _ ∨ _ ∨ _))

namespace Extract

open CodeIndex.Source CodeIndex.Source.Tree

theorem contains_boundIn {root : Tree} {name : String} (plain : name ≠ wildcard) :
    (boundIn root).contains name = true ↔ (ofTree root).Binds name := by
  have declared : name ∈ (symbolsOf root).flatMap ownNames ↔
      (∃ symbol ∈ (ofTree root).symbols, symbol.name = name) ∨
        ∃ symbol ∈ (ofTree root).symbols, ∃ method ∈ symbol.methods, method.name = name := by
    rw [← ownNames_ofTree, List.mem_flatMap, ← exists_or]
    simp only [ownNames, List.mem_cons, List.mem_map]
    grind
  have imported : name ∈ (importsOf root).flatMap (fun statement =>
        statement.names.filter (· != wildcard) ++ statement.aliases.keys) ↔
      (∃ statement ∈ (ofTree root).imports, name ∈ statement.names) ∨
        ∃ statement ∈ (ofTree root).imports, name ∈ statement.aliases := by
    rw [List.mem_flatMap, ← exists_or]
    simp only [List.mem_append, List.mem_filter, bne_iff_ne, Std.ExtTreeMap.mem_keys, plain, ne_eq,
      not_false_eq_true, and_true, and_or_left]
    exact Iff.rfl
  rw [boundIn, boundNames, Std.ExtTreeSet.contains_ofList, List.contains_iff_mem, List.mem_append]
  show name ∈ (symbolsOf root).flatMap ownNames ∨ _ ↔ _
  rw [declared, imported, Extracted.Binds, or_assoc]

/-- The calls that are kept: all but those of built-in names that the file does not bind. -/
theorem isProgramCall_boundIn (root : Tree) :
    isProgramCall (boundIn root) =
      fun name => decide (¬ (name ∈ commonBuiltins ∧ ¬ (ofTree root).Binds name)) := by
  funext name
  rw [isProgramCall, Bool.eq_iff_iff, decide_eq_true_eq, Bool.or_eq_true, Bool.not_eq_true',
    ← Bool.not_eq_true, List.contains_iff_mem]
  by_cases builtin : name ∈ commonBuiltins
  · have plain : name ≠ wildcard := by
      intro same
      rw [same] at builtin
      exact absurd builtin (by decide)
    rw [contains_boundIn plain]
    simp [builtin]
  · simp [builtin]

/-! ## Symbols and members -/

/-- Members are extracted from members. -/
theorem exists_of_mem_family {root : Tree} {symbol own : Symbol}
    (extracted : symbol ∈ (ofTree root).symbols) (member : own ∈ symbol :: symbol.methods) :
    ∃ declared ∈ symbolsOf root, ∃ original ∈ declared :: declared.methods,
      ExtractedFrom (boundIn root) original own := by
  obtain ⟨declared, inside, kept⟩ := exists_of_mem_ofTree extracted
  refine ⟨declared, inside, ?_⟩
  rcases List.mem_cons.mp member with rfl | isMethod
  · exact ⟨declared, List.mem_cons_self, kept⟩
  · rw [kept.methods] at isMethod
    obtain ⟨original, isOriginal, rfl⟩ := List.mem_map.mp isMethod
    exact ⟨original, List.mem_cons_of_mem declared isOriginal, extractedFrom_of_unmarked rfl⟩

theorem DeclaredSymbol.family_cases {root : Tree} {symbol own : Symbol}
    (declared : DeclaredSymbol root symbol) (member : own ∈ symbol :: symbol.methods) :
    FunctionSymbol root own ∨ (own.kind.isCallable = false ∧ own.calls = []) := by
  cases declared with
  | function made =>
      rw [made.methods_eq_nil] at member
      rw [List.mem_singleton.mp member]
      exact .inl made
  | holder kind calls members =>
      rcases List.mem_cons.mp member with rfl | isMethod
      · exact .inr ⟨kind, calls⟩
      · exact .inl (members own isMethod)

/-- A symbol tells of a function: its parameters and its type are the function's, and its lines are
those of a node that declares the function. -/
structure Tells (symbol : Symbol) (extent function : Tree) : Prop where
  declares : DeclaresFunction extent function
  line : symbol.line = extent.startLine
  endLine : symbol.endLine = extent.stopLine
  params : symbol.params = paramsOf function
  returnType : symbol.returnType = (function.child? .returnType).map typeText

theorem calls_callableSymbol (name : String) (kind : SymbolKind) (function extent : Tree)
    (flags : Flags) :
    (callableSymbol name kind function extent flags).calls =
      (function.child? .body).elim [] collectCalls := by
  unfold callableSymbol
  cases function.child? .body <;> rfl

theorem FunctionSymbol.isCallable {root : Tree} {symbol : Symbol}
    (made : FunctionSymbol root symbol) : symbol.kind.isCallable = true := by
  cases made with
  | intro name kind flags within declares callable => exact callable

/-- What is extracted of a function has its calls from the function's body. -/
theorem FunctionSymbol.exists_tells {root : Tree} {original own : Symbol}
    {bound : Std.ExtTreeSet String} (made : FunctionSymbol root original)
    (kept : ExtractedFrom bound original own) :
    ∃ extent function, Within root extent ∧ Tells own extent function ∧
      own.calls =
        ((function.child? .body).elim [] collectCalls).filter (isProgramCall bound) := by
  cases made with
  | @intro extent function name kind flags within declares callable =>
      refine ⟨extent, function, within, ?_, ?_⟩
      · exact ⟨declares, kept.line, kept.endLine, kept.params, kept.returnType⟩
      · rw [kept.calls, calls_callableSymbol]

/-- The names that are called in a body are listed in the order in which a walk in pre-order first
comes by them, each once. Every function and every method of a file has the names that are called in
its body, without just those built-in ones that the file does not bind; other symbols have none. -/
theorem calls_listed_in_preorder (root : Tree) :
    (∀ body : Tree, (collectCalls body).Nodup ∧
      ∃ calls, CallsInOrder body calls ∧ collectCalls body = (calls.map (·.2)).eraseDups) ∧
    ∀ symbol ∈ (ofTree root).symbols, ∀ own ∈ symbol :: symbol.methods,
      (own.kind.isCallable = false → own.calls = []) ∧
      (own.kind.isCallable = true →
        ∃ extent function, Within root extent ∧ Tells own extent function ∧
          own.calls = ((function.child? .body).elim [] collectCalls).filter fun name =>
            ¬ (name ∈ commonBuiltins ∧ ¬ (ofTree root).Binds name)) := by
  refine ⟨?_, ?_⟩
  · intro body
    refine ⟨?_, _, callsInOrder_of_isWalk (isWalk_walk body), collectCalls_eq body⟩
    rw [collectCalls_eq]
    exact Ordered.nodup_eraseDups _
  · intro symbol extracted own member
    obtain ⟨declared, inside, original, isOriginal, kept⟩ := exists_of_mem_family extracted member
    have sort := (declaredSymbol_symbolsOf inside).family_cases isOriginal
    rw [kept.kind]
    constructor
    · intro notCallable
      rcases sort with made | ⟨_, nothing⟩
      · exact absurd (made.isCallable.symm.trans notCallable) (by decide)
      · rw [kept.calls, nothing, List.filter_nil]
    · intro callable
      rcases sort with made | ⟨notCallable, _⟩
      · rw [← isProgramCall_boundIn]
        exact made.exists_tells kept
      · exact absurd (callable.symm.trans notCallable) (by decide)

/-- A method that calls built-in names: one that is imported, its own one, one that is imported as a
default, and one that is not bound at all. -/
def loggedFile : Tree :=
  Source.parse { types := true, elements := false }
    ("import then, \x7b log \x7d from './l';\n" ++
      "class B \x7b push(x) \x7b log(x.push(then()), new B(), warn(x.push())) \x7d \x7d\n")

theorem loggedFile_calls :
    ∃ symbol ∈ (ofTree loggedFile).symbols, ∃ method ∈ symbol.methods,
      method.calls = ["log", "push", "B"] ∧
      ∃ extent function, Within loggedFile extent ∧ Tells method extent function ∧
        method.calls = ((function.child? .body).elim [] collectCalls).filter fun name =>
          ¬ (name ∈ commonBuiltins ∧ ¬ (ofTree loggedFile).Binds name) := by
  have facts : (ofTree loggedFile).symbols.any (fun symbol => symbol.methods.any fun method =>
      method.kind.isCallable && method.calls == ["log", "push", "B"]) = true := by
    decide +kernel
  obtain ⟨symbol, extracted, found⟩ := List.any_eq_true.mp facts
  obtain ⟨method, isMethod, values⟩ := List.any_eq_true.mp found
  rw [Bool.and_eq_true, beq_iff_eq] at values
  obtain ⟨callable, calls⟩ := values
  have listed := (calls_listed_in_preorder loggedFile).2 symbol extracted method
    (List.mem_cons_of_mem symbol isMethod)
  exact ⟨symbol, extracted, method, isMethod, calls, listed.2 callable⟩

end Extract

end CodeIndex
