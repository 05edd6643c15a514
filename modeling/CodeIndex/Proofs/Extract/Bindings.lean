import CodeIndex.Extract.Basic
import CodeIndex.Proofs.Multimap
import CodeIndex.Proofs.Ordered
import Mathlib.Data.List.Nodup

/-!
Contract: what the local names of an import statement stand for.

Owns:
- `Import.importedName?_eq_some`: the look-up of a local name, by what an import keeps;
- `Extract.NamedBinding`: one name between the braces of an import statement;
- `Extract.Keeps`: what an import keeps of these names;
- `Extract.local_names_resolved`: the local names of a statement, looked up in its import.

An import keeps the exported names in one list, whatever they are called in the file, and the local
names that were given in a map beside it. A name that is imported under itself and under another
name too cannot be told from one that is imported under the other name only, and is taken for that.
-/

set_option autoImplicit false

namespace CodeIndex

/-- A local name that was given leads to what it was given to. Any other one is bound to itself, if
it is imported and was given no other name. -/
theorem Import.importedName?_eq_some (statement : Import) (name exported : String) :
    statement.importedName? name = some exported ↔
      statement.aliases[name]? = some exported ∨
        (statement.aliases[name]? = none ∧ exported = name ∧ name ∈ statement.names ∧
          ¬ ∃ other : String, statement.aliases[other]? = some name) := by
  unfold importedName?
  cases statement.aliases[name]? with
  | some found => simp
  | none =>
      rw [← mem_mapValues]
      have accepted (other : String) :
          (other == name && !statement.aliases.values.contains other) = true ↔
            other = name ∧ name ∉ statement.aliases.values := by
        simp only [Bool.and_eq_true, beq_iff_eq, Bool.not_eq_true', List.contains_eq_mem,
          decide_eq_false_iff_not]
        exact and_congr_right fun same => by rw [same]
      show statement.names.find? _ = some exported ↔ _
      constructor
      · intro found
        have holds := List.find?_some found
        obtain ⟨rfl, free⟩ := (accepted exported).mp holds
        exact Or.inr ⟨rfl, rfl, List.mem_of_find?_eq_some found, free⟩
      · intro bound
        obtain impossible | ⟨_, rfl, member, free⟩ := bound
        · cases impossible
        · cases found : statement.names.find? _ with
          | none =>
              have missed := List.find?_eq_none.mp found exported member
              exact absurd ((accepted exported).mpr ⟨rfl, free⟩) missed
          | some other =>
              have holds := List.find?_some found
              rw [((accepted other).mp holds).1]

namespace Extract

open CodeIndex.Source

/-! ## Names between braces -/

/-- One name between the braces of an import statement. -/
structure NamedBinding where
  exported : String
  /-- The local name, if one is given. -/
  given : Option String
  deriving DecidableEq, Repr

/-- The name that a binding has in the file. -/
def NamedBinding.localName (binding : NamedBinding) : String :=
  binding.given.getD binding.exported

/-- A local name that is given, with what it stands for. -/
def NamedBinding.alias? (binding : NamedBinding) : Option (String × String) :=
  binding.given.map fun name => (name, binding.exported)

theorem NamedBinding.alias?_eq_some (binding : NamedBinding) (name exported : String) :
    binding.alias? = some (name, exported) ↔ binding = ⟨exported, some name⟩ := by
  obtain ⟨own, given⟩ := binding
  cases given with
  | none => simp [alias?]
  | some other => simp [alias?, and_comm]

def ImportBinding.named? : ImportBinding → Option NamedBinding
  | .named exported given _ => some ⟨exported, given⟩
  | .whole => none

/-- The names between the braces of a statement, from left to right. -/
def namedBindings (statement : Tree) : List NamedBinding :=
  (bindingsOf statement).filterMap ImportBinding.named?

/-- The local names are told apart. -/
def LocalsDistinct (bindings : List NamedBinding) : Prop :=
  (bindings.map NamedBinding.localName).Nodup

instance (bindings : List NamedBinding) : Decidable (LocalsDistinct bindings) :=
  inferInstanceAs (Decidable (List.Nodup _))

/-! ## What an import keeps -/

theorem foldl_addName (names : List String) : names.foldl addName [] = names.eraseDups :=
  Ordered.foldl_addNew [] names

theorem importedNames_eq (bindings : List ImportBinding) :
    importedNames bindings =
      ((bindings.filterMap ImportBinding.named?).map NamedBinding.exported).foldl addName [] ++
        (if bindings.contains .whole then [wildcard] else []) := by
  rw [List.map_filterMap, importedNames]
  congr 3
  funext binding
  cases binding with
  | whole => rfl
  | named exported given typeOnly => rfl

theorem mem_importedNames (bindings : List ImportBinding) (name : String) :
    name ∈ importedNames bindings ↔
      (∃ binding ∈ bindings.filterMap ImportBinding.named?, binding.exported = name) ∨
        (.whole ∈ bindings ∧ name = wildcard) := by
  rw [importedNames_eq, List.mem_append, foldl_addName, List.mem_eraseDups]
  simp

theorem foldl_insert_eq_insertMany (entries : List (String × String))
    (start : Std.ExtTreeMap String String) :
    entries.foldl (fun aliases entry => aliases.insert entry.1 entry.2) start =
      start.insertMany entries := by
  induction entries generalizing start with
  | nil => simp
  | cons first rest inductionHypothesis =>
      rw [List.foldl_cons, inductionHypothesis]
      exact Std.ExtTreeMap.insertMany_cons.symm

theorem importAliases_eq_ofList (bindings : List ImportBinding) :
    importAliases bindings =
      Std.ExtTreeMap.ofList
        ((bindings.filterMap ImportBinding.named?).filterMap NamedBinding.alias?) := by
  rw [Std.ExtTreeMap.ofList_eq_insertMany_empty, ← foldl_insert_eq_insertMany,
    List.foldl_filterMap, List.foldl_filterMap, importAliases]
  congr 1
  funext aliases binding
  cases binding with
  | whole => rfl
  | named exported given typeOnly =>
      cases given with
      | none => rfl
      | some name => rfl

/-- No local name is given twice. -/
theorem pairwise_aliases {bindings : List NamedBinding} (distinct : LocalsDistinct bindings) :
    (bindings.filterMap NamedBinding.alias?).Pairwise
      (fun first second => ¬ compare first.1 second.1 = .eq) := by
  unfold LocalsDistinct List.Nodup at distinct
  rw [List.pairwise_map] at distinct
  refine distinct.filterMap _ ?_
  intro first second apart firstEntry firstFound secondEntry secondFound
  obtain ⟨name, exported⟩ := firstEntry
  obtain ⟨other, otherExported⟩ := secondEntry
  rw [NamedBinding.alias?_eq_some] at firstFound secondFound
  subst firstFound secondFound
  simpa [NamedBinding.localName] using apart

theorem getElem?_importAliases {bindings : List ImportBinding}
    (distinct : LocalsDistinct (bindings.filterMap ImportBinding.named?)) (name exported : String) :
    (importAliases bindings)[name]? = some exported ↔
      ⟨exported, some name⟩ ∈ bindings.filterMap ImportBinding.named? := by
  rw [importAliases_eq_ofList]
  generalize bindings.filterMap ImportBinding.named? = named at distinct ⊢
  have entries (exported : String) :
      (name, exported) ∈ named.filterMap NamedBinding.alias? ↔ ⟨exported, some name⟩ ∈ named := by
    simp [List.mem_filterMap, NamedBinding.alias?_eq_some]
  constructor
  · intro found
    by_cases given : name ∈ (named.filterMap NamedBinding.alias?).map Prod.fst
    · obtain ⟨⟨_, other⟩, member, rfl⟩ := List.mem_map.mp given
      rw [Std.ExtTreeMap.getElem?_ofList_of_mem (by simp) (pairwise_aliases distinct)
        member] at found
      cases found
      exact (entries exported).mp member
    · rw [Std.ExtTreeMap.getElem?_ofList_of_contains_eq_false (by simpa using given)] at found
      cases found
  · intro member
    exact Std.ExtTreeMap.getElem?_ofList_of_mem (by simp) (pairwise_aliases distinct)
      ((entries exported).mpr member)

/-! ## Local names -/

/-- A name that is imported under itself is imported under another name too. -/
def NamedBinding.Doubled (bindings : List NamedBinding) (binding : NamedBinding) : Prop :=
  binding.given = none ∧
    ∃ other ∈ bindings, other.given.isSome = true ∧ other.exported = binding.exported

instance (bindings : List NamedBinding) (binding : NamedBinding) :
    Decidable (binding.Doubled bindings) :=
  inferInstanceAs (Decidable (_ ∧ _))

/-- What an import keeps of the names between the braces of its statement: the local names that were
given, and the exported names. -/
structure Keeps (named : List NamedBinding) (imported : Import) : Prop where
  mem_aliases (name exported : String) :
    imported.aliases[name]? = some exported ↔ ⟨exported, some name⟩ ∈ named
  mem_names (name : String) :
    name ∈ imported.names ↔
      (∃ binding ∈ named, binding.exported = name) ∨
        (name = wildcard ∧ imported.hasWildcard = true)

namespace Keeps

variable {named : List NamedBinding} {imported : Import}

theorem exists_aliases_iff (keeps : Keeps named imported) (exported : String) :
    (∃ name : String, imported.aliases[name]? = some exported) ↔
      ∃ binding ∈ named, binding.given.isSome = true ∧ binding.exported = exported := by
  simp only [keeps.mem_aliases]
  constructor
  · intro found
    obtain ⟨name, member⟩ := found
    exact ⟨_, member, rfl, rfl⟩
  · intro found
    obtain ⟨⟨_, given⟩, member, isGiven, rfl⟩ := found
    obtain ⟨name, rfl⟩ := Option.isSome_iff_exists.mp isGiven
    exact ⟨name, member⟩

theorem importedName?_localName (keeps : Keeps named imported) (distinct : LocalsDistinct named)
    {binding : NamedBinding} (member : binding ∈ named) :
    imported.importedName? binding.localName =
      if binding.Doubled named then none else some binding.exported := by
  obtain ⟨exported, given⟩ := binding
  cases given with
  | some name =>
      have single : ¬ NamedBinding.Doubled named ⟨exported, some name⟩ := by
        simp [NamedBinding.Doubled]
      rw [if_neg single, Import.importedName?_eq_some]
      exact Or.inl ((keeps.mem_aliases name exported).mpr member)
  | none =>
      show imported.importedName? exported = _
      -- No other binding can have given the local name.
      have notGiven : imported.aliases[exported]? = none := by
        rw [Option.eq_none_iff_forall_ne_some]
        intro other found
        have same := List.inj_on_of_nodup_map distinct member
          ((keeps.mem_aliases exported other).mp found) rfl
        cases same
      by_cases doubled : NamedBinding.Doubled named ⟨exported, none⟩
      · rw [if_pos doubled, Option.eq_none_iff_forall_ne_some]
        intro other bound
        obtain found | ⟨_, _, _, free⟩ := (imported.importedName?_eq_some exported other).mp bound
        · rw [notGiven] at found
          cases found
        · exact free ((keeps.exists_aliases_iff exported).mpr doubled.2)
      · rw [if_neg doubled, Import.importedName?_eq_some]
        refine Or.inr ⟨notGiven, rfl, (keeps.mem_names exported).mpr (Or.inl ⟨_, member, rfl⟩), ?_⟩
        intro aliased
        exact doubled ⟨rfl, (keeps.exists_aliases_iff exported).mp aliased⟩

theorem importedName?_of_not_mem (keeps : Keeps named imported) {name : String}
    (identifier : name ≠ wildcard) (unbound : name ∉ named.map NamedBinding.localName) :
    imported.importedName? name = none := by
  rw [Option.eq_none_iff_forall_ne_some]
  intro exported bound
  obtain found | ⟨_, _, kept, free⟩ := (imported.importedName?_eq_some name exported).mp bound
  · exact unbound (List.mem_map.mpr ⟨_, (keeps.mem_aliases name exported).mp found, rfl⟩)
  · obtain ⟨⟨_, given⟩, member, rfl⟩ | ⟨isWildcard, _⟩ := (keeps.mem_names name).mp kept
    · cases given with
      | none => exact unbound (List.mem_map.mpr ⟨_, member, rfl⟩)
      | some other => exact free ⟨other, (keeps.mem_aliases other _).mpr member⟩
    · exact identifier isWildcard

end Keeps

theorem keeps_importOfBindings {bindings : List ImportBinding}
    (distinct : LocalsDistinct (bindings.filterMap ImportBinding.named?)) (source : String)
    (typeOnly : Bool) (line : UInt32) :
    Keeps (bindings.filterMap ImportBinding.named?)
      (importOfBindings source typeOnly line bindings) where
  mem_aliases := getElem?_importAliases distinct
  mem_names name := by
    show name ∈ importedNames bindings ↔
      _ ∨ (name = wildcard ∧ (importedNames bindings).contains wildcard = true)
    rw [List.contains_iff_mem]
    constructor
    · intro member
      by_cases isWildcard : name = wildcard
      · exact Or.inr ⟨isWildcard, isWildcard ▸ member⟩
      · simpa [mem_importedNames, isWildcard] using member
    · intro kept
      obtain exported | ⟨rfl, member⟩ := kept
      · exact (mem_importedNames bindings name).mpr (Or.inl exported)
      · exact member

theorem exists_importOf? {statement : Tree} (isImport : statement.kind = .importStatement)
    (fromModule : (importSource? statement).isSome = true)
    (distinct : LocalsDistinct (namedBindings statement)) :
    ∃ imported, importOf? statement = some imported ∧ Keeps (namedBindings statement) imported := by
  obtain ⟨source, found⟩ := Option.isSome_iff_exists.mp fromModule
  refine ⟨importOfBindings source (statement.hasToken "type") statement.startLine
    (bindingsOf statement), ?_, keeps_importOfBindings distinct _ _ _⟩
  rw [importOf?, isImport, found]
  rfl

/-- The local names of an import statement, looked up in its import. Each leads to the name that it
was imported for, with one exception: a name that is imported both under itself and under another
name leads nowhere. No other name is bound. -/
theorem local_names_resolved (statement : Tree) (isImport : statement.kind = .importStatement)
    (fromModule : (importSource? statement).isSome = true)
    (distinct : LocalsDistinct (namedBindings statement)) :
    ∃ imported, importOf? statement = some imported ∧
      (∀ binding ∈ namedBindings statement,
        imported.importedName? binding.localName =
          if binding.Doubled (namedBindings statement) then none else some binding.exported) ∧
      ∀ name, name ≠ wildcard → name ∉ (namedBindings statement).map NamedBinding.localName →
        imported.importedName? name = none := by
  obtain ⟨imported, made, keeps⟩ := exists_importOf? isImport fromModule distinct
  refine ⟨imported, made, ?_, ?_⟩
  · intro binding member
    exact keeps.importedName?_localName distinct member
  · intro name identifier unbound
    exact keeps.importedName?_of_not_mem identifier unbound

/-- The first statement of a text. -/
def firstStatement (source : String) : Tree :=
  (Source.parse { types := true, elements := false } source).namedChildren.headD default

/-- A default binding, a chain of local names and a name that keeps its own. -/
def chainedImport : Tree :=
  firstStatement "import d, \x7b a as b, b as c, e \x7d from './m';\n"

theorem chainedImport_resolved :
    namedBindings chainedImport = [⟨"a", some "b"⟩, ⟨"b", some "c"⟩, ⟨"e", none⟩] ∧
      ∃ imported, importOf? chainedImport = some imported ∧
        imported.importedName? "b" = some "a" ∧ imported.importedName? "c" = some "b" ∧
        imported.importedName? "e" = some "e" ∧ imported.importedName? "a" = none ∧
        imported.importedName? "d" = none := by
  have facts : chainedImport.kind = .importStatement ∧
      (importSource? chainedImport).isSome = true ∧
      LocalsDistinct (namedBindings chainedImport) ∧
      namedBindings chainedImport = [⟨"a", some "b"⟩, ⟨"b", some "c"⟩, ⟨"e", none⟩] := by
    decide +kernel
  obtain ⟨isImport, fromModule, distinct, bindings⟩ := facts
  obtain ⟨imported, made, bound, unbound⟩ :=
    local_names_resolved chainedImport isImport fromModule distinct
  rw [bindings] at bound unbound
  refine ⟨bindings, imported, made, ?_, ?_, ?_, ?_, ?_⟩
  · exact bound ⟨"a", some "b"⟩ (by decide)
  · exact bound ⟨"b", some "c"⟩ (by decide)
  · exact bound ⟨"e", none⟩ (by decide)
  · exact unbound "a" (by decide) (by decide)
  · exact unbound "d" (by decide) (by decide)

/-- One function under its own name and under another one. -/
def doubledImport : Tree :=
  firstStatement "import \x7b f, f as g \x7d from './m';\n"

/-- The two local names are told apart and stand for one export, but only the given one leads to
it. -/
theorem plain_name_is_lost :
    doubledImport.kind = .importStatement ∧
      (importSource? doubledImport).isSome = true ∧
      LocalsDistinct (namedBindings doubledImport) ∧
      namedBindings doubledImport = [⟨"f", none⟩, ⟨"f", some "g"⟩] ∧
      (importOf? doubledImport).map (fun imported =>
          (imported.importedName? "f", imported.importedName? "g")) =
        some (none, some "f") := by
  decide +kernel

end Extract

end CodeIndex
