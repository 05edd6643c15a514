import CodeIndex.Graph.Update
import CodeIndex.Proofs.Multimap

/-!
Contract: what a list of declarations says about the keys of a file.

Owns:
- `Plain`, `ownerOf`: the file that a key belongs to;
- `Declaration`, `declared?`, `declaredKeys`, `declaredCalls?`: definition, order and calls of the
  keys that declarations make, read off the declarations alone.

Does not own: that the graph holds just this.

A key has its file before the first `#`. If no path has a `#`, no two files share a key, and a file
can be put in and taken out without touching the keys of another.
-/

set_option autoImplicit false

namespace CodeIndex

/-! ## Keys and their files -/

/-- A path that can be told from the key it begins. -/
def Plain (path : String) : Prop :=
  ¬ '#' ∈ path.toList

instance (path : String) : Decidable (Plain path) :=
  inferInstanceAs (Decidable (¬ '#' ∈ path.toList))

/-- The file that a key belongs to: what is before the first `#`. -/
def ownerOf (key : String) : String :=
  String.ofList (key.toList.takeWhile (· != '#'))

theorem ownerOf_qualifiedKey {path : String} (plain : Plain path) (name : String) :
    ownerOf (qualifiedKey path name) = path := by
  have split : (qualifiedKey path name).toList = path.toList ++ '#' :: name.toList := by
    simp [qualifiedKey, String.toList_append]
  have before : ∀ character ∈ path.toList, (character != '#') = true := by
    intro character member
    have different : character ≠ '#' := fun same => plain (same ▸ member)
    simpa using different
  rw [ownerOf, split, List.takeWhile_append_of_pos before]
  simp

theorem qualifiedKey_inj (path : String) {left right : String} :
    qualifiedKey path left = qualifiedKey path right ↔ left = right := by
  simp [qualifiedKey, ← String.toList_inj, String.toList_append]

/-! ## Declarations -/

/-- A symbol without an owner, or a member with its owner. -/
abbrev Declaration : Type := Symbol × Option Symbol

namespace Declaration

def key (path : String) (entry : Declaration) : String :=
  Definition.keyOf path entry.1 entry.2

def definition (path : String) (entry : Declaration) : Definition :=
  Definition.ofSymbol path entry.1 entry.2

theorem ownerOf_key {path : String} (plain : Plain path) (entry : Declaration) :
    ownerOf (entry.key path) = path :=
  ownerOf_qualifiedKey plain _

end Declaration

namespace Graph

/-- The definition under a key is that of its first declaration. -/
def declared? (path : String) (entries : List Declaration) (key : String) : Option Definition :=
  (entries.find? fun entry => entry.key path == key).map (·.definition path)

/-- The keys in the order of their first declarations. -/
def declaredKeys (path : String) (entries : List Declaration) : List String :=
  addNames [] (entries.map (·.key path))

/-- The calls of the declarations of one key. A single declaration without calls leaves nothing. -/
def joinCalls : List (List String) → Option (List String)
  | [] => none
  | [calls] => if calls.isEmpty then none else some calls
  | first :: second :: rest => some ((second :: rest).foldl addNames first)

/-- The calls under a key. -/
def declaredCalls? (path : String) (entries : List Declaration) (key : String) :
    Option (List String) :=
  joinCalls ((entries.filter fun entry => entry.key path == key).map (·.1.calls))

theorem declared?_append (path : String) (entries : List Declaration) (entry : Declaration)
    (key : String) :
    declared? path (entries ++ [entry]) key =
      (declared? path entries key).or
        (if entry.key path = key then some (entry.definition path) else none) := by
  unfold declared?
  rw [List.find?_append, List.find?_singleton]
  cases entries.find? fun entry => entry.key path == key with
  | none => by_cases same : entry.key path = key <;> simp [same]
  | some found => simp

theorem declared?_eq_none (path : String) (entries : List Declaration) (key : String) :
    declared? path entries key = none ↔ ∀ entry ∈ entries, ¬ entry.key path = key := by
  simp [declared?]

/-- The definition under a key is made by a declaration of that key. -/
theorem exists_of_declared? {path : String} {entries : List Declaration} {key : String}
    {definition : Definition} (found : declared? path entries key = some definition) :
    ∃ entry ∈ entries, entry.key path = key ∧ entry.definition path = definition := by
  unfold declared? at found
  obtain ⟨entry, first, made⟩ := Option.map_eq_some_iff.mp found
  refine ⟨entry, List.mem_of_find?_eq_some first, ?_, made⟩
  simpa using List.find?_some first

/-! ### Names in order -/

theorem addNames_append (names first second : List String) :
    addNames names (first ++ second) = addNames (addNames names first) second := by
  simp [addNames]

theorem mem_addNames (names more : List String) (name : String) :
    name ∈ addNames names more ↔ name ∈ names ∨ name ∈ more := by
  induction more generalizing names with
  | nil => simp [addNames]
  | cons first rest inductionHypothesis =>
      rw [addNames, List.foldl_cons, ← addNames, inductionHypothesis]
      by_cases known : first ∈ names
      · simp only [List.contains_iff_mem, known, if_true, List.mem_cons]
        grind
      · simp [known, or_assoc]

theorem mem_declaredKeys (path : String) (entries : List Declaration) (key : String) :
    key ∈ declaredKeys path entries ↔ ∃ entry ∈ entries, entry.key path = key := by
  simp [declaredKeys, mem_addNames]

theorem mem_declaredKeys_iff_isSome (path : String) (entries : List Declaration) (key : String) :
    key ∈ declaredKeys path entries ↔ (declared? path entries key).isSome := by
  rw [mem_declaredKeys, Option.isSome_iff_ne_none, ne_eq, declared?_eq_none]
  grind

theorem declaredKeys_append (path : String) (entries : List Declaration) (entry : Declaration) :
    declaredKeys path (entries ++ [entry]) =
      if (declared? path entries (entry.key path)).isSome then declaredKeys path entries
      else declaredKeys path entries ++ [entry.key path] := by
  have known := mem_declaredKeys_iff_isSome path entries (entry.key path)
  rw [declaredKeys, List.map_append, addNames_append, ← declaredKeys]
  simp [addNames, known]

/-! ### Calls -/

theorem joinCalls_append (lists : List (List String)) (calls : List String) :
    joinCalls (lists ++ [calls]) =
      if lists.isEmpty then (if calls.isEmpty then none else some calls)
      else some (addNames ((joinCalls lists).getD []) calls) := by
  match lists with
  | [] => rfl
  | [first] =>
      by_cases empty : first.isEmpty
      · simp [joinCalls, List.isEmpty_iff.mp empty]
      · simp [joinCalls, empty]
  | first :: second :: rest => simp [joinCalls]

theorem mem_joinCalls (lists : List (List String)) (name : String) :
    name ∈ (joinCalls lists).getD [] ↔ ∃ calls ∈ lists, name ∈ calls := by
  match lists with
  | [] => simp [joinCalls]
  | [first] =>
      by_cases empty : first.isEmpty
      · simp [joinCalls, List.isEmpty_iff.mp empty]
      · simp [joinCalls, empty]
  | first :: second :: rest =>
      have folded : ∀ (more : List (List String)) (known : List String),
          name ∈ more.foldl addNames known ↔ name ∈ known ∨ ∃ calls ∈ more, name ∈ calls := by
        intro more
        induction more with
        | nil => simp
        | cons head tail inductionHypothesis =>
            intro known
            rw [List.foldl_cons, inductionHypothesis, mem_addNames]
            simp [or_assoc]
      rw [joinCalls, Option.getD_some, folded]
      simp

theorem declaredCalls?_append (path : String) (entries : List Declaration) (entry : Declaration)
    (key : String) :
    declaredCalls? path (entries ++ [entry]) key =
      if ¬ entry.key path = key then declaredCalls? path entries key
      else if (declared? path entries key).isSome then
        some (addNames ((declaredCalls? path entries key).getD []) entry.1.calls)
      else if entry.1.calls.isEmpty then none
      else some entry.1.calls := by
  unfold declaredCalls?
  rw [List.filter_append, List.map_append]
  by_cases same : entry.key path = key
  · have known : ((entries.filter fun entry => entry.key path == key).map (·.1.calls)).isEmpty =
        !(declared? path entries key).isSome := by
      rw [Bool.eq_iff_iff]
      simp [declared?, List.find?_eq_none]
    simp only [same, List.filter_cons, beq_self_eq_true, if_true, List.filter_nil, List.map_cons,
      List.map_nil, joinCalls_append, known, not_true, if_false]
    cases (declared? path entries key).isSome <;> simp
  · simp [same]

theorem declaredCalls?_eq_none {path : String} {entries : List Declaration} {key : String}
    (absent : declared? path entries key = none) : declaredCalls? path entries key = none := by
  have nothing : entries.filter (fun entry => entry.key path == key) = [] := by
    simpa [List.filter_eq_nil_iff] using (declared?_eq_none path entries key).mp absent
  simp [declaredCalls?, nothing, joinCalls]

theorem ownerOf_of_mem_declaredKeys {path key : String} {entries : List Declaration}
    (plain : Plain path) (member : key ∈ declaredKeys path entries) : ownerOf key = path := by
  obtain ⟨entry, _, rfl⟩ := (mem_declaredKeys path entries key).mp member
  exact entry.ownerOf_key plain

/-- Every call that is written is recorded under a key, and no other is. -/
theorem exists_mem_declaredCalls? (path : String) (entries : List Declaration) (name : String) :
    (∃ key ∈ declaredKeys path entries, name ∈ (declaredCalls? path entries key).getD []) ↔
      ∃ entry ∈ entries, name ∈ entry.1.calls := by
  simp only [declaredCalls?, mem_joinCalls, mem_declaredKeys]
  constructor
  · rintro ⟨key, _, calls, made, member⟩
    obtain ⟨entry, kept, rfl⟩ := List.mem_map.mp made
    exact ⟨entry, (List.mem_filter.mp kept).1, member⟩
  · rintro ⟨entry, written, member⟩
    refine ⟨entry.key path, ⟨entry, written, rfl⟩, entry.1.calls, ?_, member⟩
    exact List.mem_map.mpr ⟨entry, by simpa using written, rfl⟩

end Graph

end CodeIndex
