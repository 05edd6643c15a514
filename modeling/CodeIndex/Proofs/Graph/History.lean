import CodeIndex.Proofs.Graph.Linked

/-!
Contract: a graph forgets its history.

Owns:
- `Graph.Change`, `Graph.run`: changes made to an empty graph, one after the other;
- `Graph.lastRecords`: the records that are there at the end;
- `Graph.run_forgets_history`: the graph depends on these records only;
- `Graph.mem_callees_run`: its edges are the calls of these records.
-/

set_option autoImplicit false

namespace CodeIndex.Graph

/-! ## Runs -/

/-- A change of a graph. -/
inductive Change where
  | update (record : Record)
  | remove (path : String)

namespace Change

def applyTo (graph : Graph) : Change → Graph
  | .update record => graph.update record
  | .remove path => graph.remove path

/-- The last record of each path, after a change. -/
def note (records : Std.ExtTreeMap String Record) : Change → Std.ExtTreeMap String Record
  | .update record => records.insert record.path record
  | .remove path => records.erase path

end Change

/-- Changes made to an empty graph. -/
def run (limit : Nat) (changes : List Change) : Graph :=
  changes.foldl Change.applyTo (Graph.empty limit)

/-- The last record of each path that is still there. -/
def lastRecords (changes : List Change) : Std.ExtTreeMap String Record :=
  changes.foldl Change.note ∅

/-- No path of a record that is put in has a mark in it. -/
def PlainChanges (changes : List Change) : Prop :=
  ∀ record, Change.update record ∈ changes → Plain record.path

theorem Presents.applyTo {graph : Graph} {records : Std.ExtTreeMap String Record}
    (presents : Presents graph (filesOf records)) (change : Change)
    (plain : ∀ record, change = .update record → Plain record.path) :
    Presents (change.applyTo graph) (filesOf (change.note records)) := by
  cases change with
  | update record =>
      rw [Change.note, filesOf_insert]
      exact presents.update (plain record rfl)
  | remove path =>
      rw [Change.note, filesOf_erase]
      exact presents.remove path

theorem Presents.foldl {graph : Graph} {records : Std.ExtTreeMap String Record}
    (presents : Presents graph (filesOf records)) (changes : List Change)
    (plain : PlainChanges changes) :
    Presents (changes.foldl Change.applyTo graph)
      (filesOf (changes.foldl Change.note records)) := by
  induction changes generalizing graph records with
  | nil => exact presents
  | cons change rest inductionHypothesis =>
      apply inductionHypothesis
      · apply presents.applyTo change
        intro record same
        exact plain record (by simp [same])
      · intro record member
        exact plain record (List.mem_cons_of_mem change member)

theorem presents_run (limit : Nat) {changes : List Change} (plain : PlainChanges changes) :
    Presents (run limit changes) (filesOf (lastRecords changes)) := by
  apply Presents.foldl _ changes plain
  rw [filesOf_empty]
  exact Presents.empty limit

theorem fallbackLimit_applyTo (graph : Graph) (change : Change) :
    (change.applyTo graph).fallbackLimit = graph.fallbackLimit := by
  cases change with
  | update record => exact fallbackLimit_update graph record
  | remove path => exact fallbackLimit_remove graph path

theorem fallbackLimit_run (limit : Nat) (changes : List Change) :
    (run limit changes).fallbackLimit = limit :=
  List.foldlRecOn (motive := fun graph => graph.fallbackLimit = limit) changes _ rfl
    fun graph kept change _ => (fallbackLimit_applyTo graph change).trans kept

/-- Two runs that leave the same files leave the same graph. -/
theorem run_eq_of_filesOf_eq (limit : Nat) {left right : List Change}
    (leftPlain : PlainChanges left) (rightPlain : PlainChanges right)
    (same : filesOf (lastRecords left) = filesOf (lastRecords right)) :
    run limit left = run limit right := by
  apply (presents_run limit leftPlain).unique (same ▸ presents_run limit rightPlain)
  rw [fallbackLimit_run, fallbackLimit_run]

/-! ## Records in any order -/

/-- The records that are there at the end, by path. -/
def presentRecords (changes : List Change) : List Record :=
  (lastRecords changes).toList.map (·.2)

/-- A record is kept under its own path. -/
theorem path_of_getElem?_lastRecords (changes : List Change) {path : String} {record : Record}
    (found : (lastRecords changes)[path]? = some record) : record.path = path := by
  have kept : ∀ (path : String) (record : Record),
      (lastRecords changes)[path]? = some record → record.path = path := by
    refine List.foldlRecOn (motive := fun records : Std.ExtTreeMap String Record =>
      ∀ (path : String) (record : Record), records[path]? = some record → record.path = path)
      changes _ ?_ ?_
    · intro path record found
      simp at found
    · intro records known change _ path record found
      cases change with
      | update newer =>
          rw [Change.note, Std.ExtTreeMap.getElem?_insert] at found
          split at found
          · next same => exact Option.some.inj found ▸ Std.LawfulEqCmp.eq_of_compare same
          · exact known path record found
      | remove gone =>
          rw [Change.note, Std.ExtTreeMap.getElem?_erase] at found
          split at found
          · exact absurd found (by simp)
          · exact known path record found
  exact kept path record found

theorem mem_presentRecords (changes : List Change) (record : Record) :
    record ∈ presentRecords changes ↔ (lastRecords changes)[record.path]? = some record := by
  unfold presentRecords
  constructor
  · intro member
    obtain ⟨⟨path, _⟩, listed, rfl⟩ := List.mem_map.mp member
    have found := Std.ExtTreeMap.mem_toList_iff_getElem?_eq_some.mp listed
    rwa [path_of_getElem?_lastRecords changes found]
  · intro found
    exact List.mem_map.mpr
      ⟨(record.path, record), Std.ExtTreeMap.mem_toList_iff_getElem?_eq_some.mpr found, rfl⟩

theorem nodup_paths_presentRecords (changes : List Change) :
    ((presentRecords changes).map (·.path)).Nodup := by
  have paths : (presentRecords changes).map (·.path) = (lastRecords changes).keys := by
    rw [← Std.ExtTreeMap.map_fst_toList_eq_keys, presentRecords, List.map_map]
    apply List.map_congr_left
    intro entry listed
    exact path_of_getElem?_lastRecords changes
      (Std.ExtTreeMap.mem_toList_iff_getElem?_eq_some.mp listed)
  rw [paths]
  exact Std.ExtTreeMap.nodup_keys

/-- Records put in one after the other are all there if their paths differ. -/
theorem getElem?_foldl_update (order : List Record) (records : Std.ExtTreeMap String Record)
    (distinct : (order.map (·.path)).Nodup) (path : String) :
    ((order.map Change.update).foldl Change.note records)[path]? =
      (order.find? (·.path == path)).or records[path]? := by
  induction order generalizing records with
  | nil => simp
  | cons first rest inductionHypothesis =>
      obtain ⟨notLater, distinctRest⟩ := List.nodup_cons.mp distinct
      rw [List.map_cons, List.foldl_cons, inductionHypothesis _ distinctRest]
      by_cases same : first.path = path
      · have absent : rest.find? (·.path == path) = none := by
          apply List.find?_eq_none.mpr
          intro record member equal
          apply notLater
          exact List.mem_map.mpr ⟨record, member, (beq_iff_eq.mp equal).trans same.symm⟩
        simp [absent, same, Change.note]
      · simp [same, Change.note, Std.ExtTreeMap.getElem?_insert]

theorem lastRecords_of_perm {changes : List Change} {order : List Record}
    (perm : order.Perm (presentRecords changes)) :
    lastRecords (order.map Change.update) = lastRecords changes := by
  have distinct : (order.map (·.path)).Nodup :=
    (perm.map _).nodup_iff.mpr (nodup_paths_presentRecords changes)
  apply Std.ExtTreeMap.ext_getElem?
  intro path
  have looked := getElem?_foldl_update order ∅ distinct path
  rw [Std.ExtTreeMap.getElem?_empty, Option.or_none] at looked
  rw [lastRecords, looked]
  cases found : (lastRecords changes)[path]? with
  | none =>
      apply List.find?_eq_none.mpr
      intro record member same
      have listed := (mem_presentRecords changes record).mp (perm.mem_iff.mp member)
      rw [beq_iff_eq.mp same, found] at listed
      exact absurd listed (by simp)
  | some record =>
      have home := path_of_getElem?_lastRecords changes found
      have listed : record ∈ order :=
        perm.mem_iff.mpr ((mem_presentRecords changes record).mpr (home ▸ found))
      have some : (order.find? (·.path == path)).isSome := by
        rw [List.find?_isSome]
        exact ⟨record, listed, beq_iff_eq.mpr home⟩
      obtain ⟨first, isFirst⟩ := Option.isSome_iff_exists.mp some
      have firstHome : first.path = path := by
        simpa only [beq_iff_eq] using List.find?_some isFirst
      have firstListed := (mem_presentRecords changes first).mp
        (perm.mem_iff.mp (List.mem_of_find?_eq_some isFirst))
      rw [firstHome, found] at firstListed
      rw [isFirst, firstListed]

theorem plain_of_mem_presentRecords {changes : List Change} (plain : PlainChanges changes)
    {record : Record} (member : record ∈ presentRecords changes) : Plain record.path := by
  apply (presents_run 0 plain).shows.plain
  rw [filesOf, (mem_presentRecords changes record).mp member]
  rfl

/-- Inserting the present records in any order gives the graph of the run. -/
theorem run_eq_of_perm (limit : Nat) {changes : List Change} (plain : PlainChanges changes)
    {order : List Record} (perm : order.Perm (presentRecords changes)) :
    run limit changes = order.foldl Graph.update (Graph.empty limit) := by
  have inserted : order.foldl Graph.update (Graph.empty limit) =
      run limit (order.map Change.update) := by
    rw [run, List.foldl_map]
    rfl
  rw [inserted]
  apply run_eq_of_filesOf_eq limit plain
  · intro record member
    obtain ⟨_, listed, same⟩ := List.mem_map.mp member
    injection same with same
    exact plain_of_mem_presentRecords plain (perm.mem_iff.mp (same ▸ listed))
  · rw [lastRecords_of_perm perm]

/-! ## One more change -/

theorem PlainChanges.append {first second : List Change} (firstPlain : PlainChanges first)
    (secondPlain : PlainChanges second) : PlainChanges (first ++ second) := by
  intro record member
  rcases List.mem_append.mp member with before | after
  · exact firstPlain record before
  · exact secondPlain record after

/-- Two ways to go on from a run that leave the same files leave the same graph. -/
theorem foldl_applyTo_run_eq (limit : Nat) {changes : List Change}
    (plain : PlainChanges changes) (left right : List Change) (leftPlain : PlainChanges left)
    (rightPlain : PlainChanges right)
    (same : filesOf (left.foldl Change.note (lastRecords changes)) =
      filesOf (right.foldl Change.note (lastRecords changes))) :
    left.foldl Change.applyTo (run limit changes) =
      right.foldl Change.applyTo (run limit changes) := by
  have joined := run_eq_of_filesOf_eq limit (plain.append leftPlain) (plain.append rightPlain)
    (by rwa [lastRecords, lastRecords, List.foldl_append, List.foldl_append])
  rwa [run, run, List.foldl_append, List.foldl_append] at joined

section OneMore

variable (limit : Nat) {changes : List Change} (plain : PlainChanges changes)

include plain

theorem update_comm_run {first second : Record} (firstPlain : Plain first.path)
    (secondPlain : Plain second.path) (different : ¬ first.path = second.path) :
    ((run limit changes).update first).update second =
      ((run limit changes).update second).update first := by
  have swapped := foldl_applyTo_run_eq limit plain [.update first, .update second]
    [.update second, .update first] (by simp [PlainChanges, firstPlain, secondPlain])
    (by simp [PlainChanges, firstPlain, secondPlain])
  simp only [List.foldl_cons, List.foldl_nil, Change.note, Change.applyTo, filesOf_insert]
    at swapped
  exact swapped (setFile_comm _ _ _ different)

theorem update_update_run {record : Record} (recordPlain : Plain record.path) :
    ((run limit changes).update record).update record = (run limit changes).update record := by
  have repeated := foldl_applyTo_run_eq limit plain [.update record, .update record]
    [.update record] (by simp [PlainChanges, recordPlain]) (by simp [PlainChanges, recordPlain])
  simp only [List.foldl_cons, List.foldl_nil, Change.note, Change.applyTo, filesOf_insert]
    at repeated
  exact repeated (setFile_setFile _ _ _ _)

theorem remove_update_run {record : Record} (recordPlain : Plain record.path) :
    ((run limit changes).update record).remove record.path =
      (run limit changes).remove record.path := by
  have undone := foldl_applyTo_run_eq limit plain [.update record, .remove record.path]
    [.remove record.path] (by simp [PlainChanges, recordPlain]) (by simp [PlainChanges])
  simp only [List.foldl_cons, List.foldl_nil, Change.note, Change.applyTo, filesOf_insert,
    filesOf_erase] at undone
  exact undone (setFile_setFile _ _ _ _)

theorem remove_run_of_absent {path : String} (absent : (lastRecords changes)[path]? = none) :
    (run limit changes).remove path = run limit changes := by
  have unchanged := foldl_applyTo_run_eq limit plain [.remove path] [] (by simp [PlainChanges])
    (by simp [PlainChanges])
  simp only [List.foldl_cons, List.foldl_nil, Change.note, Change.applyTo, filesOf_erase]
    at unchanged
  apply unchanged
  apply setFile_eq_self
  rw [filesOf, absent]
  rfl

end OneMore

/-! ## History is forgotten -/

/-- The graph after a run is the one that the last record of each path gives, put in in any order.
Changes of different files can therefore be swapped, a record that is put in again changes nothing,
and a file that is put in and taken out again leaves no trace. -/
theorem run_forgets_history (limit : Nat) (changes : List Change) (plain : PlainChanges changes) :
    (∀ order : List Record, order.Perm (presentRecords changes) →
      run limit changes = order.foldl Graph.update (Graph.empty limit)) ∧
    (∀ first second : Record, Plain first.path → Plain second.path → ¬ first.path = second.path →
      ((run limit changes).update first).update second =
        ((run limit changes).update second).update first) ∧
    (∀ record : Record, Plain record.path →
      ((run limit changes).update record).update record = (run limit changes).update record) ∧
    (∀ record : Record, Plain record.path →
      ((run limit changes).update record).remove record.path =
        (run limit changes).remove record.path) ∧
    (∀ record : Record, Plain record.path → (lastRecords changes)[record.path]? = none →
      ((run limit changes).update record).remove record.path = run limit changes) ∧
    ∀ others : List Change, PlainChanges others → lastRecords others = lastRecords changes →
      run limit others = run limit changes := by
  refine ⟨fun order perm => run_eq_of_perm limit plain perm, ?_, ?_, ?_, ?_, ?_⟩
  · intro first second firstPlain secondPlain different
    exact update_comm_run limit plain firstPlain secondPlain different
  · intro record recordPlain
    exact update_update_run limit plain recordPlain
  · intro record recordPlain
    exact remove_update_run limit plain recordPlain
  · intro record recordPlain absent
    rw [remove_update_run limit plain recordPlain, remove_run_of_absent limit plain absent]
  · intro others othersPlain same
    exact run_eq_of_filesOf_eq limit othersPlain plain (by rw [same])

/-- A file that imports another one and calls what it defines. -/
def sampleCaller : Record :=
  { path := "app.ts"
    fingerprint := "1"
    lastIndexed := 0
    imports := [{ source := "./lib", names := ["helper"], line := 1 }]
    symbols :=
      [{ name := "main", kind := .function, line := 2, endLine := 4, calls := ["helper", "log"] }] }

def sampleLibrary : Record :=
  { path := "lib.ts"
    fingerprint := "2"
    lastIndexed := 0
    symbols := [{ name := "helper", kind := .function, line := 1, endLine := 1 }] }

/-- A file with a definition of the same name, put in and taken out again. -/
def samplePasser : Record :=
  { path := "lib/index.ts"
    fingerprint := "3"
    lastIndexed := 0
    symbols :=
      [{ name := "helper", kind := .function, line := 1, endLine := 1 },
       { name := "log", kind := .function, line := 2, endLine := 2, calls := ["main"] }] }

def sampleChanges : List Change :=
  [.update sampleCaller, .update samplePasser, .update sampleLibrary, .remove samplePasser.path]

theorem plain_sampleChanges : PlainChanges sampleChanges := by
  intro record member
  simp only [sampleChanges, List.mem_cons, Change.update.injEq, reduceCtorEq, List.not_mem_nil,
    or_false] at member
  rcases member with rfl | rfl | rfl <;> decide

theorem sampleChanges_forgotten :
    PlainChanges sampleChanges ∧
      [sampleLibrary, sampleCaller].Perm (presentRecords sampleChanges) ∧
      run 3 sampleChanges =
        [sampleLibrary, sampleCaller].foldl Graph.update (Graph.empty 3) := by
  have order : [sampleLibrary, sampleCaller].Perm (presentRecords sampleChanges) :=
    List.Perm.swap sampleCaller sampleLibrary []
  exact ⟨plain_sampleChanges, order,
    (run_forgets_history 3 sampleChanges plain_sampleChanges).1 _ order⟩

/-! ## Edges are calls -/

/-- After every run, a definition leads to another one if and only if a name that it calls stands
for that one in its file. -/
theorem mem_callees_run (limit : Nat) (changes : List Change) (plain : PlainChanges changes)
    (caller callee : String) :
    (callee ∈ (run limit changes).callees.values caller ↔
      ∃ definition name, (run limit changes).definitions[caller]? = some definition ∧
        name ∈ (run limit changes).rawCalls.getD caller [] ∧
        (run limit changes).Target definition.path name callee) ∧
    (caller ∈ (run limit changes).callers.values callee ↔
      callee ∈ (run limit changes).callees.values caller) := by
  have presents := presents_run limit plain
  refine ⟨?_, presents.mirrored.agree caller callee⟩
  rw [presents.linked, mem_targets]
  constructor
  · rintro ⟨name, called, found⟩
    have mine := presents.shows.mem_keysIn_of_mem_rawCalls called
    obtain ⟨definition, defined, home⟩ := (presents.shows.mem_keysIn _ _).mp mine
    refine ⟨definition, name, defined, called, ?_⟩
    rw [home]
    exact (presents.shows.mem_resolveCall _ _ _).mp found
  · rintro ⟨definition, name, defined, called, target⟩
    refine ⟨name, called, (presents.shows.mem_resolveCall _ _ _).mpr ?_⟩
    rwa [← (presents.shows.definition_spec defined).1]

theorem sampleChanges_edge :
    PlainChanges sampleChanges ∧
      "lib.ts#helper" ∈ (run 3 sampleChanges).callees.values "app.ts#main" ∧
      ∃ definition name, (run 3 sampleChanges).definitions["app.ts#main"]? = some definition ∧
        name ∈ (run 3 sampleChanges).rawCalls.getD "app.ts#main" [] ∧
        (run 3 sampleChanges).Target definition.path name "lib.ts#helper" := by
  have edge : "lib.ts#helper" ∈ (run 3 sampleChanges).callees.values "app.ts#main" := by
    decide +kernel
  exact ⟨plain_sampleChanges, edge,
    (mem_callees_run 3 sampleChanges plain_sampleChanges _ _).1.mp edge⟩

def sampleOwner : Record :=
  { path := "m.ts"
    fingerprint := "1"
    lastIndexed := 0
    symbols :=
      [{ name := "A", kind := .classType, line := 1, endLine := 3
         methods := [{ name := "b", kind := .method, line := 2, endLine := 2 }] }] }

/-- A file that binds a name to a dotted one. -/
def sampleBorrower : Record :=
  { path := "p.ts"
    fingerprint := "2"
    lastIndexed := 0
    imports := [{ source := "./m", names := ["x"], line := 1, aliases := .ofList [("x", "A.b")] }]
    symbols := [{ name := "f", kind := .function, line := 2, endLine := 2, calls := ["x"] }] }

def dottedChanges : List Change :=
  [.update sampleOwner, .update sampleBorrower]

/-- An import can lead to a member: the exported name is looked up with its dot. The only name that
is called is no definition's own name, and the definition that it leads to has an owner. -/
theorem dotted_import_leads_to_member :
    PlainChanges dottedChanges ∧
      (run 3 dottedChanges).rawCalls.getD "p.ts#f" [] = ["x"] ∧
      (run 3 dottedChanges).nameCount "x" = 0 ∧
      "m.ts#A.b" ∈ (run 3 dottedChanges).callees.values "p.ts#f" ∧
      ∃ definition, (run 3 dottedChanges).definitions["m.ts#A.b"]? = some definition ∧
        definition.parent = some "A" := by
  refine ⟨?_, by decide +kernel, by decide +kernel, by decide +kernel, ?_⟩
  · intro record member
    simp only [dottedChanges, List.mem_cons, Change.update.injEq, List.not_mem_nil, or_false]
      at member
    rcases member with rfl | rfl <;> decide
  · have owned : ((run 3 dottedChanges).definitions["m.ts#A.b"]?).map (·.parent) =
        some (some "A") := by
      decide +kernel
    exact Option.map_eq_some_iff.mp owned

end CodeIndex.Graph
