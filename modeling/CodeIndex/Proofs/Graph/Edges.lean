import CodeIndex.Graph.Update
import CodeIndex.Proofs.Multimap

/-!
Contract: edges put in and taken out, whatever else the graph holds.

Owns:
- `Graph.bare`: the graph without its edges, which linking does not change;
- `Graph.Mirrored`: the two directions of the edges say the same;
- the edges after `linkFile`, `relinkFile` and `relinkFiles`.

What a call leads to is read off the bare graph. Links can therefore be made in any order: none of
them changes what another one leads to.
-/

set_option autoImplicit false

namespace CodeIndex.Graph

/-! ## The bare graph -/

/-- The graph without its edges. -/
def bare (graph : Graph) : Graph :=
  { graph with callees := ∅, callers := ∅ }

@[simp] theorem bare_addEdge (graph : Graph) (caller callee : String) :
    (graph.addEdge caller callee).bare = graph.bare := rfl

@[simp] theorem bare_unlinkOutgoing (graph : Graph) (caller : String) :
    (graph.unlinkOutgoing caller).bare = graph.bare := rfl

theorem targets_bare (graph : Graph) (path caller : String) :
    graph.bare.targets path caller = graph.targets path caller := rfl

theorem keysIn_bare (graph : Graph) (path : String) :
    graph.bare.keysIn path = graph.keysIn path := rfl

theorem targets_eq_of_bare {left right : Graph} (same : left.bare = right.bare)
    (path caller : String) : left.targets path caller = right.targets path caller := by
  rw [← targets_bare left, ← targets_bare right, same]

theorem keysIn_eq_of_bare {left right : Graph} (same : left.bare = right.bare) (path : String) :
    left.keysIn path = right.keysIn path := by
  rw [← keysIn_bare left, ← keysIn_bare right, same]

/-! ## Both directions -/

/-- The two directions of the edges say the same, and no empty set is kept. -/
structure Mirrored (graph : Graph) : Prop where
  agree : ∀ caller callee,
    caller ∈ graph.callers.values callee ↔ callee ∈ graph.callees.values caller
  calleesTidy : graph.callees.Tidy
  callersTidy : graph.callers.Tidy

theorem Mirrored.addEdge {graph : Graph} (mirrored : graph.Mirrored) (caller callee : String) :
    (graph.addEdge caller callee).Mirrored where
  agree := by
    intro from' to'
    simp only [Graph.addEdge, Multimap.mem_values_add, mirrored.agree]
    grind
  calleesTidy := mirrored.calleesTidy.add caller callee
  callersTidy := mirrored.callersTidy.add callee caller

theorem mem_callees_unlinkOutgoing (graph : Graph) (gone caller callee : String) :
    callee ∈ (graph.unlinkOutgoing gone).callees.values caller ↔
      ¬ gone = caller ∧ callee ∈ graph.callees.values caller :=
  Multimap.mem_values_erase graph.callees gone caller callee

theorem Mirrored.unlinkOutgoing {graph : Graph} (mirrored : graph.Mirrored) (gone : String) :
    (graph.unlinkOutgoing gone).Mirrored where
  agree := by
    intro caller callee
    rw [mem_callees_unlinkOutgoing, ← mirrored.agree]
    simp only [Graph.unlinkOutgoing, Multimap.mem_values_foldl_drop, Std.ExtTreeSet.mem_toList,
      ← mirrored.agree]
    grind
  calleesTidy := mirrored.calleesTidy.erase gone
  callersTidy := mirrored.callersTidy.foldl_drop gone _

theorem mem_callees_unlinkIncoming {graph : Graph} (mirrored : graph.Mirrored)
    (gone caller callee : String) :
    callee ∈ (graph.unlinkIncoming gone).callees.values caller ↔
      ¬ gone = callee ∧ callee ∈ graph.callees.values caller := by
  simp only [Graph.unlinkIncoming, Multimap.mem_values_foldl_drop, Std.ExtTreeSet.mem_toList,
    mirrored.agree]
  grind

theorem Mirrored.unlinkIncoming {graph : Graph} (mirrored : graph.Mirrored) (gone : String) :
    (graph.unlinkIncoming gone).Mirrored where
  agree := by
    intro caller callee
    rw [mem_callees_unlinkIncoming mirrored, ← mirrored.agree]
    exact Multimap.mem_values_erase graph.callers gone callee caller
  calleesTidy := mirrored.calleesTidy.foldl_drop gone _
  callersTidy := mirrored.callersTidy.erase gone

/-! ## Links -/

theorem bare_foldl_addEdge (caller : String) (found : List String) (graph : Graph) :
    (found.foldl (fun linked callee => linked.addEdge caller callee) graph).bare =
      graph.bare := by
  induction found generalizing graph with
  | nil => rfl
  | cons callee rest inductionHypothesis =>
      rw [List.foldl_cons, inductionHypothesis, bare_addEdge]

theorem mem_callees_foldl_addEdge (caller : String) (found : List String) (graph : Graph)
    (other callee : String) :
    callee ∈ (found.foldl (fun linked callee => linked.addEdge caller callee) graph).callees.values
        other ↔
      (caller = other ∧ callee ∈ found) ∨ callee ∈ graph.callees.values other := by
  induction found generalizing graph with
  | nil => simp
  | cons first rest inductionHypothesis =>
      rw [List.foldl_cons, inductionHypothesis]
      simp only [addEdge, Multimap.mem_values_add, List.mem_cons]
      grind

theorem Mirrored.linkCaller {graph : Graph} (mirrored : graph.Mirrored) (path caller : String) :
    (Graph.linkCaller path graph caller).Mirrored :=
  List.foldlRecOn (motive := Mirrored) (graph.targets path caller) _ mirrored
    fun _ linked callee _ => linked.addEdge caller callee

theorem bare_linkCaller (path : String) (graph : Graph) (caller : String) :
    (linkCaller path graph caller).bare = graph.bare :=
  bare_foldl_addEdge caller _ graph

theorem mem_callees_linkCaller (path : String) (graph : Graph) (caller other callee : String) :
    callee ∈ (linkCaller path graph caller).callees.values other ↔
      (caller = other ∧ callee ∈ graph.targets path other) ∨
        callee ∈ graph.callees.values other := by
  rw [linkCaller, mem_callees_foldl_addEdge]
  grind

theorem bare_foldl_linkCaller (path : String) (callers : List String) (graph : Graph) :
    (callers.foldl (linkCaller path) graph).bare = graph.bare := by
  induction callers generalizing graph with
  | nil => rfl
  | cons caller rest inductionHypothesis =>
      rw [List.foldl_cons, inductionHypothesis, bare_linkCaller]

theorem mem_callees_foldl_linkCaller (path : String) (callers : List String) (graph : Graph)
    (caller callee : String) :
    callee ∈ (callers.foldl (linkCaller path) graph).callees.values caller ↔
      (caller ∈ callers ∧ callee ∈ graph.targets path caller) ∨
        callee ∈ graph.callees.values caller := by
  induction callers generalizing graph with
  | nil => simp
  | cons first rest inductionHypothesis =>
      rw [List.foldl_cons, inductionHypothesis, mem_callees_linkCaller,
        targets_eq_of_bare (bare_linkCaller path graph first), List.mem_cons]
      grind

@[simp] theorem bare_linkFile (graph : Graph) (path : String) :
    (graph.linkFile path).bare = graph.bare :=
  bare_foldl_linkCaller path _ graph

theorem mem_callees_linkFile (graph : Graph) (path caller callee : String) :
    callee ∈ (graph.linkFile path).callees.values caller ↔
      (caller ∈ graph.keysIn path ∧ callee ∈ graph.targets path caller) ∨
        callee ∈ graph.callees.values caller :=
  mem_callees_foldl_linkCaller path _ graph caller callee

theorem Mirrored.linkFile {graph : Graph} (mirrored : graph.Mirrored) (path : String) :
    (graph.linkFile path).Mirrored :=
  List.foldlRecOn (motive := Mirrored) (graph.keysIn path) _ mirrored
    fun _ linked caller _ => linked.linkCaller path caller

/-! ## Links made anew -/

theorem bare_foldl_unlinkOutgoing (callers : List String) (graph : Graph) :
    (callers.foldl unlinkOutgoing graph).bare = graph.bare := by
  induction callers generalizing graph with
  | nil => rfl
  | cons caller rest inductionHypothesis =>
      rw [List.foldl_cons, inductionHypothesis, bare_unlinkOutgoing]

theorem mem_callees_foldl_unlinkOutgoing (callers : List String) (graph : Graph)
    (caller callee : String) :
    callee ∈ (callers.foldl unlinkOutgoing graph).callees.values caller ↔
      ¬ caller ∈ callers ∧ callee ∈ graph.callees.values caller := by
  induction callers generalizing graph with
  | nil => simp
  | cons first rest inductionHypothesis =>
      rw [List.foldl_cons, inductionHypothesis, mem_callees_unlinkOutgoing, List.mem_cons]
      grind

theorem Mirrored.relinkFile {graph : Graph} (mirrored : graph.Mirrored) (path : String) :
    (graph.relinkFile path).Mirrored := by
  have unlinked : ((graph.keysIn path).foldl Graph.unlinkOutgoing graph).Mirrored :=
    List.foldlRecOn (motive := Mirrored) (graph.keysIn path) _ mirrored
      fun _ kept caller _ => kept.unlinkOutgoing caller
  exact unlinked.linkFile path

@[simp] theorem bare_relinkFile (graph : Graph) (path : String) :
    (graph.relinkFile path).bare = graph.bare := by
  rw [relinkFile, bare_linkFile, bare_foldl_unlinkOutgoing]

/-- A file that is linked anew has the edges that its calls lead to now; the edges from other files
stay. -/
theorem mem_callees_relinkFile (graph : Graph) (path caller callee : String) :
    callee ∈ (graph.relinkFile path).callees.values caller ↔
      if caller ∈ graph.keysIn path then callee ∈ graph.targets path caller
      else callee ∈ graph.callees.values caller := by
  have same := bare_foldl_unlinkOutgoing (graph.keysIn path) graph
  rw [relinkFile, mem_callees_linkFile, mem_callees_foldl_unlinkOutgoing,
    keysIn_eq_of_bare same, targets_eq_of_bare same]
  by_cases mine : caller ∈ graph.keysIn path <;> simp [mine]

@[simp] theorem bare_relinkFiles (graph : Graph) (paths : List String) :
    (graph.relinkFiles paths).bare = graph.bare := by
  induction paths generalizing graph with
  | nil => rfl
  | cons path rest inductionHypothesis =>
      rw [relinkFiles, List.foldl_cons, ← relinkFiles, inductionHypothesis, bare_relinkFile]

theorem Mirrored.relinkFiles {graph : Graph} (mirrored : graph.Mirrored) (paths : List String) :
    (graph.relinkFiles paths).Mirrored :=
  List.foldlRecOn (motive := Mirrored) paths _ mirrored
    fun _ linked path _ => linked.relinkFile path

/-- The same for several files: a key that is no file's keeps its edges. -/
theorem mem_callees_relinkFiles_of_not_mem (graph : Graph) (paths : List String)
    (caller callee : String) (foreign : ∀ path ∈ paths, ¬ caller ∈ graph.keysIn path) :
    callee ∈ (graph.relinkFiles paths).callees.values caller ↔
      callee ∈ graph.callees.values caller := by
  induction paths generalizing graph with
  | nil => rfl
  | cons path rest inductionHypothesis =>
      have same := bare_relinkFile graph path
      rw [relinkFiles, List.foldl_cons, ← relinkFiles, inductionHypothesis,
        mem_callees_relinkFile, if_neg (foreign path (by simp))]
      intro other member
      rw [keysIn_eq_of_bare same]
      exact foreign other (by simp [member])

/-- A key of one of the files has the edges that its calls lead to now, if it is a key of no other
file. -/
theorem mem_callees_relinkFiles_of_mem (graph : Graph) (paths : List String)
    (path caller callee : String) (member : path ∈ paths) (mine : caller ∈ graph.keysIn path)
    (only : ∀ other, caller ∈ graph.keysIn other → other = path) :
    callee ∈ (graph.relinkFiles paths).callees.values caller ↔
      callee ∈ graph.targets path caller := by
  induction paths generalizing graph with
  | nil => simp at member
  | cons first rest inductionHypothesis =>
      have same := bare_relinkFile graph first
      rw [relinkFiles, List.foldl_cons, ← relinkFiles]
      by_cases later : path ∈ rest
      · rw [inductionHypothesis _ later (keysIn_eq_of_bare same path ▸ mine)
          (fun other key => only other (keysIn_eq_of_bare same other ▸ key)),
          targets_eq_of_bare same]
      · have here : path = first := by simpa [later] using member
        subst here
        rw [mem_callees_relinkFiles_of_not_mem, mem_callees_relinkFile, if_pos mine]
        intro other inRest key
        rw [keysIn_eq_of_bare same] at key
        exact later (only other key ▸ inRest)

end CodeIndex.Graph
