import CodeIndex.Graph.Query
import CodeIndex.Proofs.Graph.Integrity
import CodeIndex.Proofs.Ordered

/-!
Contract: a search for part of a name is a ranking that depends on the definitions only.

Owns:
- `Graph.byRank`: exported definitions first, then exact matches, then by name and by key;
- `Graph.Matches`: the name of a definition contains a text, whatever the case;
- `Graph.Consistent.pairwise_ranked`, `Graph.Consistent.ranked_eq`: definitions are ranked strictly,
  and always in the same way, whatever the order in which they are gone through;
- `Graph.symbol_search_ranked`: what this says about every graph, whatever the order in which its
  definitions are gone through.

Two definitions with the same key would be alike in this order. A graph keeps every definition under
its own key, so there are no such two.
-/

set_option autoImplicit false

namespace CodeIndex

/-! ## Texts in lower case -/

namespace Text

theorem lowerCharacter_ne_nil (character : Char) : ¬ lowerCharacter character = [] := by
  unfold lowerCharacter
  dsimp only
  split
  · simp
  · split
    · simp
    · split <;> simp

/-- A text in lower case is empty just if the text is. -/
theorem toLower_eq_empty (text : String) : toLower text = "" ↔ text = "" := by
  have lowered : ∀ characters : List Char, lowerFrom [] characters = [] ↔ characters = [] := by
    intro characters
    cases characters with
    | nil => simp [lowerFrom]
    | cons first rest =>
        simp only [lowerFrom]
        split <;> simp [lowerCharacter_ne_nil]
  rw [← String.toList_inj, toLower, String.toList_ofList, String.toList_empty, lowered,
    ← String.toList_inj, String.toList_empty]

end Text

namespace Graph

/-- Characters occur in a row. -/
theorem occursIn_iff (needle characters : List Char) :
    occursIn needle characters = true ↔ needle <:+: characters := by
  induction characters with
  | nil => simp [occursIn]
  | cons first rest inductionHypothesis =>
      rw [occursIn, Bool.or_eq_true, inductionHypothesis, List.infix_cons_iff,
        List.isPrefixOf_iff_prefix]

/-! ## Order of matches -/

/-- Exported definitions come first, then those whose name is just the text, whatever the case, then
by name and by key. -/
def byRank (needle : String) : Definition → Definition → Ordering :=
  compareLex (compareOn fun definition => !definition.exported) <|
    compareLex (compareOn fun definition => !decide (Text.toLower definition.name = needle)) <|
      compareLex (compareOn fun definition => definition.name)
        (compareOn fun definition => definition.key)

instance (needle : String) : Std.TransCmp (byRank needle) :=
  inferInstanceAs (Std.TransCmp (compareLex _ _))

theorem matchLe_eq (needle : String) :
    matchLe needle = fun left right => (byRank needle left right).isLE := by
  have decided : ∀ left right : Bool, ¬ left = right → (compare (!left) (!right)).isLE = left := by
    decide
  funext left right
  simp only [matchLe, byRank, compareLex, compareOn, Ordered.isLE_compare_then,
    Ordered.isLE_compare_text, Bool.not_inj_iff, ne_eq, ite_not]
  split
  · split
    · rfl
    · next different => exact (decided _ _ different).symm
  · next different => exact (decided _ _ different).symm

/-- Definitions that are alike in this order have the same key. -/
theorem key_eq_of_byRank {needle : String} {left right : Definition}
    (alike : byRank needle left right = .eq) : left.key = right.key := by
  simp only [byRank, compareLex, compareOn, Ordering.then_eq_eq] at alike
  exact Std.LawfulEqOrd.eq_of_compare alike.2.2.2

/-! ## What is found -/

/-- The name of a definition of the graph contains a text that is not blank, whatever the case. -/
def Matches (graph : Graph) (query : String) (definition : Definition) : Prop :=
  ¬ Text.trim query = "" ∧ (∃ key : String, graph.definitions[key]? = some definition) ∧
    (Text.toLower (Text.trim query)).toList <:+: (Text.toLower definition.name).toList

/-- Definitions in a given order, filtered and sorted as the search does it. -/
def ranked (query : String) (definitions : List Definition) : List Definition :=
  let needle := Text.toLower (Text.trim query)
  (definitions.filter fun definition =>
    occursIn needle.toList (Text.toLower definition.name).toList).mergeSort (matchLe needle)

theorem mem_ranked (query : String) (definitions : List Definition) (definition : Definition) :
    definition ∈ ranked query definitions ↔ definition ∈ definitions ∧
      (Text.toLower (Text.trim query)).toList <:+: (Text.toLower definition.name).toList := by
  rw [ranked, List.mem_mergeSort, List.mem_filter, occursIn_iff]

theorem matching_eq (graph : Graph) (query : String) :
    graph.matching query =
      if Text.trim query = "" then [] else ranked query graph.definitions.values := by
  have blank := Text.toLower_eq_empty (Text.trim query)
  unfold matching
  simp only [String.isEmpty_iff, blank]
  rfl

theorem mem_matching (graph : Graph) (query : String) (definition : Definition) :
    definition ∈ graph.matching query ↔ graph.Matches query definition := by
  rw [matching_eq, Matches, ← mem_mapValues]
  split
  · next blank => simp [blank]
  · next something => simp [something, mem_ranked]

namespace Consistent

variable {graph : Graph}

/-- No definition is there twice. -/
theorem nodup_definitions (consistent : graph.Consistent) : graph.definitions.values.Nodup := by
  have keys : graph.definitions.values.map (·.key) = graph.definitions.keys := by
    rw [mapValues_eq, ← Std.ExtTreeMap.map_fst_toList_eq_keys, List.map_map]
    apply List.map_congr_left
    intro entry listed
    exact consistent.key entry.1 entry.2 (Std.ExtTreeMap.mem_toList_iff_getElem?_eq_some.mp listed)
  have distinct : (graph.definitions.values.map (·.key)).Nodup := by
    rw [keys]
    exact Std.ExtTreeMap.nodup_keys
  exact List.Pairwise.of_map (·.key) (fun _ _ different same => different (by rw [same])) distinct

theorem eq_of_key (consistent : graph.Consistent) {left right : Definition}
    (leftIn : left ∈ graph.definitions.values) (rightIn : right ∈ graph.definitions.values)
    (same : left.key = right.key) : left = right := by
  obtain ⟨leftKey, leftFound⟩ := (mem_mapValues _ _).mp leftIn
  obtain ⟨rightKey, rightFound⟩ := (mem_mapValues _ _).mp rightIn
  rw [← consistent.key leftKey left leftFound, same,
    consistent.key rightKey right rightFound, rightFound] at leftFound
  exact (Option.some.inj leftFound).symm

/-- Definitions in any order are ranked strictly. -/
theorem pairwise_ranked (consistent : graph.Consistent) (query : String)
    {order : List Definition} (listed : order.Perm graph.definitions.values) :
    (ranked query order).Pairwise fun left right =>
      byRank (Text.toLower (Text.trim query)) left right = .lt := by
  have inGraph : ∀ definition ∈ ranked query order, definition ∈ graph.definitions.values :=
    fun definition found => listed.mem_iff.mp ((mem_ranked query order definition).mp found).1
  refine Ordered.pairwise_lt ?_ ?_ ?_
  · rw [ranked, matchLe_eq]
    exact Ordered.pairwise_mergeSort _
  · have distinct := listed.nodup_iff.mpr consistent.nodup_definitions
    exact (List.mergeSort_perm _ _).nodup_iff.mpr (distinct.filter _)
  · intro left leftIn right rightIn alike
    exact consistent.eq_of_key (inGraph left leftIn) (inGraph right rightIn)
      (key_eq_of_byRank alike)

/-- The order in which the definitions are gone through makes no difference. -/
theorem ranked_eq (consistent : graph.Consistent) (query : String) {order : List Definition}
    (listed : order.Perm graph.definitions.values) :
    ranked query order = ranked query graph.definitions.values := by
  apply Ordered.eq_of_pairwise_lt (consistent.pairwise_ranked query listed)
    (consistent.pairwise_ranked query (List.Perm.refl _))
  intro definition
  rw [mem_ranked, mem_ranked, listed.mem_iff]

/-- What is found ascends strictly. -/
theorem pairwise_matching (consistent : graph.Consistent) (query : String) :
    (graph.matching query).Pairwise fun left right =>
      byRank (Text.toLower (Text.trim query)) left right = .lt := by
  rw [matching_eq]
  split
  · exact List.Pairwise.nil
  · exact consistent.pairwise_ranked query (List.Perm.refl _)

end Consistent

/-- In every graph, a search finds just the definitions whose name contains the text, each once, and
nothing for a blank one. They ascend strictly in the order of ranks, so there is one such list only,
and it is found in whatever order the definitions are gone through. A search with a limit gives the
beginning of this list. -/
theorem symbol_search_ranked (limit : Nat) (changes : List Change) (query : String) :
    let graph := run limit changes
    let needle := Text.toLower (Text.trim query)
    ∃ ranking : List Definition,
      (∀ definition, definition ∈ ranking ↔ graph.Matches query definition) ∧
      ranking.Nodup ∧
      ranking.Pairwise (fun left right => byRank needle left right = .lt) ∧
      (∀ other : List Definition,
        (∀ definition, definition ∈ other ↔ graph.Matches query definition) →
        other.Pairwise (fun left right => byRank needle left right = .lt) → other = ranking) ∧
      (∀ order : List Definition, order.Perm graph.definitions.values →
        ranking = if Text.trim query = "" then [] else
          (order.filter fun definition =>
            occursIn needle.toList (Text.toLower definition.name).toList).mergeSort
              (matchLe needle)) ∧
      (∀ count, graph.searchSymbols query count = ranking.take count) ∧
      ∀ fewer more, fewer ≤ more →
        graph.searchSymbols query fewer <+: graph.searchSymbols query more := by
  intro graph needle
  have consistent : graph.Consistent := (Intact.run limit changes).consistent
  have members := mem_matching graph query
  have ascends := consistent.pairwise_matching query
  refine ⟨graph.matching query, members, Ordered.nodup_of_pairwise_lt ascends, ascends, ?_, ?_,
    fun _ => rfl, fun _ _ => List.take_prefix_take_left⟩
  · intro other otherMembers otherAscends
    exact Ordered.eq_of_pairwise_lt otherAscends ascends
      fun definition => (otherMembers definition).trans (members definition).symm
  · intro order listed
    rw [matching_eq]
    split
    · rfl
    · exact (consistent.ranked_eq query listed).symm

end Graph

end CodeIndex
