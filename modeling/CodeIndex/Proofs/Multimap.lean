import CodeIndex.Multimap

/-!
Contract: multimaps as relations between names.

Owns:
- `mem_mapValues`: the values of a map, by the names that lead to them;
- what each operation does to the pairs of a multimap;
- `Multimap.Tidy`: no name is kept with an empty set;
- `Multimap.ext_of_tidy`: a tidy multimap is its pairs.

Two tidy multimaps with the same pairs are equal, so statements about whole multimaps come down to
statements about pairs. A set that stays behind empty would break this: it is no pair, but it makes
the maps different.
-/

set_option autoImplicit false

namespace CodeIndex

theorem mapValues_eq {Value : Type} (map : Std.ExtTreeMap String Value) :
    map.values = map.toList.map (·.2) := by
  obtain ⟨⟨inner⟩⟩ := map
  induction inner using Quotient.inductionOn with
  | h tree =>
      show tree.inner.values =
        (Std.DTreeMap.Internal.Impl.Const.toList tree.inner).map (·.2)
      rw [Std.DTreeMap.Internal.Impl.values_eq_map_snd,
        Std.DTreeMap.Internal.Impl.Const.toList_eq_toListModel_map]
      simp

/-- The values of a map are those that a name leads to. -/
theorem mem_mapValues {Value : Type} (map : Std.ExtTreeMap String Value) (value : Value) :
    value ∈ map.values ↔ ∃ key : String, map[key]? = some value := by
  rw [mapValues_eq, List.mem_map]
  constructor
  · intro found
    obtain ⟨⟨key, _⟩, member, rfl⟩ := found
    exact ⟨key, Std.ExtTreeMap.mem_toList_iff_getElem?_eq_some.mp member⟩
  · intro found
    obtain ⟨key, looked⟩ := found
    exact ⟨(key, value), Std.ExtTreeMap.mem_toList_iff_getElem?_eq_some.mpr looked, rfl⟩

namespace Multimap

/-! ## Pairs -/

theorem values_eq (map : Multimap) (key : String) : map.values key = (map[key]?).getD ∅ :=
  Std.ExtTreeMap.getD_eq_getD_getElem?

theorem mem_values_iff (map : Multimap) (key value : String) :
    value ∈ map.values key ↔ ∃ set, map[key]? = some set ∧ value ∈ set := by
  rw [values_eq]
  cases found : map[key]? with
  | none => simp
  | some set => simp

@[simp] theorem not_mem_values_empty (key value : String) :
    ¬ value ∈ values (∅ : Multimap) key := by
  simp [mem_values_iff]

@[simp] theorem mem_values_add (map : Multimap) (key value other wanted : String) :
    wanted ∈ (map.add key value).values other ↔
      (key = other ∧ value = wanted) ∨ wanted ∈ map.values other := by
  rw [values_eq, add, Std.ExtTreeMap.getElem?_insert]
  by_cases same : key = other
  · subst same
    simp [Std.ExtTreeSet.mem_insert]
  · simp [same, values_eq]

@[simp] theorem mem_values_erase (map : Multimap) (key other wanted : String) :
    wanted ∈ values (map.erase key) other ↔ ¬ key = other ∧ wanted ∈ map.values other := by
  rw [values_eq, Std.ExtTreeMap.getElem?_erase]
  by_cases same : key = other
  · simp [same]
  · simp [same, values_eq]

@[simp] theorem mem_values_drop (map : Multimap) (key value other wanted : String) :
    wanted ∈ (map.drop key value).values other ↔
      ¬ (key = other ∧ value = wanted) ∧ wanted ∈ map.values other := by
  unfold drop
  cases found : map[key]? with
  | none =>
      by_cases same : key = other
      · subst same
        simp [values_eq, found]
      · simp [same]
  | some set =>
      by_cases last : (set.erase value).isEmpty
      · -- The last name goes with its key, so nothing but that name was under the key.
        have only : ∀ name, name ∈ set → value = name := by
          intro name member
          have gone : ¬ name ∈ set.erase value := by
            rw [Std.ExtTreeSet.isEmpty_iff.mp last]
            exact Std.ExtTreeSet.not_mem_empty
          simpa [member] using gone
        simp only [last, if_true, mem_values_erase]
        by_cases same : key = other
        · subst same
          simpa [values_eq, found] using fun different member => different (only wanted member)
        · simp [same]
      · simp only [last, if_false, Bool.false_eq_true, values_eq, Std.ExtTreeMap.getElem?_insert]
        by_cases same : key = other
        · subst same
          simp [found]
        · simp [same]

/-! ### Several pairs -/

theorem mem_values_foldl_add (value : String) (keys : List String) (map : Multimap)
    (other wanted : String) :
    wanted ∈ values (keys.foldl (fun known key => known.add key value) map) other ↔
      (other ∈ keys ∧ value = wanted) ∨ wanted ∈ map.values other := by
  induction keys generalizing map with
  | nil => simp
  | cons key rest inductionHypothesis =>
      rw [List.foldl_cons, inductionHypothesis, mem_values_add, List.mem_cons]
      grind

theorem mem_values_foldl_drop (value : String) (keys : List String) (map : Multimap)
    (other wanted : String) :
    wanted ∈ values (keys.foldl (fun known key => known.drop key value) map) other ↔
      ¬ (other ∈ keys ∧ value = wanted) ∧ wanted ∈ map.values other := by
  induction keys generalizing map with
  | nil => simp
  | cons key rest inductionHypothesis =>
      rw [List.foldl_cons, inductionHypothesis, mem_values_drop, List.mem_cons]
      grind

@[simp] theorem mem_collect (map : Multimap) (keys : List String) (value : String) :
    value ∈ map.collect keys ↔ ∃ key ∈ keys, value ∈ map.values key := by
  simp [collect, Std.ExtTreeSet.mem_ofList]

/-! ## Tidiness -/

/-- No name is kept with an empty set. -/
def Tidy (map : Multimap) : Prop :=
  ∀ (key : String) (set : Std.ExtTreeSet String), map[key]? = some set → ∃ value, value ∈ set

theorem tidy_empty : Tidy ∅ := by
  intro key set found
  simp at found

theorem Tidy.add {map : Multimap} (tidy : map.Tidy) (key value : String) :
    (map.add key value).Tidy := by
  intro other set found
  rw [Multimap.add, Std.ExtTreeMap.getElem?_insert] at found
  by_cases same : key = other
  · simp only [same, Std.ReflCmp.compare_self, if_true, Option.some.injEq] at found
    exact ⟨value, by simp [← found]⟩
  · exact tidy other set (by simpa [same] using found)

theorem Tidy.erase {map : Multimap} (tidy : map.Tidy) (key : String) :
    Tidy (Std.ExtTreeMap.erase map key) := by
  intro other set found
  rw [Std.ExtTreeMap.getElem?_erase] at found
  by_cases same : key = other
  · simp [same] at found
  · exact tidy other set (by simpa [same] using found)

theorem Tidy.drop {map : Multimap} (tidy : map.Tidy) (key value : String) :
    (map.drop key value).Tidy := by
  unfold Multimap.drop
  cases found : map[key]? with
  | none => exact tidy
  | some set =>
      by_cases last : (set.erase value).isEmpty
      · simpa [last] using tidy.erase key
      · intro other kept keptFound
        simp only [last, if_false, Bool.false_eq_true, Std.ExtTreeMap.getElem?_insert] at keptFound
        by_cases same : key = other
        · have equal : set.erase value = kept := by
            simpa [same] using keptFound
          have nonempty : ¬ kept = ∅ := by
            rw [← equal, ← Std.ExtTreeSet.isEmpty_iff]
            exact last
          simpa [Std.ExtTreeSet.eq_empty_iff_forall_not_mem] using nonempty
        · exact tidy other kept (by simpa [same] using keptFound)

theorem Tidy.foldl_add {map : Multimap} (tidy : map.Tidy) (value : String) (keys : List String) :
    Tidy (keys.foldl (fun known key => known.add key value) map) :=
  List.foldlRecOn keys _ tidy fun _ known key _ => known.add key value

theorem Tidy.foldl_drop {map : Multimap} (tidy : map.Tidy) (value : String)
    (keys : List String) :
    Tidy (keys.foldl (fun known key => known.drop key value) map) :=
  List.foldlRecOn keys _ tidy fun _ known key _ => known.drop key value

/-- A tidy multimap is its pairs. -/
theorem ext_of_tidy {left right : Multimap} (leftTidy : left.Tidy) (rightTidy : right.Tidy)
    (same : ∀ key value, value ∈ left.values key ↔ value ∈ right.values key) :
    left = right := by
  apply Std.ExtTreeMap.ext_getElem?
  intro key
  have sets : left.values key = right.values key := Std.ExtTreeSet.ext_mem (same key)
  rw [values_eq, values_eq] at sets
  cases leftFound : left[key]? with
  | none =>
      cases rightFound : right[key]? with
      | none => rfl
      | some set =>
          obtain ⟨value, member⟩ := rightTidy key set rightFound
          simp [leftFound, rightFound] at sets
          simp [sets] at member
  | some set =>
      cases rightFound : right[key]? with
      | none =>
          obtain ⟨value, member⟩ := leftTidy key set leftFound
          simp [leftFound, rightFound] at sets
          simp [sets] at member
      | some other => simpa [leftFound, rightFound] using sets

end Multimap

end CodeIndex
