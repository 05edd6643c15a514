import Std.Data.ExtTreeMap

/-!
Contract: lists in the order of a comparison, or of first occurrences.

Owns:
- `Ordered.pairwise_mergeSort`: sorting by a comparison;
- `Ordered.pairwise_lt`, `Ordered.pairwise_lt_eraseReps`: a sorted list in which no two items are
  alike, and one that is rid of equal neighbours, ascend strictly;
- `Ordered.eq_of_pairwise_lt`: a list that ascends strictly is determined by its members;
- `Ordered.isLE_compare_then`, `Ordered.isLE_compare`, `Ordered.isLE_compare_text`: how a comparison
  reads as a test;
- `Ordered.foldl_addNew`: items that are added at the end, each only once, are in the order of their
  first occurrences.

Which order the items came in, and how often, can therefore not be seen from a strictly ascending
list.
-/

set_option autoImplicit false

namespace CodeIndex.Ordered

/-! ## Comparisons as tests -/

/-- A comparison decides unless both sides are equal. -/
theorem isLE_compare_then {α : Type} [Ord α] [Std.LawfulEqOrd α] [DecidableEq α] (left right : α)
    (rest : Ordering) :
    ((compare left right).then rest).isLE =
      if left = right then rest.isLE else (compare left right).isLE := by
  split
  · next same =>
      have equal : compare left right = .eq := by rw [same]; exact Std.ReflOrd.compare_self
      rw [equal, Ordering.eq_then]
  · next different =>
      have decided := mt Std.LawfulEqOrd.eq_of_compare different
      cases verdict : compare left right with
      | lt => rfl
      | eq => exact absurd verdict decided
      | gt => rfl

theorem isLE_compare {α : Type} [Ord α] [LE α] [DecidableLE α] [Std.LawfulOrderOrd α]
    (left right : α) : (compare left right).isLE = decide (left ≤ right) := by
  rw [Bool.eq_iff_iff, decide_eq_true_iff]
  exact Std.isLE_compare

/-- The comparison of texts is not known as lawful; it is made of less and equal. -/
theorem isLE_compare_text (left right : String) :
    (compare left right).isLE = decide (left ≤ right) := by
  rw [Bool.eq_iff_iff, decide_eq_true_iff]
  exact isLE_compareOfLessAndEq String.le_antisymm String.not_le String.le_total

/-! ## Sorted lists -/

section Sorted

variable {α : Type} {cmp : α → α → Ordering} {items : List α}

theorem pairwise_mergeSort [Std.TransCmp cmp] (items : List α) :
    (items.mergeSort fun left right => (cmp left right).isLE).Pairwise
      fun left right => (cmp left right).isLE = true := by
  apply List.pairwise_mergeSort
  · exact fun _ _ _ => Std.TransCmp.isLE_trans
  · intro left right
    rw [Bool.or_eq_true, Ordering.isLE_iff_ne_gt, Ordering.isLE_iff_ne_gt]
    by_cases above : cmp left right = .gt
    · right
      rw [Std.OrientedCmp.gt_iff_lt.mp above]
      decide
    · exact .inl above

/-- A sorted list ascends strictly if no two of its items are alike. -/
theorem pairwise_lt (sorted : items.Pairwise fun left right => (cmp left right).isLE = true)
    (distinct : items.Nodup)
    (separate : ∀ left ∈ items, ∀ right ∈ items, cmp left right = .eq → left = right) :
    items.Pairwise fun left right => cmp left right = .lt := by
  refine (sorted.and distinct).imp_of_mem ?_
  rintro left right leftIn rightIn ⟨below, different⟩
  cases verdict : cmp left right with
  | lt => rfl
  | eq => exact absurd (separate left leftIn right rightIn verdict) different
  | gt => rw [verdict] at below; exact absurd below (by decide)

theorem nodup_of_pairwise_lt [Std.ReflCmp cmp]
    (ascending : items.Pairwise fun left right => cmp left right = .lt) :
    items.Nodup := by
  refine ascending.imp ?_
  rintro left right below rfl
  have alike : cmp left left = .eq := Std.ReflCmp.compare_self
  rw [alike] at below
  exact absurd below (by decide)

/-- A list that ascends strictly is determined by its members. -/
theorem eq_of_pairwise_lt [Std.OrientedCmp cmp] {left right : List α}
    (leftAscends : left.Pairwise fun first second => cmp first second = .lt)
    (rightAscends : right.Pairwise fun first second => cmp first second = .lt)
    (same : ∀ item, item ∈ left ↔ item ∈ right) : left = right := by
  have permuted : left.Perm right :=
    (List.perm_ext_iff_of_nodup (nodup_of_pairwise_lt leftAscends)
      (nodup_of_pairwise_lt rightAscends)).mpr same
  refine permuted.eq_of_pairwise ?_ leftAscends rightAscends
  intro first second _ _ before after
  rw [Std.OrientedCmp.gt_iff_lt.mpr before] at after
  exact absurd after (by decide)

end Sorted

/-! ## Lists without equal neighbours -/

section Neighbours

variable {α : Type}

theorem eraseRepsBy_loop_eq (alike : α → α → Bool) (first : α) (rest done : List α) :
    List.eraseRepsBy.loop alike first rest done =
      done.reverse ++ List.eraseRepsBy.loop alike first rest [] := by
  induction rest generalizing first done with
  | nil => simp [List.eraseRepsBy.loop]
  | cons second others inductionHypothesis =>
      cases verdict : alike first second with
      | true =>
          simp only [List.eraseRepsBy.loop, verdict]
          exact inductionHypothesis first done
      | false =>
          simp only [List.eraseRepsBy.loop, verdict]
          rw [inductionHypothesis second (first :: done), inductionHypothesis second [first]]
          simp

variable [BEq α] [LawfulBEq α]

theorem eraseReps_cons_self (first : α) (rest : List α) :
    (first :: first :: rest).eraseReps = (first :: rest).eraseReps := by
  simp [List.eraseReps, List.eraseRepsBy, List.eraseRepsBy.loop]

theorem eraseReps_cons_of_ne {first second : α} (different : ¬ first = second) (rest : List α) :
    (first :: second :: rest).eraseReps = first :: (second :: rest).eraseReps := by
  have verdict : (first == second) = false := by simpa using different
  simp only [List.eraseReps, List.eraseRepsBy, List.eraseRepsBy.loop, verdict]
  rw [eraseRepsBy_loop_eq]
  rfl

/-- Nothing but repetitions is lost. -/
theorem mem_eraseReps (items : List α) (item : α) : item ∈ items.eraseReps ↔ item ∈ items := by
  induction items with
  | nil => rfl
  | cons first rest inductionHypothesis =>
      cases rest with
      | nil => rfl
      | cons second others =>
          by_cases same : first = second
          · subst same
            rw [eraseReps_cons_self, inductionHypothesis]
            simp
          · simp only [eraseReps_cons_of_ne same, List.mem_cons, inductionHypothesis]

/-- A sorted list that is rid of equal neighbours ascends strictly, if only equal items are
alike. -/
theorem pairwise_lt_eraseReps {cmp : α → α → Ordering} [Std.TransCmp cmp] [Std.LawfulEqCmp cmp]
    {items : List α} (sorted : items.Pairwise fun left right => (cmp left right).isLE = true) :
    items.eraseReps.Pairwise fun left right => cmp left right = .lt := by
  induction items with
  | nil => exact List.Pairwise.nil
  | cons first rest inductionHypothesis =>
      cases rest with
      | nil => exact List.pairwise_singleton _ _
      | cons second others =>
          obtain ⟨below, sortedRest⟩ := List.pairwise_cons.mp sorted
          have ascends := inductionHypothesis sortedRest
          by_cases same : first = second
          · subst same
            rwa [eraseReps_cons_self]
          · -- The second item is strictly above the first, and the others are above the second.
            have step : cmp first second = .lt := by
              cases verdict : cmp first second with
              | lt => rfl
              | eq => exact absurd (Std.LawfulEqCmp.eq_of_compare verdict) same
              | gt =>
                  have reached := below second List.mem_cons_self
                  rw [verdict] at reached
                  exact absurd reached (by decide)
            rw [eraseReps_cons_of_ne same]
            refine List.pairwise_cons.mpr ⟨?_, ascends⟩
            intro item member
            rcases List.mem_cons.mp ((mem_eraseReps _ item).mp member) with rfl | later
            · exact step
            · exact Std.TransCmp.lt_of_lt_of_isLE step
                ((List.pairwise_cons.mp sortedRest).1 item later)

end Neighbours

/-! ## First occurrences -/

section FirstOccurrences

variable {α : Type} [BEq α]

/-- Adds an item at the end, unless it is there already. -/
def addNew (items : List α) (item : α) : List α :=
  if items.contains item then items else items ++ [item]

variable [LawfulBEq α]

theorem nodup_addNew {items : List α} (distinct : items.Nodup) (item : α) :
    (addNew items item).Nodup := by
  unfold addNew
  split
  · exact distinct
  · next absent =>
      rw [List.contains_iff_mem] at absent
      rw [List.nodup_append]
      refine ⟨distinct, by simp, ?_⟩
      intro other member added isAdded same
      rw [List.mem_singleton.mp isAdded] at same
      exact absent (same ▸ member)

theorem eraseDups_append_singleton (items : List α) (item : α) :
    (items ++ [item]).eraseDups = addNew items.eraseDups item := by
  rw [List.eraseDups_append, addNew, List.removeAll]
  by_cases known : item ∈ items
  · simp [known]
  · simp [known, List.eraseDups_cons]

/-- Adding items one by one, each only once, leaves their first occurrences. -/
theorem foldl_addNew (start items : List α) :
    items.foldl addNew start.eraseDups = (start ++ items).eraseDups := by
  induction items generalizing start with
  | nil => rw [List.foldl_nil, List.append_nil]
  | cons first rest inductionHypothesis =>
      rw [List.foldl_cons, ← eraseDups_append_singleton, inductionHypothesis, List.append_assoc,
        List.singleton_append]

theorem nodup_eraseDups (items : List α) : items.eraseDups.Nodup := by
  have folded : items.foldl addNew [] = items.eraseDups := foldl_addNew [] items
  rw [← folded]
  exact List.foldlRecOn (motive := List.Nodup) items addNew List.nodup_nil
    fun _ distinct item _ => nodup_addNew distinct item

theorem eraseDups_eq_self {items : List α} (distinct : items.Nodup) : items.eraseDups = items := by
  induction items with
  | nil => exact List.eraseDups_nil
  | cons first rest inductionHypothesis =>
      obtain ⟨notLater, distinctRest⟩ := List.nodup_cons.mp distinct
      have kept : rest.filter (fun item => !item == first) = rest := by
        rw [List.filter_eq_self]
        intro item member
        have different : ¬ item = first := fun same => notLater (same ▸ member)
        simpa using different
      rw [List.eraseDups_cons, kept, inductionHypothesis distinctRest]

end FirstOccurrences

end CodeIndex.Ordered
