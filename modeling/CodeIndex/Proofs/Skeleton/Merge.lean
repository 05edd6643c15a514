import CodeIndex.Skeleton

/-!
Contract: ranges sorted by their start and merged where they share a row.

Owns:
- `BodyRange.StartsBefore`, `BodyRange.EndsBefore`: the order of starts and of ends;
- `BodyRange.extend_cases`: what a range becomes that takes in another one;
- `mergeInto_induction`: what every merged range inherits from the ranges it is made of;
- `pairwise_mergeRanges`: merged ranges come one after the other and share no row.
-/

set_option autoImplicit false

namespace CodeIndex

namespace BodyRange

/-- One range starts before another or at the same place. -/
def StartsBefore (left right : BodyRange) : Prop :=
  left.startRow < right.startRow ∨
    (left.startRow = right.startRow ∧ left.startColumn ≤ right.startColumn)

/-- One range ends before another or at the same place. -/
def EndsBefore (left right : BodyRange) : Prop :=
  left.endRow < right.endRow ∨
    (left.endRow = right.endRow ∧ left.endColumn ≤ right.endColumn)

theorem placeLe_iff (row column otherRow otherColumn : Nat) :
    placeLe row column otherRow otherColumn = true ↔
      row < otherRow ∨ (row = otherRow ∧ column ≤ otherColumn) := by
  simp [placeLe]

theorem le_iff (left right : BodyRange) :
    left.le right = true ↔
      left.StartsBefore right ∧ (right.StartsBefore left → left.EndsBefore right) := by
  unfold le StartsBefore EndsBefore
  split
  · rw [placeLe_iff]
    omega
  · rw [placeLe_iff]
    omega

/-- A range that takes in another one keeps its end, or gets the later one of the other. -/
theorem extend_cases (current range : BodyRange) :
    (current.extend range = current ∧ range.EndsBefore current) ∨
      (current.extend range =
          { current with endRow := range.endRow, endColumn := range.endColumn } ∧
        current.EndsBefore range) := by
  unfold extend
  split
  · next covered => exact Or.inl ⟨rfl, (placeLe_iff _ _ _ _).mp covered⟩
  · next beyond =>
      rw [placeLe_iff] at beyond
      exact Or.inr ⟨rfl, by unfold EndsBefore; omega⟩

@[simp] theorem startRow_extend (current range : BodyRange) :
    (current.extend range).startRow = current.startRow := by
  unfold extend
  split <;> rfl

@[simp] theorem startColumn_extend (current range : BodyRange) :
    (current.extend range).startColumn = current.startColumn := by
  unfold extend
  split <;> rfl

end BodyRange

open BodyRange

/-! ## Sorting -/

theorem pairwise_le_sortRanges (ranges : List BodyRange) :
    (sortRanges ranges).Pairwise fun left right => left.le right = true := by
  apply List.pairwise_mergeSort
  · intro first second third
    simp only [le_iff, StartsBefore, EndsBefore]
    omega
  · intro left right
    rw [Bool.or_eq_true]
    simp only [le_iff, StartsBefore, EndsBefore]
    omega

theorem pairwise_sortRanges (ranges : List BodyRange) :
    (sortRanges ranges).Pairwise StartsBefore :=
  (pairwise_le_sortRanges ranges).imp fun {left right} below => ((le_iff left right).mp below).1

/-- Ranges have one order only. -/
theorem sortRanges_eq {ranges sorted : List BodyRange} (same : sorted.Perm ranges)
    (ordered : sorted.Pairwise fun left right => left.le right = true) :
    sortRanges ranges = sorted := by
  have permuted : (sortRanges ranges).Perm sorted :=
    (List.mergeSort_perm ranges BodyRange.le).trans same.symm
  apply permuted.eq_of_pairwise _ (pairwise_le_sortRanges ranges) ordered
  intro left right _ _ before after
  rw [le_iff] at before after
  obtain ⟨leftRow, leftColumn, leftEndRow, leftEndColumn⟩ := left
  obtain ⟨rightRow, rightColumn, rightEndRow, rightEndColumn⟩ := right
  simp only [StartsBefore, EndsBefore, BodyRange.mk.injEq] at before after ⊢
  omega

@[simp] theorem mem_sortRanges (ranges : List BodyRange) (range : BodyRange) :
    range ∈ sortRanges ranges ↔ range ∈ ranges :=
  (List.mergeSort_perm ranges BodyRange.le).mem_iff

/-! ## Merging -/

section Merged

variable {current : BodyRange} {rest : List BodyRange}

/-- Ranges stay sorted when the first one takes in the second. -/
theorem pairwise_extend {range : BodyRange}
    (sorted : (current :: range :: rest).Pairwise StartsBefore) :
    (current.extend range :: rest).Pairwise StartsBefore := by
  obtain ⟨first, sorted⟩ := List.pairwise_cons.mp sorted
  obtain ⟨_, later⟩ := List.pairwise_cons.mp sorted
  refine List.pairwise_cons.mpr ⟨?_, later⟩
  intro other member
  have before := first other (List.mem_cons_of_mem range member)
  unfold StartsBefore at before ⊢
  rwa [startRow_extend, startColumn_extend]

/-- What holds of sorted ranges holds of the merged ones, if it is kept when a range takes in one
that starts after it. -/
theorem mergeInto_induction {motive : BodyRange → Prop}
    (extended : ∀ left right, motive left → motive right → left.StartsBefore right →
      motive (left.extend right))
    (sorted : (current :: rest).Pairwise StartsBefore)
    (given : ∀ range ∈ current :: rest, motive range) :
    ∀ range ∈ mergeInto current rest, motive range := by
  induction rest generalizing current with
  | nil => simpa [mergeInto] using given
  | cons next later inductionHypothesis =>
      obtain ⟨first, tail⟩ := List.pairwise_cons.mp sorted
      have currentGiven := given current List.mem_cons_self
      have laterGiven := fun range member => given range (List.mem_cons_of_mem current member)
      rw [mergeInto]
      split
      · apply inductionHypothesis (pairwise_extend sorted)
        intro range member
        rcases List.mem_cons.mp member with rfl | inLater
        · exact extended current next currentGiven (laterGiven next List.mem_cons_self)
            (first next List.mem_cons_self)
        · exact laterGiven range (List.mem_cons_of_mem next inLater)
      · intro range member
        rcases List.mem_cons.mp member with rfl | inLater
        · exact currentGiven
        · exact inductionHypothesis tail laterGiven range inLater

theorem startRow_le_of_mem_mergeInto (sorted : (current :: rest).Pairwise StartsBefore)
    {range : BodyRange} (member : range ∈ mergeInto current rest) :
    current.startRow ≤ range.startRow := by
  refine mergeInto_induction (motive := fun range => current.startRow ≤ range.startRow)
    ?_ sorted ?_ range member
  · intro left right leftAfter _ _
    rwa [startRow_extend]
  · intro other isGiven
    rcases List.mem_cons.mp isGiven with rfl | later
    · exact Nat.le_refl _
    · have before := (List.pairwise_cons.mp sorted).1 other later
      unfold StartsBefore at before
      omega

theorem pairwise_mergeInto (sorted : (current :: rest).Pairwise StartsBefore) :
    (mergeInto current rest).Pairwise fun left right => left.endRow < right.startRow := by
  induction rest generalizing current with
  | nil => exact List.pairwise_singleton _ _
  | cons next later inductionHypothesis =>
      obtain ⟨_, tail⟩ := List.pairwise_cons.mp sorted
      rw [mergeInto]
      split
      · exact inductionHypothesis (pairwise_extend sorted)
      · next below =>
          refine List.pairwise_cons.mpr ⟨?_, inductionHypothesis tail⟩
          intro range member
          have after := startRow_le_of_mem_mergeInto tail member
          omega

end Merged

theorem mergeRanges_nil : mergeRanges [] = [] := by
  simp [mergeRanges, sortRanges]

/-- There is nothing to merge, or the ranges are merged into the first of them in their order. -/
theorem mergeRanges_cases (ranges : List BodyRange) :
    (ranges = [] ∧ mergeRanges ranges = []) ∨
      ∃ first rest, (first :: rest).Pairwise StartsBefore ∧
        (∀ range, range ∈ first :: rest ↔ range ∈ ranges) ∧
        mergeRanges ranges = mergeInto first rest := by
  have sorted := pairwise_sortRanges ranges
  have members := mem_sortRanges ranges
  unfold mergeRanges
  cases order : sortRanges ranges with
  | nil =>
      rw [order] at members
      exact Or.inl ⟨List.eq_nil_iff_forall_not_mem.mpr fun range member =>
        absurd ((members range).mpr member) List.not_mem_nil, rfl⟩
  | cons first rest =>
      rw [order] at sorted members
      exact Or.inr ⟨first, rest, sorted, members, rfl⟩

/-- What holds of ranges holds of the merged ones, if it is kept when a range takes in one that
starts after it. -/
theorem mergeRanges_induction {motive : BodyRange → Prop}
    (extended : ∀ left right, motive left → motive right → left.StartsBefore right →
      motive (left.extend right))
    {ranges : List BodyRange} (given : ∀ range ∈ ranges, motive range) :
    ∀ range ∈ mergeRanges ranges, motive range := by
  rcases mergeRanges_cases ranges with ⟨_, none⟩ | ⟨first, rest, sorted, members, merged⟩
  · simp [none]
  · rw [merged]
    exact mergeInto_induction extended sorted
      fun range member => given range ((members range).mp member)

/-- Merged ranges come one after the other and share no row. -/
theorem pairwise_mergeRanges (ranges : List BodyRange) :
    (mergeRanges ranges).Pairwise fun left right => left.endRow < right.startRow := by
  rcases mergeRanges_cases ranges with ⟨_, none⟩ | ⟨first, rest, sorted, _, merged⟩
  · simp [none]
  · rw [merged]
    exact pairwise_mergeInto sorted

end CodeIndex
