import CodeIndex.Proofs.Skeleton.Merge
import Mathlib.Data.List.Nodup
import Mathlib.Data.List.Pairwise
import Mathlib.Logic.Relation

/-!
Contract: merged ranges as the components of ranges that share rows.

Owns:
- `BodyRange.LiesIn`, `BodyRange.HasRow`: positions and rows of a range;
- `BodyRange.Linked`: ranges with a chain between them in which neighbours share a row;
- `BodyRange.Gathers`: a range that some others make up, and `BodyRange.Gathers.extend`: what one
  step of merging does to it;
- `exists_groups`: merging divides the ranges, and each merged range is made up of its part;
- `ranges_merged_to_components`: what the merged ranges are, without saying how they are made.

The rows decide which ranges belong together, the columns only where the merged range starts and
ends. A range that starts on a row of the one before it shares that row with one of those which that
one was made of, although the others may all end above it.
-/

set_option autoImplicit false

namespace CodeIndex

namespace BodyRange

/-- The range does not end before it starts. -/
def Forward (range : BodyRange) : Prop :=
  range.startRow < range.endRow ∨
    (range.startRow = range.endRow ∧ range.startColumn ≤ range.endColumn)

instance (range : BodyRange) : Decidable range.Forward :=
  inferInstanceAs (Decidable (_ ∨ _))

/-- One range starts no earlier than another and ends no later. -/
def LiesIn (range hull : BodyRange) : Prop :=
  hull.StartsBefore range ∧ range.EndsBefore hull

instance (range hull : BodyRange) : Decidable (range.LiesIn hull) :=
  inferInstanceAs (Decidable ((_ ∨ _) ∧ (_ ∨ _)))

/-- The row is one of those between the start and the end. -/
def HasRow (range : BodyRange) (row : Nat) : Prop :=
  range.startRow ≤ row ∧ row ≤ range.endRow

theorem Forward.hasRow {range : BodyRange} (forward : range.Forward) :
    range.HasRow range.startRow := by
  unfold Forward at forward
  exact ⟨Nat.le_refl _, by omega⟩

theorem LiesIn.hasRow {range hull : BodyRange} (lies : range.LiesIn hull) {row : Nat}
    (has : range.HasRow row) : hull.HasRow row := by
  obtain ⟨starts, stops⟩ := lies
  unfold StartsBefore at starts
  unfold EndsBefore at stops
  unfold HasRow at has ⊢
  omega

/-- Two of the given ranges that have a row in common. -/
def SharesRow (ranges : List BodyRange) (left right : BodyRange) : Prop :=
  left ∈ ranges ∧ right ∈ ranges ∧ ∃ row, left.HasRow row ∧ right.HasRow row

/-- There is a chain between two ranges in which neighbours share a row. -/
def Linked (ranges : List BodyRange) : BodyRange → BodyRange → Prop :=
  Relation.ReflTransGen (SharesRow ranges)

instance (ranges : List BodyRange) : Std.Symm (SharesRow ranges) where
  symm := fun _ _ ⟨leftGiven, rightGiven, row, inLeft, inRight⟩ =>
    ⟨rightGiven, leftGiven, row, inRight, inLeft⟩

theorem Linked.symm {ranges : List BodyRange} {left right : BodyRange}
    (linked : Linked ranges left right) : Linked ranges right left :=
  Relation.ReflTransGen.stdSymm.symm left right linked

theorem Linked.mono {ranges others : List BodyRange} (given : ranges ⊆ others)
    {left right : BodyRange} (linked : Linked ranges left right) : Linked others left right :=
  Relation.ReflTransGen.mono
    (fun _ _ shares => ⟨given shares.1, given shares.2.1, shares.2.2⟩) left right linked

/-! ## Groups -/

/-- A range is made up of a group: it reaches from the first start to the last end, each of its rows
is one of the group's, and the group is linked. -/
structure Gathers (group : List BodyRange) (hull : BodyRange) : Prop where
  inside : ∀ range ∈ group, range.LiesIn hull
  start : ∃ range ∈ group,
    range.startRow = hull.startRow ∧ range.startColumn = hull.startColumn
  stop : ∃ range ∈ group, range.endRow = hull.endRow ∧ range.endColumn = hull.endColumn
  rows : ∀ row, hull.HasRow row → ∃ range ∈ group, range.HasRow row
  linked : ∀ left ∈ group, ∀ right ∈ group, Linked group left right

theorem Gathers.single (range : BodyRange) : Gathers [range] range where
  inside := by
    intro other member
    rw [List.mem_singleton.mp member]
    exact ⟨Or.inr ⟨rfl, Nat.le_refl _⟩, Or.inr ⟨rfl, Nat.le_refl _⟩⟩
  start := ⟨range, List.mem_singleton_self range, rfl, rfl⟩
  stop := ⟨range, List.mem_singleton_self range, rfl, rfl⟩
  rows := fun _ has => ⟨range, List.mem_singleton_self range, has⟩
  linked := by
    intro left leftGiven right rightGiven
    rw [List.mem_singleton.mp leftGiven, List.mem_singleton.mp rightGiven]
    exact Relation.ReflTransGen.refl

section Extended

variable {group : List BodyRange} {hull next : BodyRange}

/-- A range on a row of the hull is linked with the group that the hull is made up of. -/
theorem Gathers.linked_next (gathers : Gathers group hull) (forward : next.Forward)
    (after : hull.StartsBefore next) (reached : next.startRow ≤ hull.endRow) :
    ∀ range ∈ group, Linked (group ++ [next]) range next := by
  have onRow : hull.HasRow next.startRow := by
    unfold StartsBefore at after
    exact ⟨by omega, reached⟩
  obtain ⟨neighbour, given, hasRow⟩ := gathers.rows next.startRow onRow
  have last : SharesRow (group ++ [next]) neighbour next :=
    ⟨List.mem_append_left _ given, List.mem_append_right _ (List.mem_singleton_self next),
      next.startRow, hasRow, forward.hasRow⟩
  intro range member
  exact ((gathers.linked range member neighbour given).mono (List.subset_append_left _ _)).tail last

/-- A hull that takes in a range on one of its rows is the hull of one more range. -/
theorem Gathers.extend (gathers : Gathers group hull) (forward : next.Forward)
    (after : hull.StartsBefore next) (reached : next.startRow ≤ hull.endRow) :
    Gathers (group ++ [next]) (hull.extend next) := by
  have nextGiven : next ∈ group ++ [next] := List.mem_append_right _ (List.mem_singleton_self next)
  have ends : next.EndsBefore (hull.extend next) ∧ hull.EndsBefore (hull.extend next) := by
    rcases extend_cases hull next with ⟨same, earlier⟩ | ⟨longer, earlier⟩
    · rw [same]
      exact ⟨earlier, Or.inr ⟨rfl, Nat.le_refl _⟩⟩
    · rw [longer]
      exact ⟨Or.inr ⟨rfl, Nat.le_refl _⟩, earlier⟩
  refine ⟨?_, ?_, ?_, ?_, ?_⟩
  · intro range member
    rcases List.mem_append.mp member with earlier | isNext
    · obtain ⟨starts, stops⟩ := gathers.inside range earlier
      refine ⟨?_, ?_⟩
      · unfold StartsBefore at starts ⊢
        rwa [startRow_extend, startColumn_extend]
      · have later := ends.2
        unfold EndsBefore at stops later ⊢
        omega
    · rw [List.mem_singleton.mp isNext]
      refine ⟨?_, ends.1⟩
      unfold StartsBefore at after ⊢
      rwa [startRow_extend, startColumn_extend]
  · obtain ⟨first, given, starts⟩ := gathers.start
    exact ⟨first, List.mem_append_left _ given, by rwa [startRow_extend, startColumn_extend]⟩
  · rcases extend_cases hull next with ⟨same, _⟩ | ⟨longer, _⟩
    · obtain ⟨last, given, stops⟩ := gathers.stop
      exact ⟨last, List.mem_append_left _ given, by rwa [same]⟩
    · exact ⟨next, nextGiven, by rw [longer]; exact ⟨rfl, rfl⟩⟩
  · intro row has
    by_cases above : row ≤ hull.endRow
    · have inHull : hull.HasRow row := ⟨by rw [← startRow_extend hull next]; exact has.1, above⟩
      obtain ⟨range, given, hasRow⟩ := gathers.rows row inHull
      exact ⟨range, List.mem_append_left _ given, hasRow⟩
    · -- Rows below the hull's end are those of the next range, which starts at or above that end.
      refine ⟨next, nextGiven, by omega, ?_⟩
      have below := has.2
      rcases extend_cases hull next with ⟨same, _⟩ | ⟨longer, _⟩
      · rw [same] at below
        omega
      · rwa [longer] at below
  · have toNext := gathers.linked_next forward after reached
    have within : ∀ left ∈ group, ∀ right ∈ group, Linked (group ++ [next]) left right :=
      fun left leftGiven right rightGiven =>
        (gathers.linked left leftGiven right rightGiven).mono (List.subset_append_left _ _)
    intro left leftGiven right rightGiven
    rcases List.mem_append.mp leftGiven with leftEarlier | leftNext <;>
      rcases List.mem_append.mp rightGiven with rightEarlier | rightNext
    · exact within left leftEarlier right rightEarlier
    · rw [List.mem_singleton.mp rightNext]
      exact toNext left leftEarlier
    · rw [List.mem_singleton.mp leftNext]
      exact (toNext right rightEarlier).symm
    · rw [List.mem_singleton.mp leftNext, List.mem_singleton.mp rightNext]
      exact Relation.ReflTransGen.refl

end Extended

end BodyRange

open BodyRange

/-- Merging divides sorted ranges into groups, and each merged range is made up of its group. -/
theorem exists_groups {current : BodyRange} {group rest : List BodyRange}
    (sorted : (current :: rest).Pairwise StartsBefore) (forward : ∀ range ∈ rest, range.Forward)
    (gathers : Gathers group current) :
    ∃ groups : List (List BodyRange × BodyRange),
      groups.flatMap Prod.fst = group ++ rest ∧ groups.map Prod.snd = mergeInto current rest ∧
        ∀ part ∈ groups, Gathers part.1 part.2 := by
  induction rest generalizing current group with
  | nil => exact ⟨[(group, current)], by simp, rfl, by simpa using gathers⟩
  | cons next later inductionHypothesis =>
      obtain ⟨first, tail⟩ := List.pairwise_cons.mp sorted
      have nextForward := forward next List.mem_cons_self
      have laterForward := fun range member => forward range (List.mem_cons_of_mem next member)
      rw [mergeInto]
      split
      · next reached =>
          have extended := gathers.extend nextForward (first next List.mem_cons_self) reached
          simpa using inductionHypothesis (pairwise_extend sorted) laterForward extended
      · obtain ⟨groups, members, hulls, made⟩ :=
          inductionHypothesis tail laterForward (Gathers.single next)
        refine ⟨(group, current) :: groups, ?_, ?_, ?_⟩
        · rw [List.flatMap_cons, members]
          rfl
        · rw [List.map_cons, hulls]
        · exact List.forall_mem_cons.mpr ⟨gathers, made⟩

section Components

variable {ranges : List BodyRange}

theorem exists_groups_mergeRanges (forward : ∀ range ∈ ranges, range.Forward) :
    ∃ groups : List (List BodyRange × BodyRange),
      (∀ range, range ∈ ranges ↔ ∃ part ∈ groups, range ∈ part.1) ∧
        groups.map Prod.snd = mergeRanges ranges ∧ ∀ part ∈ groups, Gathers part.1 part.2 := by
  rcases mergeRanges_cases ranges with ⟨rfl, none⟩ | ⟨first, rest, sorted, members, merged⟩
  · exact ⟨[], by simp, none.symm, by simp⟩
  · have restForward : ∀ range ∈ rest, range.Forward :=
      fun range member => forward range ((members range).mp (List.mem_cons_of_mem first member))
    obtain ⟨groups, listed, hulls, made⟩ := exists_groups sorted restForward (Gathers.single first)
    refine ⟨groups, fun range => ?_, hulls.trans merged.symm, made⟩
    rw [← members, ← List.singleton_append, ← listed, List.mem_flatMap]

theorem forward_mergeRanges (forward : ∀ range ∈ ranges, range.Forward) :
    ∀ hull ∈ mergeRanges ranges, hull.Forward := by
  refine mergeRanges_induction ?_ forward
  intro left right leftForward _ _
  rcases extend_cases left right with ⟨same, _⟩ | ⟨longer, later⟩
  · rwa [same]
  · rw [longer]
    unfold Forward at leftForward ⊢
    unfold EndsBefore at later
    dsimp only
    omega

/-- Merged ranges with a row in common are the same. -/
theorem eq_of_hasRow {left right : BodyRange} (leftMerged : left ∈ mergeRanges ranges)
    (rightMerged : right ∈ mergeRanges ranges) {row : Nat} (inLeft : left.HasRow row)
    (inRight : right.HasRow row) : left = right := by
  have apart : (mergeRanges ranges).Pairwise fun left right =>
      left.endRow < right.startRow ∨ right.endRow < left.startRow :=
    (pairwise_mergeRanges ranges).imp Or.inl
  have symmetric : Std.Symm fun left right : BodyRange =>
      left.endRow < right.startRow ∨ right.endRow < left.startRow := ⟨fun _ _ => Or.symm⟩
  by_contra different
  have order := apart.forall leftMerged rightMerged different
  unfold HasRow at inLeft inRight
  omega

theorem exists_hull (forward : ∀ range ∈ ranges, range.Forward) {range : BodyRange}
    (given : range ∈ ranges) :
    ∃ hull ∈ mergeRanges ranges, range.LiesIn hull ∧
      ∀ other ∈ mergeRanges ranges, range.LiesIn other → other = hull := by
  obtain ⟨groups, members, hulls, made⟩ := exists_groups_mergeRanges forward
  obtain ⟨part, listed, inPart⟩ := (members range).mp given
  have merged : part.2 ∈ mergeRanges ranges := hulls ▸ List.mem_map_of_mem listed
  have lies : range.LiesIn part.2 := (made part listed).inside range inPart
  have row := (forward range given).hasRow
  exact ⟨part.2, merged, lies, fun other otherMerged otherLies =>
    eq_of_hasRow otherMerged merged (otherLies.hasRow row) (lies.hasRow row)⟩

/-- Every merged range is made up of the given ranges that lie in it. -/
theorem exists_gathers (forward : ∀ range ∈ ranges, range.Forward) {hull : BodyRange}
    (merged : hull ∈ mergeRanges ranges) :
    ∃ group, Gathers group hull ∧ ∀ range, range ∈ group ↔ range ∈ ranges ∧ range.LiesIn hull := by
  obtain ⟨groups, members, hulls, made⟩ := exists_groups_mergeRanges forward
  obtain ⟨part, listed, rfl⟩ := List.mem_map.mp (hulls ▸ merged)
  refine ⟨part.1, made part listed, fun range => ⟨fun inPart => ?_, fun ⟨given, lies⟩ => ?_⟩⟩
  · exact ⟨(members range).mpr ⟨part, listed, inPart⟩, (made part listed).inside range inPart⟩
  · obtain ⟨other, otherListed, inOther⟩ := (members range).mp given
    have row := (forward range given).hasRow
    have otherMerged : other.2 ∈ mergeRanges ranges := hulls ▸ List.mem_map_of_mem otherListed
    have sameHull : other.2 = part.2 := eq_of_hasRow otherMerged merged
      (((made other otherListed).inside range inOther).hasRow row) (lies.hasRow row)
    -- Merged ranges are distinct, so that a group is known by its hull.
    have distinct : (groups.map Prod.snd).Nodup := by
      rw [hulls]
      refine (pairwise_mergeRanges ranges).imp_of_mem fun {left right} leftMerged _ above => ?_
      rintro rfl
      have ordered := (forward_mergeRanges forward left leftMerged).hasRow.2
      omega
    exact List.inj_on_of_nodup_map distinct otherListed listed sameHull ▸ inOther

/-- Ranges are linked if they lie in one merged range, and only then. -/
theorem linked_iff (forward : ∀ range ∈ ranges, range.Forward) {left right : BodyRange}
    (leftGiven : left ∈ ranges) (rightGiven : right ∈ ranges) :
    Linked ranges left right ↔
      ∃ hull ∈ mergeRanges ranges, left.LiesIn hull ∧ right.LiesIn hull := by
  constructor
  · intro linked
    obtain ⟨hull, merged, lies, _⟩ := exists_hull forward leftGiven
    refine ⟨hull, merged, lies, ?_⟩
    clear rightGiven
    induction linked with
    | refl => exact lies
    | tail _ shares inductionHypothesis =>
        obtain ⟨_, given, row, inFirst, inSecond⟩ := shares
        obtain ⟨other, otherMerged, otherLies, _⟩ := exists_hull forward given
        have same := eq_of_hasRow otherMerged merged (otherLies.hasRow inSecond)
          (inductionHypothesis.hasRow inFirst)
        exact same ▸ otherLies
  · rintro ⟨hull, merged, leftLies, rightLies⟩
    obtain ⟨group, gathers, members⟩ := exists_gathers forward merged
    have linked := gathers.linked left ((members left).mpr ⟨leftGiven, leftLies⟩) right
      ((members right).mpr ⟨rightGiven, rightLies⟩)
    exact linked.mono fun range member => ((members range).mp member).1

theorem mergeRanges_perm {others : List BodyRange} (same : others.Perm ranges) :
    mergeRanges others = mergeRanges ranges := by
  have order : sortRanges others = sortRanges ranges :=
    sortRanges_eq ((List.mergeSort_perm ranges BodyRange.le).trans same.symm)
      (pairwise_le_sortRanges ranges)
  rw [mergeRanges, order, mergeRanges]

theorem mergeInto_of_apart {current : BodyRange} {rest : List BodyRange}
    (apart : (current :: rest).Pairwise fun left right => left.endRow < right.startRow) :
    mergeInto current rest = current :: rest := by
  induction rest generalizing current with
  | nil => rfl
  | cons next later inductionHypothesis =>
      obtain ⟨first, tail⟩ := List.pairwise_cons.mp apart
      have below := first next List.mem_cons_self
      rw [mergeInto, if_neg (by omega), inductionHypothesis tail]

/-- Merged ranges are in order. -/
theorem pairwise_le_mergeRanges (forward : ∀ range ∈ ranges, range.Forward) :
    (mergeRanges ranges).Pairwise fun left right => left.le right = true := by
  refine (pairwise_mergeRanges ranges).imp_of_mem fun {left right} leftMerged _ above => ?_
  have ordered := (forward_mergeRanges forward left leftMerged).hasRow.2
  rw [le_iff]
  unfold StartsBefore
  omega

theorem mergeRanges_mergeRanges (forward : ∀ range ∈ ranges, range.Forward) :
    mergeRanges (mergeRanges ranges) = mergeRanges ranges := by
  have order : sortRanges (mergeRanges ranges) = mergeRanges ranges :=
    sortRanges_eq (List.Perm.refl _) (pairwise_le_mergeRanges forward)
  have apart := pairwise_mergeRanges ranges
  rw [mergeRanges, order]
  cases merged : mergeRanges ranges with
  | nil => rfl
  | cons first rest =>
      rw [merged] at apart
      exact mergeInto_of_apart apart

end Components

/-- Merging gives the components of the ranges, where ranges that share a row belong together. The
merged ranges are in order, and each ends on a row above the start of the next. Every range lies in
one of them. Each starts with the first and ends with the last of the ranges in it, two ranges are
in the same one if and only if they are linked, and no row is added. The order of the ranges does
not matter, and there is nothing more to merge. -/
theorem ranges_merged_to_components (ranges : List BodyRange)
    (forward : ∀ range ∈ ranges, range.Forward) :
    (mergeRanges ranges).Pairwise (fun left right =>
        left.le right = true ∧ left.endRow < right.startRow) ∧
      (∀ range ∈ ranges, ∃ hull ∈ mergeRanges ranges, range.LiesIn hull ∧
        ∀ other ∈ mergeRanges ranges, range.LiesIn other → other = hull) ∧
      (∀ hull ∈ mergeRanges ranges,
        (∃ first ∈ ranges, first.LiesIn hull ∧
          first.startRow = hull.startRow ∧ first.startColumn = hull.startColumn) ∧
        ∃ last ∈ ranges, last.LiesIn hull ∧
          last.endRow = hull.endRow ∧ last.endColumn = hull.endColumn) ∧
      (∀ row, (∃ hull ∈ mergeRanges ranges, hull.HasRow row) ↔
        ∃ range ∈ ranges, range.HasRow row) ∧
      (∀ left ∈ ranges, ∀ right ∈ ranges, Linked ranges left right ↔
        ∃ hull ∈ mergeRanges ranges, left.LiesIn hull ∧ right.LiesIn hull) ∧
      (∀ others : List BodyRange, others.Perm ranges → mergeRanges others = mergeRanges ranges) ∧
      mergeRanges (mergeRanges ranges) = mergeRanges ranges := by
  refine ⟨?_, fun range => exists_hull forward, ?_, ?_, fun left leftGiven right =>
    linked_iff forward leftGiven, fun others => mergeRanges_perm, mergeRanges_mergeRanges forward⟩
  · exact (pairwise_le_mergeRanges forward).and (pairwise_mergeRanges ranges)
  · intro hull merged
    obtain ⟨group, gathers, members⟩ := exists_gathers forward merged
    obtain ⟨first, firstGiven, starts⟩ := gathers.start
    obtain ⟨last, lastGiven, stops⟩ := gathers.stop
    obtain ⟨firstListed, firstLies⟩ := (members first).mp firstGiven
    obtain ⟨lastListed, lastLies⟩ := (members last).mp lastGiven
    exact ⟨⟨first, firstListed, firstLies, starts⟩, last, lastListed, lastLies, stops⟩
  · intro row
    constructor
    · rintro ⟨hull, merged, has⟩
      obtain ⟨group, gathers, members⟩ := exists_gathers forward merged
      obtain ⟨range, inGroup, hasRow⟩ := gathers.rows row has
      exact ⟨range, ((members range).mp inGroup).1, hasRow⟩
    · rintro ⟨range, given, has⟩
      obtain ⟨hull, merged, lies, _⟩ := exists_hull forward given
      exact ⟨hull, merged, lies.hasRow has⟩

/-- A body in another, one that starts where that one ends, and two with the same start. -/
def scatteredBodies : List BodyRange :=
  [⟨11, 3, 12, 1⟩, ⟨4, 2, 6, 3⟩, ⟨8, 5, 9, 0⟩, ⟨1, 10, 8, 1⟩, ⟨11, 3, 11, 7⟩]

theorem scatteredBodies_merged :
    (∀ range ∈ scatteredBodies, range.Forward) ∧
      mergeRanges scatteredBodies = [⟨1, 10, 9, 0⟩, ⟨11, 3, 12, 1⟩] ∧
      mergeRanges scatteredBodies.reverse = mergeRanges scatteredBodies ∧
      Linked scatteredBodies ⟨4, 2, 6, 3⟩ ⟨8, 5, 9, 0⟩ ∧
      ¬ Linked scatteredBodies ⟨4, 2, 6, 3⟩ ⟨11, 3, 11, 7⟩ := by
  have order : sortRanges scatteredBodies =
      [⟨1, 10, 8, 1⟩, ⟨4, 2, 6, 3⟩, ⟨8, 5, 9, 0⟩, ⟨11, 3, 11, 7⟩, ⟨11, 3, 12, 1⟩] :=
    sortRanges_eq (by decide) (by decide)
  have merged : mergeRanges scatteredBodies = [⟨1, 10, 9, 0⟩, ⟨11, 3, 12, 1⟩] := by
    rw [mergeRanges, order]
    decide
  have forward : ∀ range ∈ scatteredBodies, range.Forward := by decide
  obtain ⟨_, _, _, _, linked, permuted, _⟩ := ranges_merged_to_components scatteredBodies forward
  refine ⟨forward, merged, permuted _ (List.reverse_perm _), ?_, ?_⟩
  · rw [linked _ (by decide) _ (by decide), merged]
    decide
  · rw [linked _ (by decide) _ (by decide), merged]
    decide

end CodeIndex
