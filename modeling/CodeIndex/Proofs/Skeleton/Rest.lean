import CodeIndex.Extract.Basic
import CodeIndex.Proofs.Skeleton.Replacement

/-!
Contract: what a skeleton keeps of its source.

Owns:
- `Text.bytesWhere`: the bytes of a text at some of its offsets;
- `BodyRange.Covered`, `BodyRange.Between`: offsets in a range, and offsets between two ranges on
  one row;
- `BodyRange.covered_mergeRanges`: the merged ranges cover both, and nothing else;
- `skeleton_keeps_rest`: a skeleton without its placeholders.

Ranges are merged by their rows, so the text between two bodies goes with them when one ends on the
row on which the other starts: `method_between_bodies_is_lost`.
-/

set_option autoImplicit false

namespace CodeIndex

open Text

/-! ## Bytes at offsets -/

namespace Text

/-- The bytes of a text whose offsets are kept. The offset is that of the first byte. -/
def bytesWhere (keep : Nat → Prop) [DecidablePred keep] : Nat → List UInt8 → List UInt8
  | _, [] => []
  | offset, byte :: rest =>
      if keep offset then
        byte :: bytesWhere keep (offset + 1) rest
      else
        bytesWhere keep (offset + 1) rest

section Kept

variable (keep : Nat → Prop) [DecidablePred keep]

theorem bytesWhere_append (offset : Nat) (left right : List UInt8) :
    bytesWhere keep offset (left ++ right) =
      bytesWhere keep offset left ++ bytesWhere keep (offset + left.length) right := by
  induction left generalizing offset with
  | nil => simp [bytesWhere]
  | cons byte rest inductionHypothesis =>
      have shifted : offset + 1 + rest.length = offset + (byte :: rest).length := by
        rw [List.length_cons]
        omega
      rw [List.cons_append, bytesWhere, bytesWhere, inductionHypothesis, shifted]
      split <;> rfl

theorem bytesWhere_true (offset : Nat) (text : List UInt8) :
    bytesWhere (fun _ => True) offset text = text := by
  induction text generalizing offset with
  | nil => rfl
  | cons byte rest inductionHypothesis => rw [bytesWhere, if_pos trivial, inductionHypothesis]

theorem bytesWhere_false (offset : Nat) (text : List UInt8) :
    bytesWhere (fun _ => False) offset text = [] := by
  induction text generalizing offset with
  | nil => rfl
  | cons byte rest inductionHypothesis => rw [bytesWhere, if_neg not_false, inductionHypothesis]

variable {keep} {other : Nat → Prop} [DecidablePred other]

theorem length_bytesWhere_le (weaker : ∀ place, keep place → other place) (offset : Nat)
    (text : List UInt8) :
    (bytesWhere keep offset text).length ≤ (bytesWhere other offset text).length := by
  induction text generalizing offset with
  | nil => exact Nat.le_refl _
  | cons byte rest inductionHypothesis =>
      have later := inductionHypothesis (offset + 1)
      rw [bytesWhere, bytesWhere]
      by_cases kept : keep offset
      · rw [if_pos kept, if_pos (weaker offset kept), List.length_cons, List.length_cons]
        omega
      · rw [if_neg kept]
        split
        · rw [List.length_cons]
          omega
        · exact later

/-- Fewer offsets keep the same bytes only if they are the same offsets of the text. -/
theorem bytesWhere_eq_iff (weaker : ∀ place, keep place → other place) (offset : Nat)
    (text : List UInt8) :
    bytesWhere keep offset text = bytesWhere other offset text ↔
      ∀ place, offset ≤ place → place < offset + text.length → other place → keep place := by
  induction text generalizing offset with
  | nil =>
      refine ⟨fun _ place after before => ?_, fun _ => rfl⟩
      rw [List.length_nil] at before
      omega
  | cons byte rest inductionHypothesis =>
      -- The first offset and the others, apart.
      have places : (∀ place, offset ≤ place → place < offset + (byte :: rest).length →
            other place → keep place) ↔
          (other offset → keep offset) ∧
            ∀ place, offset + 1 ≤ place → place < offset + 1 + rest.length →
              other place → keep place := by
        rw [List.length_cons]
        constructor
        · intro all
          exact ⟨all offset (by omega) (by omega),
            fun place after before => all place (by omega) (by omega)⟩
        · intro both place after before
          by_cases first : place = offset
          · rw [first]
            exact both.1
          · exact both.2 place (by omega) (by omega)
      rw [places, ← inductionHypothesis, bytesWhere, bytesWhere]
      by_cases kept : keep offset
      · rw [if_pos kept, if_pos (weaker offset kept)]
        simp [kept]
      · by_cases isOther : other offset
        · have shorter := length_bytesWhere_le weaker (offset + 1) rest
          rw [if_neg kept, if_pos isOther]
          refine ⟨fun same => ?_, fun both => absurd (both.1 isOther) kept⟩
          rw [same, List.length_cons] at shorter
          omega
        · rw [if_neg kept, if_neg isOther]
          simp [isOther]

variable {offset : Nat} {text : List UInt8}

theorem bytesWhere_eq_self
    (all : ∀ place, offset ≤ place → place < offset + text.length → keep place) :
    bytesWhere keep offset text = text := by
  have same := (bytesWhere_eq_iff (fun _ _ => trivial) offset text).mpr
    fun place after before _ => all place after before
  exact same.trans (bytesWhere_true offset text)

theorem bytesWhere_eq_nil
    (none : ∀ place, offset ≤ place → place < offset + text.length → ¬ keep place) :
    bytesWhere keep offset text = [] := by
  have same := (bytesWhere_eq_iff (fun _ => False.elim) offset text).mpr none
  exact same.symm.trans (bytesWhere_false offset text)

end Kept

/-- An offset in none of some stretches. -/
def Outside (stretches : List (Nat × Nat)) (offset : Nat) : Prop :=
  ∀ stretch ∈ stretches, ¬ (stretch.1 ≤ offset ∧ offset < stretch.2)

instance (stretches : List (Nat × Nat)) : DecidablePred (Outside stretches) :=
  fun offset => inferInstanceAs (Decidable (∀ stretch ∈ stretches,
    ¬ (stretch.1 ≤ offset ∧ offset < stretch.2)))

theorem outside_cons (stretch : Nat × Nat) (rest : List (Nat × Nat)) (offset : Nat) :
    Outside (stretch :: rest) offset ↔
      ¬ (stretch.1 ≤ offset ∧ offset < stretch.2) ∧ Outside rest offset :=
  List.forall_mem_cons

theorem length_extract_of_le {text : List UInt8} {start stop : Nat} (ends : stop ≤ text.length) :
    (text.extract start stop).length = stop - start := by
  rw [List.extract_eq_take_drop, List.length_take, List.length_drop]
  omega

/-- The pieces around stretches are the bytes outside of them. -/
theorem flatten_piecesAround {text : List UInt8} {stretches : List (Nat × Nat)}
    (inside : ∀ stretch ∈ stretches, stretch.1 ≤ stretch.2 ∧ stretch.2 ≤ text.length)
    (apart : stretches.Pairwise fun left right => left.2 < right.1)
    {reached : Nat} (before : ∀ stretch ∈ stretches, reached ≤ stretch.1) :
    (piecesAround text reached stretches).flatten =
      bytesWhere (Outside stretches) reached (text.drop reached) := by
  induction stretches generalizing reached with
  | nil =>
      have all : bytesWhere (Outside []) reached (text.drop reached) = text.drop reached :=
        bytesWhere_eq_self fun _ _ _ stretch member => absurd member List.not_mem_nil
      rw [all, piecesAround]
      simp
  | cons stretch rest inductionHypothesis =>
      obtain ⟨later, apart⟩ := List.pairwise_cons.mp apart
      have forward := before stretch List.mem_cons_self
      obtain ⟨ordered, ends⟩ := inside stretch List.mem_cons_self
      have restInside := fun other member => inside other (List.mem_cons_of_mem stretch member)
      have first : (text.extract reached stretch.1).length = stretch.1 - reached :=
        length_extract_of_le (by omega)
      have second : (text.extract stretch.1 stretch.2).length = stretch.2 - stretch.1 :=
        length_extract_of_le ends
      have kept : bytesWhere (Outside (stretch :: rest)) reached (text.extract reached stretch.1) =
          text.extract reached stretch.1 := by
        apply bytesWhere_eq_self
        intro place _ isBefore
        refine (outside_cons stretch rest place).mpr ⟨by omega, ?_⟩
        intro other member
        have apartFrom := later other member
        omega
      have dropped : bytesWhere (Outside (stretch :: rest)) stretch.1
          (text.extract stretch.1 stretch.2) = [] := by
        apply bytesWhere_eq_nil
        intro place after isBefore isOutside
        exact ((outside_cons stretch rest place).mp isOutside).1 (by omega)
      have onward : bytesWhere (Outside (stretch :: rest)) stretch.2 (text.drop stretch.2) =
          bytesWhere (Outside rest) stretch.2 (text.drop stretch.2) := by
        refine (bytesWhere_eq_iff (fun place isOutside =>
          ((outside_cons stretch rest place).mp isOutside).2) _ _).mpr ?_
        intro place after _ isOutside
        exact (outside_cons stretch rest place).mpr ⟨by omega, isOutside⟩
      have cut : text.drop reached =
          text.extract reached stretch.1 ++
            (text.extract stretch.1 stretch.2 ++ text.drop stretch.2) := by
        rw [extract_append_drop text ordered, extract_append_drop text forward]
      rw [cut, bytesWhere_append, bytesWhere_append, first, second,
        Nat.add_sub_cancel' forward, Nat.add_sub_cancel' ordered, kept, dropped, onward,
        ← inductionHypothesis restInside apart fun other member =>
          Nat.le_of_lt (later other member),
        piecesAround, List.flatten_cons, List.nil_append]

end Text

/-! ## Offsets that ranges cover -/

namespace BodyRange

variable (rows : List String)

/-- An offset in one of some ranges. -/
def Covered (ranges : List BodyRange) (offset : Nat) : Prop :=
  ∃ range ∈ ranges, (range.stretch rows).1 ≤ offset ∧ offset < (range.stretch rows).2

/-- An offset on a row on which one range ends before it and another one starts after it. -/
def Between (ranges : List BodyRange) (offset : Nat) : Prop :=
  ∃ left ∈ ranges, ∃ right ∈ ranges, left.endRow = right.startRow ∧
    (left.stretch rows).2 ≤ offset ∧ offset < (right.stretch rows).1

/-- An offset from the start of one range to the end of another one that starts on a row of the
first one, or above it. -/
def Joined (ranges : List BodyRange) (offset : Nat) : Prop :=
  ∃ left ∈ ranges, ∃ right ∈ ranges, right.startRow ≤ left.endRow ∧
    (left.stretch rows).1 ≤ offset ∧ offset < (right.stretch rows).2

instance (ranges : List BodyRange) : DecidablePred (Covered rows ranges) :=
  fun offset => inferInstanceAs (Decidable (∃ range ∈ ranges,
    (range.stretch rows).1 ≤ offset ∧ offset < (range.stretch rows).2))

instance (ranges : List BodyRange) : DecidablePred (Between rows ranges) :=
  fun offset => inferInstanceAs (Decidable (∃ left ∈ ranges, ∃ right ∈ ranges,
    left.endRow = right.startRow ∧
      (left.stretch rows).2 ≤ offset ∧ offset < (right.stretch rows).1))

variable {rows} {ranges : List BodyRange}

theorem joined_iff (within : ∀ range ∈ ranges, range.Within rows) (offset : Nat) :
    Joined rows ranges offset ↔ Covered rows ranges offset ∨ Between rows ranges offset := by
  constructor
  · intro joined
    obtain ⟨left, isLeft, right, isRight, meets, started, notStopped⟩ := joined
    by_cases inLeft : offset < (left.stretch rows).2
    · exact Or.inl ⟨left, isLeft, started, inLeft⟩
    · by_cases inRight : (right.stretch rows).1 ≤ offset
      · exact Or.inl ⟨right, isRight, inRight, notStopped⟩
      · refine Or.inr ⟨left, isLeft, right, isRight, ?_, by omega, by omega⟩
        have rowsOrdered : ¬ right.startRow < left.endRow := by
          intro above
          have before := (within right isRight).start.offset_lt above
          have inRow : rowOffset rows left.endRow ≤ (left.stretch rows).2 := Nat.le_add_right _ _
          have start : (right.stretch rows).1 =
            placeOffset rows right.startRow right.startColumn := rfl
          omega
        omega
  · intro hidden
    rcases hidden with ⟨range, member, started, notStopped⟩ |
      ⟨left, isLeft, right, isRight, sameRow, stopped, notStarted⟩
    · have ordered := (within range member).ordered
      exact ⟨range, member, range, member, by omega, started, notStopped⟩
    · have leftOrdered := (within left isLeft).start_le_stop
      have rightOrdered := (within right isRight).start_le_stop
      exact ⟨left, isLeft, right, isRight, by omega, by omega, by omega⟩

/-! ### Merging -/

/-- One range covers all that another one covers. -/
structure Encloses (rows : List String) (outer inner : BodyRange) : Prop where
  startRow : outer.startRow ≤ inner.startRow
  endRow : inner.endRow ≤ outer.endRow
  start : (outer.stretch rows).1 ≤ (inner.stretch rows).1
  stop : (inner.stretch rows).2 ≤ (outer.stretch rows).2

theorem Encloses.refl (range : BodyRange) : Encloses rows range range :=
  ⟨Nat.le_refl _, Nat.le_refl _, Nat.le_refl _, Nat.le_refl _⟩

theorem Joined.mono {others : List BodyRange}
    (enclosed : ∀ range ∈ ranges, ∃ outer ∈ others, Encloses rows outer range) {offset : Nat}
    (joined : Joined rows ranges offset) : Joined rows others offset := by
  obtain ⟨left, isLeft, right, isRight, meets, started, notStopped⟩ := joined
  obtain ⟨outerLeft, isOuterLeft, overLeft⟩ := enclosed left isLeft
  obtain ⟨outerRight, isOuterRight, overRight⟩ := enclosed right isRight
  have leftRows := overLeft.endRow
  have leftStart := overLeft.start
  have rightRows := overRight.startRow
  have rightStop := overRight.stop
  exact ⟨outerLeft, isOuterLeft, outerRight, isOuterRight, by omega, by omega, by omega⟩

variable {current range : BodyRange} {rest : List BodyRange}

/-- A range that takes in a later one covers both. -/
theorem encloses_extend (currentWithin : current.Within rows) (rangeWithin : range.Within rows)
    (starts : current.StartsBefore range) :
    Encloses rows (current.extend range) current ∧ Encloses rows (current.extend range) range := by
  have startOrder := currentWithin.start_le_start starts
  have rowOrder : current.startRow ≤ range.startRow := by
    unfold BodyRange.StartsBefore at starts
    omega
  rcases BodyRange.extend_cases current range with ⟨same, ends⟩ | ⟨longer, ends⟩
  · have stopOrder := rangeWithin.stop_le_stop ends
    unfold BodyRange.EndsBefore at ends
    rw [same]
    exact ⟨Encloses.refl current, rowOrder, by omega, startOrder, stopOrder⟩
  · have stopOrder := currentWithin.stop_le_stop ends
    unfold BodyRange.EndsBefore at ends
    rw [longer]
    have endRows : current.endRow ≤ range.endRow := by omega
    exact ⟨⟨Nat.le_refl _, endRows, Nat.le_refl _, stopOrder⟩,
      rowOrder, Nat.le_refl _, startOrder, Nat.le_refl _⟩

/-- A range that takes in the next one covers just what the two join. -/
theorem joined_extend (sorted : (current :: range :: rest).Pairwise BodyRange.StartsBefore)
    (within : ∀ other ∈ current :: range :: rest, other.Within rows)
    (meets : range.startRow ≤ current.endRow) (offset : Nat) :
    Joined rows (current :: range :: rest) offset ↔
      Joined rows (current.extend range :: rest) offset := by
  have currentWithin := within current (by simp)
  have rangeWithin := within range (by simp)
  obtain ⟨first, tail⟩ := List.pairwise_cons.mp sorted
  obtain ⟨second, _⟩ := List.pairwise_cons.mp tail
  have starts := first range List.mem_cons_self
  constructor
  · intro joined
    obtain ⟨overCurrent, overRange⟩ := encloses_extend currentWithin rangeWithin starts
    refine joined.mono fun other member => ?_
    rcases List.mem_cons.mp member with rfl | member
    · exact ⟨_, List.mem_cons_self, overCurrent⟩
    · rcases List.mem_cons.mp member with rfl | isRest
      · exact ⟨_, List.mem_cons_self, overRange⟩
      · exact ⟨other, List.mem_cons_of_mem _ isRest, Encloses.refl other⟩
  · intro joined
    have inRest : ∀ other ∈ rest, other ∈ current :: range :: rest := by
      intro other isRest
      simp [isRest]
    rcases BodyRange.extend_cases current range with ⟨same, _⟩ | ⟨longer, _⟩
    · rw [same] at joined
      refine joined.mono fun other member => ⟨other, ?_, Encloses.refl other⟩
      rcases List.mem_cons.mp member with rfl | isRest
      · exact List.mem_cons_self
      · exact inRest other isRest
    · -- The merged range starts where the first one does and ends where the second one does.
      rw [longer] at joined
      obtain ⟨left, isLeft, right, isRight, overlaps, started, notStopped⟩ := joined
      have rangeOrder := rangeWithin.start_le_stop
      rcases List.mem_cons.mp isLeft with rfl | leftRest
      · rcases List.mem_cons.mp isRight with rfl | rightRest
        · exact ⟨current, by simp, range, by simp, meets, started, notStopped⟩
        · by_cases inRange : (range.stretch rows).1 ≤ offset
          · exact ⟨range, by simp, right, inRest right rightRest, overlaps, inRange, notStopped⟩
          · exact ⟨current, by simp, range, by simp, meets, started, by omega⟩
      · rcases List.mem_cons.mp isRight with rfl | rightRest
        · have after := second left leftRest
          have ordered := (within left (inRest left leftRest)).ordered
          unfold BodyRange.StartsBefore at after
          exact ⟨left, inRest left leftRest, range, by simp, by omega, started, notStopped⟩
        · exact ⟨left, inRest left leftRest, right, inRest right rightRest, overlaps, started,
            notStopped⟩

/-- A range that ends above the next one joins nothing with those after it. -/
theorem joined_apart (sorted : (current :: range :: rest).Pairwise BodyRange.StartsBefore)
    (within : ∀ other ∈ current :: range :: rest, other.Within rows)
    (above : current.endRow < range.startRow) (offset : Nat) :
    Joined rows (current :: range :: rest) offset ↔
      Covered rows [current] offset ∨ Joined rows (range :: rest) offset := by
  have currentWithin := within current (by simp)
  have later : ∀ other ∈ range :: rest, current.endRow < other.startRow := by
    intro other member
    rcases List.mem_cons.mp member with rfl | isRest
    · exact above
    · have after := (List.pairwise_cons.mp (List.pairwise_cons.mp sorted).2).1 other isRest
      unfold BodyRange.StartsBefore at after
      omega
  constructor
  · intro joined
    obtain ⟨left, isLeft, right, isRight, overlaps, started, notStopped⟩ := joined
    rcases List.mem_cons.mp isLeft with rfl | leftLater
    · rcases List.mem_cons.mp isRight with rfl | rightLater
      · exact Or.inl ⟨_, List.mem_singleton_self _, started, notStopped⟩
      · have below := later right rightLater
        omega
    · rcases List.mem_cons.mp isRight with rfl | rightLater
      · have stopped := currentWithin.stop_lt_start (later left leftLater)
        omega
      · exact Or.inr ⟨left, leftLater, right, rightLater, overlaps, started, notStopped⟩
  · intro hidden
    rcases hidden with ⟨only, isCurrent, started, notStopped⟩ | joined
    · rw [List.mem_singleton.mp isCurrent] at started notStopped
      have ordered := currentWithin.ordered
      exact ⟨current, by simp, current, by simp, by omega, started, notStopped⟩
    · exact joined.mono fun other member =>
        ⟨other, List.mem_cons_of_mem _ member, Encloses.refl other⟩

theorem covered_mergeInto (sorted : (current :: rest).Pairwise BodyRange.StartsBefore)
    (within : ∀ other ∈ current :: rest, other.Within rows) (offset : Nat) :
    Covered rows (mergeInto current rest) offset ↔ Joined rows (current :: rest) offset := by
  induction rest generalizing current with
  | nil =>
      have ordered := (within current List.mem_cons_self).ordered
      have rowOrder : current.startRow ≤ current.endRow := by omega
      simp [mergeInto, Covered, Joined, rowOrder]
  | cons next later inductionHypothesis =>
      obtain ⟨_, tail⟩ := List.pairwise_cons.mp sorted
      have laterWithin := fun other member => within other (List.mem_cons_of_mem current member)
      rw [mergeInto]
      split
      · next meets =>
          rw [inductionHypothesis (pairwise_extend sorted), joined_extend sorted within meets]
          intro other member
          rcases List.mem_cons.mp member with rfl | isLater
          · exact (within current (by simp)).extend (within next (by simp))
          · exact laterWithin other (List.mem_cons_of_mem next isLater)
      · next above =>
          rw [joined_apart sorted within (Nat.lt_of_not_le above),
            ← inductionHypothesis tail laterWithin]
          simp [Covered]

/-- The merged ranges cover the offsets in a range and those between two ranges on one row. -/
theorem covered_mergeRanges (within : ∀ range ∈ ranges, range.Within rows) (offset : Nat) :
    Covered rows (mergeRanges ranges) offset ↔
      Covered rows ranges offset ∨ Between rows ranges offset := by
  rw [← joined_iff within]
  rcases mergeRanges_cases ranges with ⟨nothing, none⟩ | ⟨first, rest, sorted, members, merged⟩
  · rw [none, nothing]
    simp [Covered, Joined]
  · have sortedWithin := fun range member => within range ((members range).mp member)
    rw [merged, covered_mergeInto sorted sortedWithin]
    simp only [Joined, members]

/-- The bytes outside of the merged ranges are in no range and not between two on one row. -/
theorem outside_mergeRanges (within : ∀ range ∈ ranges, range.Within rows) (offset : Nat) :
    Outside ((mergeRanges ranges).map (stretch rows)) offset ↔
      ¬ Covered rows ranges offset ∧ ¬ Between rows ranges offset := by
  rw [← not_or, ← covered_mergeRanges within]
  simp [Outside, Covered]

end BodyRange

/-! ## Skeletons without their placeholders -/

theorem length_piecesAround (text : List UInt8) (reached : Nat) (stretches : List (Nat × Nat)) :
    (piecesAround text reached stretches).length = stretches.length + 1 := by
  induction stretches generalizing reached with
  | nil => rfl
  | cons stretch rest inductionHypothesis =>
      rw [piecesAround, List.length_cons, inductionHypothesis, List.length_cons]

/-- Where ranges lie in a text, its skeleton has a placeholder for every merged range, and without
these placeholders it is the text without the bytes that are in a range or between two ranges on one
row. So what is left is the text without the ranges exactly if no byte outside of all ranges has the
end of one before it and the start of another one after it on its row. -/
theorem skeleton_keeps_rest (source : String) (ranges : List BodyRange)
    (within : ∀ range ∈ ranges, range.Within (split '\n' source)) :
    ∃ pieces : List (List UInt8),
      bytes (skeleton source ranges) = (bytes placeholder).intercalate pieces ∧
      pieces.length = (mergeRanges ranges).length + 1 ∧
      pieces.flatten =
        bytesWhere (fun offset => ¬ BodyRange.Covered (split '\n' source) ranges offset ∧
          ¬ BodyRange.Between (split '\n' source) ranges offset) 0 (bytes source) ∧
      (pieces.flatten =
          bytesWhere (fun offset => ¬ BodyRange.Covered (split '\n' source) ranges offset) 0
            (bytes source) ↔
        ∀ offset, offset < (bytes source).length →
          BodyRange.Between (split '\n' source) ranges offset →
            BodyRange.Covered (split '\n' source) ranges offset) := by
  let stretches := (mergeRanges ranges).map (BodyRange.stretch (split '\n' source))
  have kept : (piecesAround (bytes source) 0 stretches).flatten =
      bytesWhere (fun offset => ¬ BodyRange.Covered (split '\n' source) ranges offset ∧
        ¬ BodyRange.Between (split '\n' source) ranges offset) 0 (bytes source) := by
    have outside := BodyRange.outside_mergeRanges within
    rw [flatten_piecesAround (stretches_inside within) (pairwise_stretches within)
      fun stretch _ => Nat.zero_le stretch.1, List.drop_zero]
    exact (bytesWhere_eq_iff (fun offset => (outside offset).mp) 0 (bytes source)).mpr
      fun offset _ _ => (outside offset).mpr
  refine ⟨piecesAround (bytes source) 0 stretches, bytes_skeleton within, ?_, kept, ?_⟩
  · rw [length_piecesAround, List.length_map]
  · rw [kept, bytesWhere_eq_iff (fun _ both => both.1)]
    refine forall_congr' fun offset => ?_
    constructor
    · intro keeps inside between
      refine Classical.byContradiction fun uncovered => ?_
      exact (keeps (Nat.zero_le offset) (by omega) uncovered).2 between
    · intro covers _ inside uncovered
      exact ⟨uncovered, fun between => uncovered (covers (by omega) between)⟩

/-- No two bodies of this source meet on a row, so nothing but the bodies goes. -/
theorem nestedBodies_rest_kept :
    (∀ range ∈ nestedBodies, range.Within (split '\n' nestedSource)) ∧
      ∃ pieces : List (List UInt8),
        bytes (skeleton nestedSource nestedBodies) = (bytes placeholder).intercalate pieces ∧
        pieces.flatten =
          bytesWhere (fun offset =>
            ¬ BodyRange.Covered (split '\n' nestedSource) nestedBodies offset) 0
            (bytes nestedSource) := by
  obtain ⟨pieces, joined, _, _, rest⟩ :=
    skeleton_keeps_rest nestedSource nestedBodies nestedBodies_within
  refine ⟨nestedBodies_within, pieces, joined, rest.mpr ?_⟩
  have alone : ∀ left ∈ nestedBodies, ∀ right ∈ nestedBodies,
      left.endRow = right.startRow → left = right := by
    decide
  intro offset _ between
  obtain ⟨left, isLeft, right, isRight, sameRow, stopped, notStarted⟩ := between
  have ordered := (nestedBodies_within left isLeft).start_le_stop
  rw [← alone left isLeft right isRight sameRow] at notStarted
  omega

/-! ### Two methods on one row -/

def shortClass : String :=
  "class A \x7b m() \x7b a(); \x7d n() \x7b b(); \x7d \x7d\n"

def shortBodies : List BodyRange :=
  [⟨0, 14, 0, 22⟩, ⟨0, 27, 0, 35⟩]

theorem mem_intercalate_of_mem_flatten {separator : List UInt8} {pieces : List (List UInt8)}
    {byte : UInt8} (member : byte ∈ pieces.flatten) : byte ∈ separator.intercalate pieces := by
  induction pieces with
  | nil => exact absurd member List.not_mem_nil
  | cons first rest inductionHypothesis =>
      cases rest with
      | nil => simpa using member
      | cons second more =>
          rw [List.flatten_cons, List.mem_append] at member
          rw [List.intercalate_cons_cons, List.mem_append, List.mem_append]
          rcases member with inFirst | inRest
          · exact Or.inl (Or.inl inFirst)
          · exact Or.inr (inductionHypothesis inRest)

/-- The bodies of two methods on one row lie in the text, one after the other. With them the name of
the second method goes, though it is in no body. -/
theorem method_between_bodies_is_lost :
    Extract.bodiesUnder (Source.parse { types := true, elements := false } shortClass) =
        shortBodies ∧
      (∀ range ∈ shortBodies, range.Within (split '\n' shortClass)) ∧
      (shortBodies.Pairwise fun left right =>
        (left.stretch (split '\n' shortClass)).2 ≤ (right.stretch (split '\n' shortClass)).1) ∧
      skeleton shortClass shortBodies = "class A \x7b m() \x7b ... \x7d \x7d\n" ∧
      ¬ ∃ pieces : List (List UInt8),
        bytes (skeleton shortClass shortBodies) = (bytes placeholder).intercalate pieces ∧
        pieces.flatten =
          bytesWhere (fun offset =>
            ¬ BodyRange.Covered (split '\n' shortClass) shortBodies offset) 0
            (bytes shortClass) := by
  have values :
      Extract.bodiesUnder (Source.parse { types := true, elements := false } shortClass) =
        shortBodies ∧
      split '\n' shortClass = ["class A \x7b m() \x7b a(); \x7d n() \x7b b(); \x7d \x7d", ""] ∧
      (shortBodies.Pairwise fun left right =>
        (left.stretch (split '\n' shortClass)).2 ≤ (right.stretch (split '\n' shortClass)).1) ∧
      110 ∈ bytesWhere (fun offset =>
        ¬ BodyRange.Covered (split '\n' shortClass) shortBodies offset) 0 (bytes shortClass) ∧
      ¬ 110 ∈ bytes "class A \x7b m() \x7b ... \x7d \x7d\n" := by
    decide +kernel
  obtain ⟨bodies, rows, apart, inSource, notInSkeleton⟩ := values
  have collapsed : skeleton shortClass shortBodies =
      "class A \x7b m() \x7b ... \x7d \x7d\n" := by
    rw [skeleton, mergeRanges, sortRanges_eq (List.Perm.refl shortBodies) (by decide)]
    decide +kernel
  refine ⟨bodies, ?_, apart, collapsed, ?_⟩
  · rw [rows]
    intro range member
    simp only [shortBodies, List.mem_cons, List.not_mem_nil, or_false] at member
    rcases member with rfl | rfl
    · exact ⟨⟨"class A \x7b m() ", "\x7b a(); \x7d n() \x7b b(); \x7d \x7d", by decide, by decide⟩,
        ⟨"class A \x7b m() \x7b a(); \x7d", " n() \x7b b(); \x7d \x7d", by decide, by decide⟩,
        by decide⟩
    · exact ⟨⟨"class A \x7b m() \x7b a(); \x7d n() ", "\x7b b(); \x7d \x7d", by decide, by decide⟩,
        ⟨"class A \x7b m() \x7b a(); \x7d n() \x7b b(); \x7d", " \x7d", by decide, by decide⟩,
        by decide⟩
  · intro claimed
    obtain ⟨pieces, joined, rest⟩ := claimed
    rw [collapsed] at joined
    rw [← rest] at inSource
    -- The letter of the method is in a piece and not in the skeleton.
    exact notInSkeleton (joined ▸ mem_intercalate_of_mem_flatten inSource)

end CodeIndex
