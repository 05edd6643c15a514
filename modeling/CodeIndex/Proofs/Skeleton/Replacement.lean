import CodeIndex.Proofs.Skeleton.Merge
import CodeIndex.Proofs.Skeleton.Places

/-!
Contract: a skeleton is its source with the merged ranges replaced.

Owns:
- `BodyRange.Within`: a range that lies in a text;
- `Text.piecesAround`: what is left of a text when stretches are taken out;
- `fedBytes_collapseFrom`: the rows from one on, with the ranges below it replaced;
- `skeleton_replaces_merged`: the bytes and the number of rows of a skeleton.

The rows are walked from top to bottom, while the pieces are cut out by byte offsets. The two meet
at the beginning of each row: what is left there of the rows is what is left there of the bytes.
-/

set_option autoImplicit false

namespace CodeIndex

open Text

/-! ## Ranges in a text -/

namespace BodyRange

/-- A range lies in rows of text: it starts and ends at places of them, and does not end before it
starts. -/
structure Within (range : BodyRange) (rows : List String) : Prop where
  start : IsPlace rows range.startRow range.startColumn
  stop : IsPlace rows range.endRow range.endColumn
  ordered : range.startRow < range.endRow ∨
    (range.startRow = range.endRow ∧ range.startColumn ≤ range.endColumn)

/-- The bytes at which a range starts and stops. -/
def stretch (rows : List String) (range : BodyRange) : Nat × Nat :=
  (placeOffset rows range.startRow range.startColumn, placeOffset rows range.endRow range.endColumn)

section Stretch

variable {rows : List String} {range : BodyRange}

theorem Within.start_le_stop (within : range.Within rows) :
    (range.stretch rows).1 ≤ (range.stretch rows).2 :=
  within.start.offset_le within.ordered

theorem Within.start_le_start (within : range.Within rows) {other : BodyRange}
    (before : range.StartsBefore other) :
    (range.stretch rows).1 ≤ (other.stretch rows).1 :=
  within.start.offset_le before

theorem Within.stop_le_stop (within : range.Within rows) {other : BodyRange}
    (before : range.EndsBefore other) :
    (range.stretch rows).2 ≤ (other.stretch rows).2 :=
  within.stop.offset_le before

/-- A range that ends on an earlier row stops before another one starts. -/
theorem Within.stop_lt_start (within : range.Within rows) {other : BodyRange}
    (above : range.endRow < other.startRow) :
    (range.stretch rows).2 < (other.stretch rows).1 :=
  Nat.lt_of_lt_of_le (within.stop.offset_lt above) (Nat.le_add_right _ _)

theorem Within.stop_le_length {source : String} (within : range.Within (split '\n' source)) :
    (range.stretch (split '\n' source)).2 ≤ (bytes source).length := by
  have ended : (range.stretch (split '\n' source)).2 <
      rowOffset (split '\n' source) (split '\n' source).length :=
    within.stop.offset_lt within.stop.row_lt
  rw [rowOffset_eq, List.take_length, fedBytes_eq_cons (split_ne_nil '\n' source), join_split,
    List.length_cons] at ended
  omega

end Stretch

/-- A range that takes in a later one still lies in the text. -/
theorem Within.extend {rows : List String} {left right : BodyRange} (leftWithin : left.Within rows)
    (rightWithin : right.Within rows) : (left.extend right).Within rows := by
  have leftOrdered := leftWithin.ordered
  rcases extend_cases left right with ⟨same, _⟩ | ⟨longer, beyond⟩
  · rw [same]
    exact leftWithin
  · rw [longer]
    refine ⟨leftWithin.start, rightWithin.stop, ?_⟩
    unfold EndsBefore at beyond
    show left.startRow < right.endRow ∨
      (left.startRow = right.endRow ∧ left.startColumn ≤ right.endColumn)
    omega

end BodyRange

theorem within_mergeRanges {rows : List String} {ranges : List BodyRange}
    (within : ∀ range ∈ ranges, range.Within rows) :
    ∀ range ∈ mergeRanges ranges, range.Within rows :=
  mergeRanges_induction (fun _ _ leftWithin rightWithin _ => leftWithin.extend rightWithin) within

/-! ## Pieces -/

namespace Text

/-- What is left of a text from a byte on, when stretches are taken out. Each stretch is given by
the bytes at which it starts and stops. -/
def piecesAround (text : List UInt8) (reached : Nat) : List (Nat × Nat) → List (List UInt8)
  | [] => [text.drop reached]
  | (start, stop) :: rest => text.extract reached start :: piecesAround text stop rest

theorem intercalate_piecesAround_cons (filler text : List UInt8) (reached start stop : Nat)
    (rest : List (Nat × Nat)) :
    filler.intercalate (piecesAround text reached ((start, stop) :: rest)) =
      text.extract reached start ++ filler ++ filler.intercalate (piecesAround text stop rest) := by
  cases rest with
  | nil => exact List.intercalate_cons_cons
  | cons next later => exact List.intercalate_cons_cons

theorem extract_append_drop (text : List UInt8) {start stop : Nat} (forward : start ≤ stop) :
    text.extract start stop ++ text.drop stop = text.drop start := by
  have rest : text.drop stop = (text.drop start).drop (stop - start) := by
    rw [List.drop_drop, Nat.add_sub_cancel' forward]
  rw [List.extract_eq_take_drop, rest, List.take_append_drop]

theorem extract_append_extract (text : List UInt8) {start middle stop : Nat}
    (first : start ≤ middle) (second : middle ≤ stop) :
    text.extract start middle ++ text.extract middle stop = text.extract start stop := by
  have rest : text.drop middle = (text.drop start).drop (middle - start) := by
    rw [List.drop_drop, Nat.add_sub_cancel' first]
  have sum : stop - start = (middle - start) + (stop - middle) := by omega
  rw [List.extract_eq_take_drop, List.extract_eq_take_drop, List.extract_eq_take_drop, rest, sum,
    List.take_add]

/-- Bytes before the first stretch are kept. -/
theorem intercalate_piecesAround_advance (filler text : List UInt8) {reached middle : Nat}
    (forward : reached ≤ middle) {stretches : List (Nat × Nat)}
    (before : ∀ stretch ∈ stretches, middle ≤ stretch.1) :
    filler.intercalate (piecesAround text reached stretches) =
      text.extract reached middle ++ filler.intercalate (piecesAround text middle stretches) := by
  cases stretches with
  | nil =>
      rw [piecesAround, piecesAround, List.intercalate_singleton, List.intercalate_singleton,
        extract_append_drop text forward]
  | cons stretch rest =>
      rw [intercalate_piecesAround_cons, intercalate_piecesAround_cons,
        ← extract_append_extract text forward (before stretch List.mem_cons_self)]
      simp only [List.append_assoc]

/-- The stretch of a text with one more byte in front. -/
def moveStretch (stretch : Nat × Nat) : Nat × Nat :=
  (stretch.1 + 1, stretch.2 + 1)

theorem piecesAround_cons (byte : UInt8) (text : List UInt8) (reached : Nat)
    (stretches : List (Nat × Nat)) :
    piecesAround (byte :: text) (reached + 1) (stretches.map moveStretch) =
      piecesAround text reached stretches := by
  induction stretches generalizing reached with
  | nil => rfl
  | cons stretch rest inductionHypothesis =>
      rw [List.map_cons, piecesAround, moveStretch, piecesAround, inductionHypothesis]
      simp [List.extract_eq_take_drop]

/-- A byte in front of a text stays in front of it. -/
theorem intercalate_piecesAround_zero (filler : List UInt8) (byte : UInt8) (text : List UInt8)
    (stretches : List (Nat × Nat)) :
    filler.intercalate (piecesAround (byte :: text) 0 (stretches.map moveStretch)) =
      byte :: filler.intercalate (piecesAround text 0 stretches) := by
  have ahead : ∀ stretch ∈ stretches.map moveStretch, 1 ≤ stretch.1 := by
    intro stretch member
    obtain ⟨_, _, rfl⟩ := List.mem_map.mp member
    exact Nat.le_add_left 1 _
  rw [intercalate_piecesAround_advance filler _ (Nat.zero_le 1) ahead, piecesAround_cons]
  rfl

end Text

/-! ## Rows walked from top to bottom -/

theorem collapseFrom_nil (rows : List String) (row : Nat) :
    collapseFrom rows.toArray row [] = rows.drop row := by
  have whole : rows.extract row rows.length = rows.drop row := by
    rw [List.extract_eq_take_drop, ← List.length_drop, List.take_length]
  simp only [collapseFrom, List.extract_toArray, List.size_toArray, whole]

/-- The rows above a range are kept, and its own rows become one. -/
theorem collapseFrom_cons {rows : List String} {range : BodyRange} (row : Nat)
    (rest : List BodyRange) {before cut hidden after : String}
    (startFound : rows[range.startRow]? = some (before ++ cut))
    (startColumn : before.utf8ByteSize = range.startColumn)
    (stopFound : rows[range.endRow]? = some (hidden ++ after))
    (stopColumn : hidden.utf8ByteSize = range.endColumn) :
    collapseFrom rows.toArray row (range :: rest) =
      (rows.take range.startRow).drop row ++
        (before ++ placeholder ++ after) ::
          collapseFrom rows.toArray (range.endRow + 1) rest := by
  have between : rows.extract row range.startRow = (rows.take range.startRow).drop row := by
    rw [List.extract_eq_take_drop, List.drop_take]
  simp only [collapseFrom, collapsedLine, List.getElem?_toArray, startFound, stopFound,
    ← startColumn, ← stopColumn, beforeColumn_append, fromColumn_append, List.extract_toArray,
    between]

/-- The rows from one on, with the ranges below it replaced, are the bytes from its offset on with
the stretches of these ranges replaced. -/
theorem fedBytes_collapseFrom {rows : List String} {ranges : List BodyRange}
    (within : ∀ range ∈ ranges, range.Within rows)
    (apart : ranges.Pairwise fun left right => left.endRow < right.startRow)
    (row : Nat) (below : ∀ range ∈ ranges, row ≤ range.startRow) :
    fedBytes (collapseFrom rows.toArray row ranges) =
      (bytes placeholder).intercalate
        (piecesAround (fedBytes rows) (rowOffset rows row)
          ((ranges.map (BodyRange.stretch rows)).map moveStretch)) := by
  induction ranges generalizing row with
  | nil =>
      have rest := drop_rowOffset rows (Nat.le_max_left row rows.length)
      rw [List.take_of_length_le (Nat.le_max_right row rows.length)] at rest
      rw [collapseFrom_nil, List.map_nil, List.map_nil, piecesAround, List.intercalate_singleton,
        rest]
  | cons range rest inductionHypothesis =>
      obtain ⟨later, apart⟩ := List.pairwise_cons.mp apart
      have here := within range List.mem_cons_self
      have rowAbove := below range List.mem_cons_self
      have ended := here.stop.offset_lt (Nat.lt_succ_self range.endRow)
      obtain ⟨before, cut, startFound, startColumn⟩ := here.start
      obtain ⟨hidden, after, stopFound, stopColumn⟩ := here.stop
      have restBelow : ∀ stretch ∈ (rest.map (BodyRange.stretch rows)).map moveStretch,
          rowOffset rows (range.endRow + 1) ≤ stretch.1 := by
        intro stretch member
        obtain ⟨_, inner, rfl⟩ := List.mem_map.mp member
        obtain ⟨other, isRest, rfl⟩ := List.mem_map.mp inner
        have mono : rowOffset rows (range.endRow + 1) ≤ rowOffset rows other.startRow :=
          rowOffset_mono rows (later other isRest)
        show rowOffset rows (range.endRow + 1) ≤
          rowOffset rows other.startRow + other.startColumn + 1
        omega
      have toPlace := extract_to_place startFound rowAbove
      have fromPlace := extract_from_place stopFound
      rw [startColumn] at toPlace
      rw [stopColumn] at fromPlace
      rw [collapseFrom_cons row rest startFound startColumn stopFound stopColumn, fedBytes_append,
        fedBytes_cons, bytes_append, bytes_append,
        inductionHypothesis (fun other member => within other (List.mem_cons_of_mem _ member))
          apart (range.endRow + 1) (fun other member => later other member),
        List.map_cons, List.map_cons, BodyRange.stretch, moveStretch,
        intercalate_piecesAround_cons,
        intercalate_piecesAround_advance _ _ (Nat.succ_le_of_lt ended) restBelow]
      simp only [toPlace, fromPlace, List.append_assoc, List.cons_append]

/-! ## The number of rows -/

/-- The number of rows that go when ranges are replaced. -/
def hiddenRows : List BodyRange → Nat
  | [] => 0
  | range :: rest => (range.endRow - range.startRow) + hiddenRows rest

theorem length_collapseFrom {rows : List String} {ranges : List BodyRange}
    (within : ∀ range ∈ ranges, range.Within rows)
    (apart : ranges.Pairwise fun left right => left.endRow < right.startRow)
    {row : Nat} (inside : row ≤ rows.length) (below : ∀ range ∈ ranges, row ≤ range.startRow) :
    row + (collapseFrom rows.toArray row ranges).length + hiddenRows ranges = rows.length := by
  induction ranges generalizing row with
  | nil =>
      rw [collapseFrom_nil, List.length_drop, hiddenRows]
      omega
  | cons range rest inductionHypothesis =>
      obtain ⟨later, apart⟩ := List.pairwise_cons.mp apart
      have here := within range List.mem_cons_self
      have ordered := here.ordered
      have rowAbove := below range List.mem_cons_self
      have lastInside := here.stop.row_lt
      obtain ⟨before, cut, startFound, startColumn⟩ := here.start
      obtain ⟨hidden, after, stopFound, stopColumn⟩ := here.stop
      have left : range.endRow + 1 +
          (collapseFrom rows.toArray (range.endRow + 1) rest).length + hiddenRows rest =
            rows.length :=
        inductionHypothesis (fun other member => within other (List.mem_cons_of_mem _ member))
          apart lastInside (fun other member => later other member)
      rw [collapseFrom_cons row _ startFound startColumn stopFound stopColumn, hiddenRows,
        List.length_append, List.length_cons, List.length_drop, List.length_take]
      omega

/-- No row gets a line feed in it. -/
theorem not_mem_collapseFrom {rows : List String} (free : ∀ row ∈ rows, ¬ '\n' ∈ row.toList)
    {ranges : List BodyRange} (within : ∀ range ∈ ranges, range.Within rows) (row : Nat) :
    ∀ text ∈ collapseFrom rows.toArray row ranges, ¬ '\n' ∈ text.toList := by
  induction ranges generalizing row with
  | nil =>
      rw [collapseFrom_nil]
      exact fun text member => free text (List.mem_of_mem_drop member)
  | cons range rest inductionHypothesis =>
      have here := within range List.mem_cons_self
      obtain ⟨before, cut, startFound, startColumn⟩ := here.start
      obtain ⟨hidden, after, stopFound, stopColumn⟩ := here.stop
      have startFree := free _ (List.mem_of_getElem? startFound)
      have stopFree := free _ (List.mem_of_getElem? stopFound)
      rw [String.toList_append, List.mem_append, not_or] at startFree stopFree
      have fillerFree : ¬ '\n' ∈ placeholder.toList := by decide
      rw [collapseFrom_cons row _ startFound startColumn stopFound stopColumn]
      intro text member
      rcases List.mem_append.mp member with above | member
      · exact free text (List.mem_of_mem_take (List.mem_of_mem_drop above))
      · rcases List.mem_cons.mp member with rfl | later
        · simp [startFree.1, fillerFree, stopFree.2]
        · exact inductionHypothesis
            (fun other isRest => within other (List.mem_cons_of_mem _ isRest)) _ text later

/-! ## Skeletons -/

section Skeleton

variable {source : String} {ranges : List BodyRange}

theorem collapseFrom_ne_nil (within : ∀ range ∈ ranges, range.Within (split '\n' source)) :
    ¬ collapseFrom (split '\n' source).toArray 0 ranges = [] := by
  cases ranges with
  | nil =>
      rw [collapseFrom_nil, List.drop_zero]
      exact split_ne_nil '\n' source
  | cons range rest =>
      have here := within range List.mem_cons_self
      obtain ⟨before, cut, startFound, startColumn⟩ := here.start
      obtain ⟨hidden, after, stopFound, stopColumn⟩ := here.stop
      rw [collapseFrom_cons 0 rest startFound startColumn stopFound stopColumn]
      simp

/-- The bytes of a skeleton are those of its source around the merged ranges, with placeholders
between them. -/
theorem bytes_skeleton (within : ∀ range ∈ ranges, range.Within (split '\n' source)) :
    bytes (skeleton source ranges) =
      (bytes placeholder).intercalate (piecesAround (bytes source) 0
        ((mergeRanges ranges).map (BodyRange.stretch (split '\n' source)))) := by
  have mergedWithin := within_mergeRanges within
  have collapsed := fedBytes_collapseFrom mergedWithin (pairwise_mergeRanges ranges) 0
    (fun range _ => Nat.zero_le range.startRow)
  -- Both sides have the line feed in front that the texts do not have.
  rw [fedBytes_eq_cons (collapseFrom_ne_nil mergedWithin),
    fedBytes_eq_cons (split_ne_nil '\n' source), join_split, rowOffset,
    intercalate_piecesAround_zero] at collapsed
  exact (List.cons.inj collapsed).2

/-- A skeleton has as many rows less as the merged ranges have line feeds. -/
theorem length_split_skeleton (within : ∀ range ∈ ranges, range.Within (split '\n' source)) :
    (split '\n' (skeleton source ranges)).length + hiddenRows (mergeRanges ranges) =
      (split '\n' source).length := by
  have mergedWithin := within_mergeRanges within
  have free := not_mem_collapseFrom (fun row => not_mem_of_mem_split) mergedWithin 0
  have rows : split '\n' (skeleton source ranges) =
      collapseFrom (split '\n' source).toArray 0 (mergeRanges ranges) :=
    split_join_singleton (collapseFrom_ne_nil mergedWithin) free
  have count := length_collapseFrom mergedWithin (pairwise_mergeRanges ranges)
    (Nat.zero_le _) (fun range _ => Nat.zero_le range.startRow)
  rw [rows]
  omega

/-- The merged ranges follow each other in the text. -/
theorem pairwise_stretches (within : ∀ range ∈ ranges, range.Within (split '\n' source)) :
    ((mergeRanges ranges).map (BodyRange.stretch (split '\n' source))).Pairwise
      fun left right => left.2 < right.1 := by
  rw [List.pairwise_map]
  refine (pairwise_mergeRanges ranges).imp_of_mem ?_
  intro left right isMerged _ above
  exact (within_mergeRanges within left isMerged).stop_lt_start above

theorem stretches_inside (within : ∀ range ∈ ranges, range.Within (split '\n' source)) :
    ∀ stretch ∈ (mergeRanges ranges).map (BodyRange.stretch (split '\n' source)),
      stretch.1 ≤ stretch.2 ∧ stretch.2 ≤ (bytes source).length := by
  intro stretch member
  obtain ⟨range, isMerged, rfl⟩ := List.mem_map.mp member
  have inside := within_mergeRanges within range isMerged
  exact ⟨inside.start_le_stop, inside.stop_le_length⟩

end Skeleton

/-- Where ranges lie in a text, its skeleton is the text with a placeholder for every merged range,
from the byte it starts at to the byte it stops at, and with all other bytes as they were. The
merged ranges are stretches of the text that follow each other. Without ranges the text stays as it
is, and in any case the rows go that the merged ranges run into. -/
theorem skeleton_replaces_merged (source : String) (ranges : List BodyRange)
    (within : ∀ range ∈ ranges, range.Within (split '\n' source)) :
    let stretches := (mergeRanges ranges).map (BodyRange.stretch (split '\n' source))
    bytes (skeleton source ranges) =
        (bytes placeholder).intercalate (piecesAround (bytes source) 0 stretches) ∧
      (∀ stretch ∈ stretches, stretch.1 ≤ stretch.2 ∧ stretch.2 ≤ (bytes source).length) ∧
      (stretches.Pairwise fun left right => left.2 < right.1) ∧
      skeleton source [] = source ∧
      (split '\n' (skeleton source ranges)).length + hiddenRows (mergeRanges ranges) =
        (split '\n' source).length := by
  refine ⟨bytes_skeleton within, stretches_inside within, pairwise_stretches within, ?_,
    length_split_skeleton within⟩
  rw [skeleton, mergeRanges_nil, collapseFrom_nil, List.drop_zero, join_split]

/-! ### A body in another one, and one after it -/

def nestedSource : String :=
  "é = () => \x7b\n  f(() => \x7b g(); \x7d);\n\x7d; // ok\nh(() => \x7b i(); \x7d);\n"

/-- The bodies of the source, the last one first. -/
def nestedBodies : List BodyRange :=
  [⟨3, 8, 3, 16⟩, ⟨1, 10, 1, 18⟩, ⟨0, 11, 2, 1⟩]

theorem nestedBodies_within : ∀ range ∈ nestedBodies, range.Within (split '\n' nestedSource) := by
  have rows : split '\n' nestedSource =
      ["é = () => \x7b", "  f(() => \x7b g(); \x7d);", "\x7d; // ok",
        "h(() => \x7b i(); \x7d);", ""] := by
    decide +kernel
  rw [rows]
  intro range member
  simp only [nestedBodies, List.mem_cons, List.not_mem_nil, or_false] at member
  rcases member with rfl | rfl | rfl
  · exact ⟨⟨"h(() => ", "\x7b i(); \x7d);", by decide, by decide⟩,
      ⟨"h(() => \x7b i(); \x7d", ");", by decide, by decide⟩, by decide⟩
  · exact ⟨⟨"  f(() => ", "\x7b g(); \x7d);", by decide, by decide⟩,
      ⟨"  f(() => \x7b g(); \x7d", ");", by decide, by decide⟩, by decide⟩
  · exact ⟨⟨"é = () => ", "\x7b", by decide, by decide⟩,
      ⟨"\x7d", "; // ok", by decide, by decide⟩, by decide⟩

/-- The inner body goes with the outer one, and three of five rows are left. -/
theorem nestedBodies_replaced :
    (∀ range ∈ nestedBodies, range.Within (split '\n' nestedSource)) ∧
      mergeRanges nestedBodies = [⟨0, 11, 2, 1⟩, ⟨3, 8, 3, 16⟩] ∧
      bytes (skeleton nestedSource nestedBodies) =
        (bytes placeholder).intercalate (piecesAround (bytes nestedSource) 0
          ((mergeRanges nestedBodies).map (BodyRange.stretch (split '\n' nestedSource)))) ∧
      (split '\n' (skeleton nestedSource nestedBodies)).length = 3 := by
  have order : sortRanges nestedBodies = [⟨0, 11, 2, 1⟩, ⟨1, 10, 1, 18⟩, ⟨3, 8, 3, 16⟩] :=
    sortRanges_eq (by decide) (by decide)
  have merged : mergeRanges nestedBodies = [⟨0, 11, 2, 1⟩, ⟨3, 8, 3, 16⟩] := by
    rw [mergeRanges, order]
    decide
  have count : (split '\n' nestedSource).length = 5 := by decide +kernel
  obtain ⟨replaced, _, _, _, rows⟩ :=
    skeleton_replaces_merged nestedSource nestedBodies nestedBodies_within
  refine ⟨nestedBodies_within, merged, replaced, ?_⟩
  rw [merged, count] at rows
  exact Nat.add_right_cancel rows

end CodeIndex
