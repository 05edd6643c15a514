import CodeIndex.Specifier

/-!
Contract: the files that a stem leads to, by their paths.

Owns:
- `Text.splitLast?_eq_some`, `Text.stripEnd?_eq_some`: texts cut near their end;
- `Specifier.exists_ending`: what a path has after its stem;
- `Specifier.mem_fileStems`: the stems of a file;
- `Specifier.modulePaths`: the paths that a stem can lead to, in the order of texts.

A stem leads to at most eighteen paths, whatever files exist. The paths beside the stem come before
the paths in its directory, since a dot comes before a slash, and each group follows the alphabet.
-/

set_option autoImplicit false

namespace CodeIndex

/-! ## Cuts near the end -/

namespace Text

theorem splitLastCharacter?_eq_none (separator : Char) (characters : List Char) :
    splitLastCharacter? separator characters = none ↔ separator ∉ characters := by
  induction characters with
  | nil => simp [splitLastCharacter?]
  | cons first rest inductionHypothesis =>
      rw [splitLastCharacter?]
      cases found : splitLastCharacter? separator rest with
      | none =>
          have absent : separator ∉ rest := inductionHypothesis.mp found
          simp [absent, eq_comm]
      | some sides =>
          have present : ¬ separator ∉ rest := by
            rw [← inductionHypothesis, found]
            simp
          simpa using fun _ => Decidable.not_not.mp present

theorem splitLastCharacter?_append (separator : Char) (before : List Char) {after : List Char}
    (absent : separator ∉ after) :
    splitLastCharacter? separator (before ++ separator :: after) = some (before, after) := by
  induction before with
  | nil =>
      rw [List.nil_append, splitLastCharacter?,
        (splitLastCharacter?_eq_none separator after).mpr absent]
      simp
  | cons first rest inductionHypothesis =>
      rw [List.cons_append, splitLastCharacter?, inductionHypothesis]

theorem eq_append_of_splitLastCharacter? {separator : Char} {characters before after : List Char}
    (found : splitLastCharacter? separator characters = some (before, after)) :
    characters = before ++ separator :: after ∧ separator ∉ after := by
  induction characters generalizing before with
  | nil => cases found
  | cons first rest inductionHypothesis =>
      rw [splitLastCharacter?] at found
      cases later : splitLastCharacter? separator rest with
      | some sides =>
          obtain ⟨inner, last⟩ := sides
          rw [later] at found
          cases found
          obtain ⟨cut, absent⟩ := inductionHypothesis later
          exact ⟨by rw [cut, List.cons_append], absent⟩
      | none =>
          rw [later] at found
          have absent := (splitLastCharacter?_eq_none separator rest).mp later
          by_cases same : first = separator
          · rw [same] at found ⊢
            simp only [if_true, Option.some.injEq, Prod.mk.injEq] at found
            obtain ⟨rfl, rfl⟩ := found
            exact ⟨rfl, absent⟩
          · simp [same] at found

/-- The last separator is the one with none behind it. -/
theorem splitLast?_eq_some (separator : Char) (text before after : String) :
    splitLast? separator text = some (before, after) ↔
      text.toList = before.toList ++ separator :: after.toList ∧ separator ∉ after.toList := by
  unfold splitLast?
  constructor
  · intro found
    cases cut : splitLastCharacter? separator text.toList with
    | none =>
        rw [cut] at found
        cases found
    | some sides =>
        rw [cut] at found
        cases found
        simpa using eq_append_of_splitLastCharacter? cut
  · intro cut
    rw [cut.1, splitLastCharacter?_append separator before.toList cut.2]
    simp

theorem stripCharacters?_eq_some (start characters rest : List Char) :
    stripCharacters? start characters = some rest ↔ characters = start ++ rest := by
  induction start generalizing characters with
  | nil => simp [stripCharacters?]
  | cons expected start inductionHypothesis =>
      cases characters with
      | nil => simp [stripCharacters?]
      | cons character others =>
          rw [stripCharacters?]
          by_cases same : expected = character
          · simp [same, inductionHypothesis]
          · simp [same, Ne.symm same]

theorem stripEnd?_eq_some (stop text rest : String) :
    stripEnd? stop text = some rest ↔ text = rest ++ stop := by
  unfold stripEnd?
  rw [Option.map_eq_some_iff]
  constructor
  · intro found
    obtain ⟨reversed, stripped, rfl⟩ := found
    rw [stripCharacters?_eq_some] at stripped
    apply String.toList_injective
    simpa using congrArg List.reverse stripped
  · intro ends
    refine ⟨rest.toList.reverse, ?_, by simp⟩
    rw [stripCharacters?_eq_some, ends]
    simp

end Text

namespace Specifier

/-! ## Extensions -/

/-- What can follow a stem in a path, in the order of texts: nothing, or an extension that a
specifier may leave out. -/
def endings : List String :=
  ["", ".cjs", ".cts", ".js", ".jsx", ".mjs", ".mts", ".ts", ".tsx"]

theorem endings_perm : endings.Perm ("" :: sourceExtensions.map ("." ++ ·)) := by
  decide

/-- A path is what is left of it without its extension, with one of the endings. -/
theorem exists_ending (path : String) :
    ∃ ending ∈ endings, path = stripSourceExtension path ++ ending := by
  have listed (ending : String) :
      ending ∈ endings ↔
        ending = "" ∨ ∃ extension ∈ sourceExtensions, "." ++ extension = ending := by
    rw [endings_perm.mem_iff, List.mem_cons, List.mem_map]
  unfold stripSourceExtension
  cases cut : Text.splitLast? '.' path with
  | none => exact ⟨"", (listed "").mpr (Or.inl rfl), String.append_empty.symm⟩
  | some sides =>
      obtain ⟨base, extension⟩ := sides
      dsimp only
      split
      · next stripped =>
          rw [Bool.and_eq_true, List.contains_iff_mem] at stripped
          refine ⟨"." ++ extension, (listed _).mpr (Or.inr ⟨extension, stripped.2, rfl⟩), ?_⟩
          apply String.toList_injective
          simpa using ((Text.splitLast?_eq_some '.' path base extension).mp cut).1
      · exact ⟨"", (listed "").mpr (Or.inl rfl), String.append_empty.symm⟩

/-! ## Stems -/

/-- A file is led to by its path without the extension, and by its directory if it is the index
there. -/
theorem mem_fileStems (path stem : String) :
    stem ∈ fileStems path ↔
      stripSourceExtension path = stem ∨ stripSourceExtension path = stem ++ "/index" := by
  dsimp only [fileStems]
  split
  · next directory found =>
      have inside : stripSourceExtension path = directory ++ "/index" :=
        (Text.stripEnd?_eq_some _ _ _).mp found
      simp only [List.mem_cons, List.not_mem_nil, or_false, inside, String.append_left_inj,
        @eq_comm _ stem]
  · next missing =>
      have outside : ¬ stripSourceExtension path = stem ++ "/index" := by
        intro inside
        have found := (Text.stripEnd?_eq_some "/index" _ stem).mpr inside
        exact Option.some_ne_none stem (found.symm.trans missing)
      simp only [List.mem_singleton, outside, or_false, @eq_comm _ stem]

/-- The paths that a stem can lead to, in the order of texts: beside the stem, then in its
directory. -/
def modulePaths (stem : String) : List String :=
  endings.map (stem ++ ·) ++ endings.map (stem ++ "/index" ++ ·)

theorem mem_modulePaths_of_mem_fileStems {path stem : String} (leads : stem ∈ fileStems path) :
    path ∈ modulePaths stem := by
  obtain ⟨ending, known, whole⟩ := exists_ending path
  rw [modulePaths, List.mem_append, List.mem_map, List.mem_map]
  obtain beside | inside := (mem_fileStems path stem).mp leads
  · exact Or.inl ⟨ending, known, by rw [whole, beside]⟩
  · exact Or.inr ⟨ending, known, by rw [whole, inside]⟩

theorem append_lt_append (stem : String) {left right : String} (before : left < right) :
    stem ++ left < stem ++ right := by
  rw [String.lt_iff] at before ⊢
  rw [String.toList_append, String.toList_append]
  exact List.append_left_lt before

/-- A dot comes before a slash. -/
theorem beside_lt_inside (stem : String) {left right : String} (beside : left ∈ endings)
    (inside : right ∈ endings) : stem ++ left < stem ++ "/index" ++ right := by
  have before : ∀ left ∈ endings, ∀ right ∈ endings, left < "/index" ++ right := by decide
  rw [String.append_assoc]
  exact append_lt_append stem (before left beside right inside)

theorem pairwise_modulePaths (stem : String) : (modulePaths stem).Pairwise (· < ·) := by
  have ordered (base : String) : (endings.map (base ++ ·)).Pairwise (· < ·) := by
    have sorted : endings.Pairwise (· < ·) := by decide
    rw [List.pairwise_map]
    exact sorted.imp (append_lt_append base)
  rw [modulePaths, List.pairwise_append]
  refine ⟨ordered stem, ordered (stem ++ "/index"), ?_⟩
  intro beside besideListed inside insideListed
  obtain ⟨left, leftKnown, rfl⟩ := List.mem_map.mp besideListed
  obtain ⟨right, rightKnown, rfl⟩ := List.mem_map.mp insideListed
  exact beside_lt_inside stem leftKnown rightKnown

end Specifier

end CodeIndex
