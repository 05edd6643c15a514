import CodeIndex.Proofs.Path.Walk

/-!
Contract: the normal form of a relative specifier, and where it leads.

Owns:
- `Specifier.isRelative_iff`: a specifier is relative by its first segment;
- `Specifier.exists_collapse`: collapsed segments are steps up and then names, and all that was left
  out are detours;
- `Specifier.normalSegments`, `Specifier.split_ofSegments`: the segments of a normal form;
- `Specifier.stem?_eq_none`: the specifiers that lead out of the workspace;
- `Specifier.normalize_leads_alike`: a specifier and its normal form lead to the same place.

Collapsing and following keep different stacks, one with the steps up that nothing makes good and
one that fails at them. They are not compared with each other: both only leave out detours, and a
walk does not notice that.
-/

set_option autoImplicit false

namespace CodeIndex

open CodeIndex.Path

/-! ## Texts and their parts -/

namespace Text

theorem splitCharacters_append_replicate (separator : Char) (characters : List Char)
    (count : Nat) :
    splitCharacters separator (characters ++ List.replicate count separator) =
      splitCharacters separator characters ++ List.replicate count [] := by
  induction count generalizing characters with
  | zero => simp
  | succ count inductionHypothesis =>
      have separators := inductionHypothesis []
      rw [List.nil_append] at separators
      rw [List.replicate_succ, splitCharacters_append, separators]
      rfl

theorem mem_toList_join (separator : String) (parts : List String) (character : Char) :
    character ∈ (join separator parts).toList ↔
      (∃ part ∈ parts, character ∈ part.toList) ∨
        (character ∈ separator.toList ∧ 1 < parts.length) := by
  induction parts with
  | nil => simp [join]
  | cons first rest inductionHypothesis =>
      cases rest with
      | nil => simp [join]
      | cons second others =>
          rw [join]
          · simp only [String.toList_append, List.mem_append, inductionHypothesis, List.mem_cons,
              List.length_cons]
            grind
          · simp

theorem trimCharacters_of_unspaced {characters : List Char}
    (unspaced : ∀ character ∈ characters, isBlank character = false) :
    trimCharacters characters = characters := by
  have kept : ∀ letters : List Char, (∀ letter ∈ letters, isBlank letter = false) →
      letters.dropWhile isBlank = letters := by
    intro letters unspaced
    cases letters with
    | nil => rfl
    | cons first rest => rw [List.dropWhile_cons_of_neg (by simp [unspaced first])]
  rw [trimCharacters, trimEndWhile, trimStartWhile, kept characters unspaced,
    kept characters.reverse fun letter member => unspaced letter (List.mem_reverse.mp member),
    List.reverse_reverse]

theorem trim_of_unspaced {text : String}
    (unspaced : ∀ character ∈ text.toList, isBlank character = false) : trim text = text := by
  rw [trim, trimCharacters_of_unspaced unspaced, String.ofList_toList]

end Text

namespace Specifier

/-! ## Relative specifiers -/

theorem free_split (text : String) : ∀ part ∈ Text.split '/' text, ¬ '/' ∈ part.toList :=
  fun _ member => Text.not_mem_of_mem_split member

/-- A specifier is relative if its first segment stays or leads up. -/
theorem isRelative_iff (specifier : String) :
    isRelative specifier = true ↔
      ∃ first rest, Text.split '/' specifier = first :: rest ∧ (first = "." ∨ first = "..") := by
  have segments : Text.split '/' "." = ["."] ∧ Text.split '/' ".." = [".."] := by decide
  have behind (start : String) (starts : Text.startsWith (start ++ "/") specifier = true) :
      ∃ rest, Text.split '/' specifier = Text.split '/' start ++ Text.split '/' rest := by
    obtain ⟨letters, spelled⟩ := List.isPrefixOf_iff_prefix.mp starts
    refine ⟨String.ofList letters, ?_⟩
    have whole : specifier = start ++ "/" ++ String.ofList letters := by
      apply String.toList_injective
      rw [String.toList_append, String.toList_ofList, spelled]
    rw [whole, Text.split_append]
  unfold isRelative
  simp only [Bool.or_eq_true, beq_iff_eq]
  constructor
  · rintro (((rfl | rfl) | starts) | starts)
    · exact ⟨".", [], segments.1, Or.inl rfl⟩
    · exact ⟨"..", [], segments.2, Or.inr rfl⟩
    · obtain ⟨rest, cut⟩ := behind "." starts
      exact ⟨".", _, by rw [cut, segments.1]; rfl, Or.inl rfl⟩
    · obtain ⟨rest, cut⟩ := behind ".." starts
      exact ⟨"..", _, by rw [cut, segments.2]; rfl, Or.inr rfl⟩
  · rintro ⟨first, rest, cut, isFirst⟩
    have whole : specifier = Text.join "/" (first :: rest) := by
      rw [← cut, Text.join_split_slash]
    cases rest with
    | nil =>
        rcases isFirst with rfl | rfl
        · exact Or.inl (Or.inl (Or.inl whole))
        · exact Or.inl (Or.inl (Or.inr whole))
    | cons second others =>
        have starts : Text.startsWith (first ++ "/") specifier = true := by
          rw [whole, Text.join, Text.startsWith, List.isPrefixOf_iff_prefix]
          · simp only [String.toList_append]
            exact List.prefix_append _ _
          · simp
        rcases isFirst with rfl | rfl
        · exact Or.inl (Or.inr starts)
        · exact Or.inr starts

/-! ## Collapsing -/

section Steps

variable {segment : String} {names : List String}

theorem collapseStep_of_idle (idle : segment = "" ∨ segment = ".") (above : List String) :
    collapseStep above segment = above :=
  if_pos idle

theorem collapseStep_of_clean (down : Clean segment) (above : List String) :
    collapseStep above segment = segment :: above := by
  simp [collapseStep, down.nonempty, down.notHere, down.notUp]

theorem collapseStep_up_of_clean (down : Clean segment) (above : List String) :
    collapseStep (segment :: above) ".." = above := by
  simp [collapseStep, down.notUp]

theorem collapseStep_up_replicate (levels : Nat) :
    collapseStep (List.replicate levels "..") ".." = List.replicate (levels + 1) ".." := by
  cases levels with
  | zero => rfl
  | succ levels => simp [collapseStep, List.replicate_succ]

/-- A step keeps the form of the segments so far, the last one first: names after steps up. What is
not kept is a detour. -/
theorem exists_collapseStep (free : ¬ '/' ∈ segment.toList)
    (clean : ∀ name ∈ names, Clean name) (levels : Nat) :
    ∃ left more, (∀ name ∈ left, Clean name) ∧
      collapseStep (names ++ List.replicate levels "..") segment =
        left ++ List.replicate more ".." ∧
      ∀ rest, Shortened ((names ++ List.replicate levels "..").reverse ++ segment :: rest)
        ((left ++ List.replicate more "..").reverse ++ rest) := by
  rcases segment_cases free with idle | rfl | down
  · refine ⟨names, levels, clean, collapseStep_of_idle idle _, fun rest => ?_⟩
    exact Relation.ReflTransGen.single (.stay _ _ idle)
  · cases names with
    | nil =>
        -- Nothing makes this step up good, so it stays.
        refine ⟨[], levels + 1, by simp, collapseStep_up_replicate levels, fun rest => ?_⟩
        rw [List.nil_append, List.nil_append, List.replicate_succ, List.reverse_cons,
          List.append_assoc]
        exact Relation.ReflTransGen.refl
    | cons last others =>
        -- The last name and the step up behind it are a detour.
        have lastClean : Clean last := clean last List.mem_cons_self
        refine ⟨others, levels, fun name member => clean name (List.mem_cons_of_mem last member),
          collapseStep_up_of_clean lastClean _, fun rest => ?_⟩
        rw [List.cons_append, List.reverse_cons, List.append_assoc]
        exact Relation.ReflTransGen.single (.detour _ _ lastClean)
  · refine ⟨segment :: names, levels, ?_, collapseStep_of_clean down _, fun rest => ?_⟩
    · exact List.forall_mem_cons.mpr ⟨down, clean⟩
    · rw [List.cons_append, List.reverse_cons, List.append_assoc]
      exact Relation.ReflTransGen.refl

theorem exists_foldl_collapseStep {segments : List String}
    (free : ∀ segment ∈ segments, ¬ '/' ∈ segment.toList)
    (clean : ∀ name ∈ names, Clean name) (levels : Nat) :
    ∃ left more, (∀ name ∈ left, Clean name) ∧
      segments.foldl collapseStep (names ++ List.replicate levels "..") =
        left ++ List.replicate more ".." ∧
      Shortened ((names ++ List.replicate levels "..").reverse ++ segments)
        (left ++ List.replicate more "..").reverse := by
  induction segments generalizing names levels with
  | nil =>
      refine ⟨names, levels, clean, rfl, ?_⟩
      rw [List.append_nil]
      exact Relation.ReflTransGen.refl
  | cons segment rest inductionHypothesis =>
      obtain ⟨next, height, nextClean, step, first⟩ :=
        exists_collapseStep (free segment List.mem_cons_self) clean levels
      obtain ⟨left, more, leftClean, steps, later⟩ := inductionHypothesis
        (fun other member => free other (List.mem_cons_of_mem segment member)) nextClean height
      exact ⟨left, more, leftClean, by rw [List.foldl_cons, step, steps], (first rest).trans later⟩

end Steps

/-- Collapsed segments are steps up and then names, and what is not in them are detours. -/
theorem exists_collapse {segments : List String}
    (free : ∀ segment ∈ segments, ¬ '/' ∈ segment.toList) :
    ∃ levels names, (∀ name ∈ names, Clean name) ∧
      collapse segments = List.replicate levels ".." ++ names ∧
      Shortened segments (List.replicate levels ".." ++ names) := by
  have nothing : ∀ name ∈ ([] : List String), Clean name := by simp
  obtain ⟨left, levels, clean, collapsed, short⟩ := exists_foldl_collapseStep free nothing 0
  have order : (left ++ List.replicate levels "..").reverse =
      List.replicate levels ".." ++ left.reverse := by
    rw [List.reverse_append, List.reverse_replicate]
  refine ⟨levels, left.reverse, fun name member => clean name (List.mem_reverse.mp member), ?_, ?_⟩
  · rw [← order, ← collapsed]
    rfl
  · rw [← order]
    exact short

/-- Nothing is left out of steps up and names below them. -/
theorem collapse_replicate_append (levels : Nat) {names : List String}
    (clean : ∀ name ∈ names, Clean name) :
    collapse (List.replicate levels ".." ++ names) = List.replicate levels ".." ++ names := by
  have climbed : ∀ more, (List.replicate levels "..").foldl collapseStep
      (List.replicate more "..") = List.replicate (levels + more) ".." := by
    induction levels with
    | zero => simp
    | succ levels inductionHypothesis =>
        intro more
        rw [List.replicate_succ, List.foldl_cons, collapseStep_up_replicate, inductionHypothesis]
        congr 1
        omega
  have descended : ∀ above, names.foldl collapseStep above = names.reverse ++ above := by
    induction names with
    | nil => simp
    | cons first rest inductionHypothesis =>
        intro above
        have later := inductionHypothesis
          fun name member => clean name (List.mem_cons_of_mem first member)
        rw [List.foldl_cons, collapseStep_of_clean (clean first List.mem_cons_self), later]
        simp
  have top := climbed 0
  rw [List.replicate_zero, Nat.add_zero] at top
  rw [collapse, List.foldl_append, top, descended, List.reverse_append, List.reverse_reverse,
    List.reverse_replicate]

theorem collapse_append_replicate (segments : List String) (count : Nat) :
    collapse (segments ++ List.replicate count "") = collapse segments := by
  have idle : ∀ above, (List.replicate count "").foldl collapseStep above = above := by
    induction count with
    | zero => simp
    | succ count inductionHypothesis =>
        intro above
        rw [List.replicate_succ, List.foldl_cons, collapseStep_of_idle (Or.inl rfl),
          inductionHypothesis]
  rw [collapse, List.foldl_append, idle, collapse]

/-! ## The normal form -/

theorem exists_dropTrailingSlashes (specifier : String) :
    ∃ count, specifier.toList =
      (dropTrailingSlashes specifier).toList ++ List.replicate count '/' := by
  unfold dropTrailingSlashes
  split
  · refine ⟨(specifier.toList.reverse.takeWhile (· == '/')).length, ?_⟩
    have slashes : specifier.toList.reverse.takeWhile (· == '/') =
        List.replicate (specifier.toList.reverse.takeWhile (· == '/')).length '/' := by
      refine List.eq_replicate_iff.mpr ⟨rfl, fun character member => ?_⟩
      have accepted := List.all_eq_true.mp (List.all_takeWhile (p := (· == '/'))
        (l := specifier.toList.reverse)) character member
      simpa using accepted
    have whole := congrArg List.reverse
      (List.takeWhile_append_dropWhile (p := (· == '/')) (l := specifier.toList.reverse))
    rw [List.reverse_reverse, List.reverse_append, slashes, List.reverse_replicate] at whole
    rw [String.toList_ofList, Text.trimEndWhile]
    exact whole.symm
  · exact ⟨0, by simp⟩

/-- Slashes at the end are empty segments, which say nothing. -/
theorem normalize_eq {specifier : String} (relative : isRelative specifier = true)
    (unspaced : ∀ character ∈ specifier.toList, Text.isBlank character = false) :
    normalize specifier = ofSegments (collapse (Text.split '/' specifier)) := by
  obtain ⟨count, slashes⟩ := exists_dropTrailingSlashes specifier
  have segments : Text.split '/' specifier =
      Text.split '/' (dropTrailingSlashes specifier) ++ List.replicate count "" := by
    rw [Text.split, slashes, Text.splitCharacters_append_replicate, List.map_append,
      List.map_replicate]
    rfl
  have stillRelative : isRelative (dropTrailingSlashes specifier) = true := by
    obtain ⟨first, rest, cut, isFirst⟩ := (isRelative_iff specifier).mp relative
    obtain ⟨head, tail, trimmed⟩ :
        ∃ head tail, Text.split '/' (dropTrailingSlashes specifier) = head :: tail :=
      List.exists_cons_of_ne_nil (by simp [Text.split, Text.splitCharacters_ne_nil])
    rw [segments, trimmed, List.cons_append] at cut
    exact (isRelative_iff _).mpr ⟨head, tail, trimmed, (List.cons.inj cut).1 ▸ isFirst⟩
  have nonempty : (dropTrailingSlashes specifier).isEmpty = false := by
    rw [Bool.eq_false_iff]
    intro empty
    rw [String.isEmpty_iff.mp empty] at stillRelative
    revert stillRelative
    decide
  unfold normalize
  simp only [Text.trim_of_unspaced unspaced, nonempty, stillRelative, if_true]
  rw [segments, collapse_append_replicate]
  rfl

/-- The segments of a normal form: steps up, or `.` if there is none, and then names. -/
def normalSegments (levels : Nat) (names : List String) : List String :=
  (if levels = 0 then ["."] else List.replicate levels "..") ++ names

theorem shortened_normalSegments (levels : Nat) (names : List String) :
    Shortened (normalSegments levels names) (List.replicate levels ".." ++ names) := by
  unfold normalSegments
  split
  · next none =>
      rw [none]
      exact Relation.ReflTransGen.single (.stay [] names (Or.inr rfl))
  · exact Relation.ReflTransGen.refl

theorem collapse_normalSegments (levels : Nat) {names : List String}
    (clean : ∀ name ∈ names, Clean name) :
    collapse (normalSegments levels names) = List.replicate levels ".." ++ names := by
  rw [← collapse_replicate_append levels clean, normalSegments]
  split
  · next none =>
      rw [none]
      rfl
  · rfl

/-- All segments of a normal form but the leading `.` say something. -/
theorem filter_normalSegments (levels : Nat) {names : List String}
    (clean : ∀ name ∈ names, Clean name) :
    (normalSegments levels names).filter (fun part => part != "" && part != ".") =
      List.replicate levels ".." ++ names := by
  have kept : (List.replicate levels ".." ++ names).filter
      (fun part => part != "" && part != ".") = List.replicate levels ".." ++ names := by
    rw [List.filter_eq_self]
    intro part member
    rcases List.mem_append.mp member with up | below
    · rw [List.eq_of_mem_replicate up]
      decide
    · simp [(clean part below).nonempty, (clean part below).notHere]
  rw [normalSegments]
  split
  · next none =>
      rw [none] at kept ⊢
      exact kept
  · exact kept

/-- A specifier is written with its segments. -/
theorem split_ofSegments (levels : Nat) {names : List String}
    (clean : ∀ name ∈ names, Clean name) :
    Text.split '/' (ofSegments (List.replicate levels ".." ++ names)) =
      normalSegments levels names := by
  have here : Text.split '/' "." = ["."] := by decide
  cases levels with
  | zero =>
      cases names with
      | nil => exact here
      | cons first rest =>
          have down : ¬ first = ".." := (clean first List.mem_cons_self).notUp
          have spelled : ofSegments (first :: rest) =
              "." ++ "/" ++ Text.join "/" (first :: rest) := by
            rw [ofSegments, if_neg down]
            rfl
          rw [List.replicate_zero, List.nil_append, spelled, Text.split_append, here,
            Text.split_join (by simp) fun step member => (clean step member).free]
          rfl
  | succ levels =>
      have free : ∀ step ∈ ".." :: (List.replicate levels ".." ++ names),
          ¬ '/' ∈ step.toList := by
        intro step member
        rw [← List.cons_append, ← List.replicate_succ] at member
        rcases List.mem_append.mp member with up | down
        · rw [List.eq_of_mem_replicate up]
          decide
        · exact (clean step down).free
      rw [List.replicate_succ, List.cons_append, ofSegments, if_pos rfl,
        Text.split_join (by simp) free]
      rfl

/-- The normal form of a specifier has the segments that are left without detours. -/
theorem exists_normalize {specifier : String} (relative : isRelative specifier = true)
    (unspaced : ∀ character ∈ specifier.toList, Text.isBlank character = false) :
    ∃ levels names, (∀ name ∈ names, Clean name) ∧
      normalize specifier = ofSegments (List.replicate levels ".." ++ names) ∧
      Text.split '/' (normalize specifier) = normalSegments levels names ∧
      Shortened (Text.split '/' specifier) (List.replicate levels ".." ++ names) := by
  obtain ⟨levels, names, clean, collapsed, short⟩ := exists_collapse (free_split specifier)
  have normal := normalize_eq relative unspaced
  rw [collapsed] at normal
  exact ⟨levels, names, clean, normal, by rw [normal, split_ofSegments levels clean], short⟩

/-- Apart from dots and slashes, all characters of a normal form are those of the specifier. -/
theorem unspaced_normalize {specifier : String} (relative : isRelative specifier = true)
    (unspaced : ∀ character ∈ specifier.toList, Text.isBlank character = false) :
    ∀ character ∈ (normalize specifier).toList, Text.isBlank character = false := by
  obtain ⟨levels, names, clean, _, segments, short⟩ := exists_normalize relative unspaced
  have given : ∀ name ∈ names, ∀ character ∈ name.toList, Text.isBlank character = false := by
    intro name member character inside
    have listed : name ∈ Text.split '/' specifier :=
      short.sublist.subset (List.mem_append_right _ member)
    apply unspaced
    rw [← Text.join_split_slash specifier, Text.mem_toList_join]
    exact Or.inl ⟨name, listed, inside⟩
  have plain : ∀ text ∈ [".", "..", "/"],
      text.toList.all (fun character => !Text.isBlank character) = true := by
    decide
  have dots : ∀ text ∈ [".", "..", "/"], ∀ character ∈ text.toList,
      Text.isBlank character = false := by
    intro text member character inside
    simpa using List.all_eq_true.mp (plain text member) character inside
  intro character inside
  rw [← Text.join_split_slash (normalize specifier), segments, Text.mem_toList_join]
    at inside
  rcases inside with ⟨part, member, inside⟩ | ⟨slash, _⟩
  · rcases List.mem_append.mp member with front | below
    · split at front
      · exact dots part (List.mem_singleton.mp front ▸ by simp) character inside
      · exact dots part (List.eq_of_mem_replicate front ▸ by simp) character inside
    · exact given part below character inside
  · exact dots "/" (by simp) character slash

theorem isRelative_of_split {specifier : String} {levels : Nat} {names : List String}
    (segments : Text.split '/' specifier = normalSegments levels names) :
    isRelative specifier = true := by
  rw [isRelative_iff, segments, normalSegments]
  cases levels with
  | zero => exact ⟨".", names, rfl, Or.inl rfl⟩
  | succ levels => exact ⟨"..", List.replicate levels ".." ++ names, rfl, Or.inr rfl⟩

/-! ## Where a specifier leads -/

theorem stem?_eq {specifier : String} (relative : isRelative specifier = true)
    (importer : String) :
    stem? importer specifier =
      ((Text.split '/' specifier).foldlM follow? (directoryOf importer)).bind fun place =>
        if place = [] then none
        else some (stripSourceExtension (Text.join "/" place.reverse)) := by
  rw [stem?, if_pos relative]
  cases (Text.split '/' specifier).foldlM follow? (directoryOf importer) with
  | none => rfl
  | some place => cases place <;> rfl

/-- A relative specifier leads nowhere if it climbs above the workspace on its way, or ends at the
workspace's directory, which is no file. -/
theorem stem?_eq_none {specifier : String} (relative : isRelative specifier = true)
    (importer : String) :
    stem? importer specifier = none ↔
      ¬ StaysInside (directoryOf importer).length (Text.split '/' specifier) ∨
        ascents (Text.split '/' specifier) =
          (directoryOf importer).length + descents (Text.split '/' specifier) := by
  rw [stem?_eq relative, ← exists_foldlM_follow? (free_split specifier)]
  cases followed : (Text.split '/' specifier).foldlM follow? (directoryOf importer) with
  | none => simp
  | some place =>
      have depth := length_foldlM_follow? (free_split specifier) followed
      have top : place = [] ↔ ascents (Text.split '/' specifier) =
          (directoryOf importer).length + descents (Text.split '/' specifier) := by
        rw [← List.length_eq_zero_iff]
        omega
      rw [← top]
      simp

/-- Normalizing a relative specifier without white space gives a relative specifier in normal form
that is its own normal form. It leads to the same place from every file, or to none: if the way goes
above the workspace or ends at its directory. -/
theorem normalize_leads_alike (importer : String) {specifier : String}
    (relative : isRelative specifier = true)
    (unspaced : ∀ character ∈ specifier.toList, Text.isBlank character = false) :
    isRelative (normalize specifier) = true ∧
      normalize (normalize specifier) = normalize specifier ∧
      (∃ levels names, (∀ name ∈ names, Clean name) ∧
        Text.split '/' (normalize specifier) = normalSegments levels names) ∧
      stem? importer (normalize specifier) = stem? importer specifier ∧
      (stem? importer specifier = none ↔
        ¬ StaysInside (directoryOf importer).length (Text.split '/' specifier) ∨
          ascents (Text.split '/' specifier) =
            (directoryOf importer).length + descents (Text.split '/' specifier)) := by
  obtain ⟨levels, names, clean, normal, segments, short⟩ := exists_normalize relative unspaced
  have stillRelative := isRelative_of_split segments
  have again : normalize (normalize specifier) = normalize specifier := by
    rw [normalize_eq stillRelative (unspaced_normalize relative unspaced), segments,
      collapse_normalSegments levels clean, normal]
  have alike : stem? importer (normalize specifier) = stem? importer specifier := by
    rw [stem?_eq stillRelative, stem?_eq relative, segments,
      foldlM_follow?_of_shortened (shortened_normalSegments levels names),
      foldlM_follow?_of_shortened short]
  exact ⟨stillRelative, again, ⟨levels, names, clean, segments⟩, alike,
    stem?_eq_none relative importer⟩

/-- A way with detours, a step up behind each of them and slashes at its end. -/
def windingSpecifier : String :=
  "./x/../../../y//z/./../b.js//"

theorem windingSpecifier_leads_alike :
    normalize windingSpecifier = "../../y/b.js" ∧
      stem? "src/lib/a.ts" windingSpecifier = some "y/b" ∧
      stem? "src/lib/a.ts" (normalize windingSpecifier) = some "y/b" ∧
      stem? "src/a.ts" (normalize windingSpecifier) = none ∧
      ¬ StaysInside 1 (Text.split '/' windingSpecifier) := by
  have facts : isRelative windingSpecifier = true ∧
      windingSpecifier.toList.all (fun character => !Text.isBlank character) = true ∧
      normalize windingSpecifier = "../../y/b.js" ∧
      stem? "src/lib/a.ts" windingSpecifier = some "y/b" ∧
      stem? "src/a.ts" windingSpecifier = none ∧
      ¬ ascents (Text.split '/' windingSpecifier) =
        1 + descents (Text.split '/' windingSpecifier) := by
    decide +kernel
  obtain ⟨relative, plain, normal, deep, shallow, below⟩ := facts
  have unspaced : ∀ character ∈ windingSpecifier.toList, Text.isBlank character = false := by
    intro character inside
    simpa using List.all_eq_true.mp plain character inside
  obtain ⟨_, _, _, deepAlike, _⟩ := normalize_leads_alike "src/lib/a.ts" relative unspaced
  obtain ⟨_, _, _, shallowAlike, nowhere⟩ := normalize_leads_alike "src/a.ts" relative unspaced
  exact ⟨normal, deep, deepAlike.trans deep, shallowAlike.trans shallow,
    (nowhere.mp shallow).resolve_right below⟩

end Specifier

end CodeIndex
