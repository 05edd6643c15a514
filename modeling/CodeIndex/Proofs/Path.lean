import CodeIndex.FileTree

/-!
Contract: paths cut into steps and put together again.

Owns:
- `Text.split_join_singleton`, `Text.join_singleton_split`: cutting and joining undo each other;
- `Path.Clean`: a step that is a name, so that it leads down;
- `Path.parts_join`, `FileTree.key_inj`: clean steps can be read off their path;
- `FileTree.stepsOf_clean`: the steps of any path are clean.
-/

set_option autoImplicit false

namespace CodeIndex

namespace Text

theorem splitCharacters_ne_nil (separator : Char) (characters : List Char) :
    ¬ splitCharacters separator characters = [] := by
  cases characters with
  | nil => simp [splitCharacters]
  | cons character rest =>
      rw [splitCharacters]
      split
      · simp
      · split <;> simp

theorem splitCharacters_append (separator : Char) (left right : List Char) :
    splitCharacters separator (left ++ separator :: right) =
      splitCharacters separator left ++ splitCharacters separator right := by
  induction left with
  | nil => simp [splitCharacters]
  | cons character rest inductionHypothesis =>
      rw [List.cons_append, splitCharacters, splitCharacters, inductionHypothesis]
      split
      · rfl
      · cases parts : splitCharacters separator rest with
        | nil => exact absurd parts (splitCharacters_ne_nil separator rest)
        | cons part more => rfl

theorem splitCharacters_of_not_mem {separator : Char} {characters : List Char}
    (free : ¬ separator ∈ characters) : splitCharacters separator characters = [characters] := by
  induction characters with
  | nil => rfl
  | cons character rest inductionHypothesis =>
      rw [List.mem_cons, not_or] at free
      obtain ⟨different, later⟩ := free
      rw [splitCharacters, if_neg (fun same => different same.symm), inductionHypothesis later]

theorem not_mem_of_mem_splitCharacters {separator : Char} {characters part : List Char}
    (member : part ∈ splitCharacters separator characters) : ¬ separator ∈ part := by
  induction characters generalizing part with
  | nil =>
      simp only [splitCharacters, List.mem_singleton] at member
      simp [member]
  | cons character rest inductionHypothesis =>
      rw [splitCharacters] at member
      split at member
      · rcases List.mem_cons.mp member with rfl | later
        · simp
        · exact inductionHypothesis later
      · next different =>
          cases parts : splitCharacters separator rest with
          | nil => exact absurd parts (splitCharacters_ne_nil separator rest)
          | cons first more =>
              simp only [parts, List.mem_cons] at member inductionHypothesis
              rcases member with rfl | later
              · have free := inductionHypothesis (Or.inl rfl)
                simp only [List.mem_cons, not_or]
                exact ⟨fun same => different same.symm, free⟩
              · exact inductionHypothesis (Or.inr later)

theorem split_append_singleton (separator : Char) (left right : String) :
    split separator (left ++ String.singleton separator ++ right) =
      split separator left ++ split separator right := by
  have characters : (left ++ String.singleton separator ++ right).toList =
      left.toList ++ separator :: right.toList := by
    simp
  rw [split, characters, splitCharacters_append, List.map_append]
  rfl

theorem split_append (left right : String) :
    split '/' (left ++ "/" ++ right) = split '/' left ++ split '/' right :=
  split_append_singleton '/' left right

theorem split_of_not_mem {separator : Char} {text : String} (free : ¬ separator ∈ text.toList) :
    split separator text = [text] := by
  rw [split, splitCharacters_of_not_mem free]
  simp

theorem not_mem_of_mem_split {separator : Char} {text part : String}
    (member : part ∈ split separator text) : ¬ separator ∈ part.toList := by
  obtain ⟨characters, inside, rfl⟩ := List.mem_map.mp member
  rw [String.toList_ofList]
  exact not_mem_of_mem_splitCharacters inside

theorem split_join_singleton {separator : Char} {parts : List String} (nonempty : ¬ parts = [])
    (free : ∀ part ∈ parts, ¬ separator ∈ part.toList) :
    split separator (join (String.singleton separator) parts) = parts := by
  induction parts with
  | nil => exact absurd rfl nonempty
  | cons first rest inductionHypothesis =>
      have firstFree := free first (by simp)
      cases rest with
      | nil => exact split_of_not_mem firstFree
      | cons second more =>
          rw [join, split_append_singleton, split_of_not_mem firstFree,
            inductionHypothesis (by simp)
              (fun part member => free part (List.mem_cons_of_mem first member))]
          · rfl
          · simp

theorem join_singleton_split (separator : Char) (text : String) :
    join (String.singleton separator) (split separator text) = text := by
  have whole : ∀ characters : List Char,
      join (String.singleton separator)
          ((splitCharacters separator characters).map String.ofList) =
        String.ofList characters := by
    intro characters
    induction characters with
    | nil => rfl
    | cons character rest inductionHypothesis =>
        rw [splitCharacters]
        cases parts : splitCharacters separator rest with
        | nil => exact absurd parts (splitCharacters_ne_nil separator rest)
        | cons part more =>
            rw [parts] at inductionHypothesis
            apply String.toList_inj.mp
            have rejoined := congrArg String.toList inductionHypothesis
            split
            · next isSeparator =>
                subst isSeparator
                simpa [join] using rejoined
            · cases more with
              | nil => simpa [join] using rejoined
              | cons second others => simpa [join] using rejoined
  have rejoined := whole text.toList
  rwa [String.ofList_toList] at rejoined

theorem split_join {steps : List String} (nonempty : ¬ steps = [])
    (free : ∀ step ∈ steps, ¬ '/' ∈ step.toList) : split '/' (join "/" steps) = steps :=
  split_join_singleton nonempty free

theorem join_split_slash (text : String) : join "/" (split '/' text) = text :=
  join_singleton_split '/' text

end Text

namespace Path

/-- A step that leads down: a name without a slash, and neither `.` nor `..`. -/
structure Clean (step : String) : Prop where
  nonempty : ¬ step = ""
  notHere : ¬ step = "."
  notUp : ¬ step = ".."
  free : ¬ '/' ∈ step.toList

theorem parts_join {steps : List String} (clean : ∀ step ∈ steps, Clean step) :
    parts (Text.join "/" steps) = steps := by
  cases steps with
  | nil => decide
  | cons first rest =>
      rw [parts, Text.split_join (by simp) fun step member => (clean step member).free]
      apply List.filter_eq_self.mpr
      intro step member
      simp [(clean step member).nonempty, (clean step member).notHere]

theorem join_inj {left right : List String} (leftClean : ∀ step ∈ left, Clean step)
    (rightClean : ∀ step ∈ right, Clean step)
    (same : Text.join "/" left = Text.join "/" right) : left = right := by
  rw [← parts_join leftClean, ← parts_join rightClean, same]

end Path

namespace FileTree

open CodeIndex.Path

theorem key_inj {left right : List String} (leftClean : ∀ step ∈ left, Clean step)
    (rightClean : ∀ step ∈ right, Clean step) (same : key left = key right) : left = right := by
  have reversed : left.reverse = right.reverse := by
    apply join_inj _ _ same
    · exact fun step member => leftClean step (List.mem_reverse.mp member)
    · exact fun step member => rightClean step (List.mem_reverse.mp member)
  simpa using congrArg List.reverse reversed

theorem follow?_clean {directory : List String} {segment : String} {reached : List String}
    (free : ¬ '/' ∈ segment.toList) (clean : ∀ step ∈ directory, Clean step)
    (followed : Specifier.follow? directory segment = some reached) :
    ∀ step ∈ reached, Clean step := by
  unfold Specifier.follow? at followed
  split at followed
  · exact Option.some.inj followed ▸ clean
  · next segmentIsName =>
      obtain ⟨nonempty, notHere⟩ := not_or.mp segmentIsName
      split at followed
      · cases directory with
        | nil => exact absurd followed (by simp)
        | cons last parent =>
            rw [← Option.some.inj followed]
            exact fun step member => clean step (List.mem_cons_of_mem last member)
      · next notUp =>
          rw [← Option.some.inj followed]
          intro step member
          rcases List.mem_cons.mp member with rfl | earlier
          · exact ⟨nonempty, notHere, notUp, free⟩
          · exact clean step earlier

theorem follow?_of_clean {step : String} (clean : Clean step) (directory : List String) :
    Specifier.follow? directory step = some (step :: directory) := by
  simp [Specifier.follow?, clean.nonempty, clean.notHere, clean.notUp]

theorem foldlM_follow?_clean {segments above reached : List String}
    (free : ∀ segment ∈ segments, ¬ '/' ∈ segment.toList) (clean : ∀ step ∈ above, Clean step)
    (followed : segments.foldlM Specifier.follow? above = some reached) :
    ∀ step ∈ reached, Clean step := by
  induction segments generalizing above with
  | nil =>
      rw [List.foldlM_nil] at followed
      exact Option.some.inj followed ▸ clean
  | cons segment rest inductionHypothesis =>
      rw [List.foldlM_cons] at followed
      obtain ⟨next, first, later⟩ := Option.bind_eq_some_iff.mp followed
      apply inductionHypothesis _ _ later
      · exact fun other member => free other (List.mem_cons_of_mem segment member)
      · exact follow?_clean (free segment (by simp)) clean first

theorem foldlM_follow?_of_clean {steps : List String} (clean : ∀ step ∈ steps, Clean step)
    (above : List String) :
    steps.foldlM Specifier.follow? above = some (steps.reverse ++ above) := by
  induction steps generalizing above with
  | nil => rfl
  | cons first rest inductionHypothesis =>
      rw [List.foldlM_cons, follow?_of_clean (clean first (by simp))]
      have later := inductionHypothesis
        (fun step member => clean step (List.mem_cons_of_mem first member)) (first :: above)
      simpa using later

/-- Whatever a path says, its steps are clean. -/
theorem stepsOf_clean (path : String) : ∀ step ∈ stepsOf path, Clean step := by
  refine List.foldlRecOn (motive := fun steps : List String => ∀ step ∈ steps, Clean step)
    (Text.split '/' path) _ (by simp) ?_
  intro steps clean segment member
  cases followed : Specifier.follow? steps segment with
  | none => simpa using clean
  | some reached => exact follow?_clean (Text.not_mem_of_mem_split member) clean followed

/-- Clean steps after those of another path. -/
theorem stepsOf_append (path : String) {steps : List String} (nonempty : ¬ steps = [])
    (clean : ∀ step ∈ steps, Clean step) :
    stepsOf (path ++ "/" ++ Text.join "/" steps) = steps.reverse ++ stepsOf path := by
  have below : ∀ (steps : List String), (∀ step ∈ steps, Clean step) →
      ∀ directory, steps.foldl
        (fun steps segment => (Specifier.follow? steps segment).getD steps) directory =
          steps.reverse ++ directory := by
    intro steps clean
    induction steps with
    | nil => simp
    | cons first rest inductionHypothesis =>
        intro directory
        rw [List.foldl_cons, follow?_of_clean (clean first (by simp)), Option.getD_some,
          inductionHypothesis (fun step member => clean step (List.mem_cons_of_mem first member))]
        simp
  rw [stepsOf, Text.split_append, List.foldl_append,
    Text.split_join nonempty fun step member => (clean step member).free, below steps clean]
  rfl

end FileTree

end CodeIndex
