import CodeIndex.Proofs.Path
import Mathlib.Logic.Relation

/-!
Contract: where the segments of a path lead, said without a stack.

Owns:
- `Path.Shortened`: segments with detours left out, in any order, and `Path.shortened_parts`;
- `Path.StaysInside`: a walk that climbs no higher than it may, by counting its steps;
- `Path.foldlM_follow?_of_shortened`: a walk ends at the same place without its detours;
- `Path.foldlM_follow?_eq_some`: the place where a walk ends is all that is left of it;
- `Path.exists_foldlM_follow?`, `Path.length_foldlM_follow?`: which walks end anywhere, how deep.

A detour is a segment that stays where it is, or a name with a step up right behind it. A walk that
goes above the top has a step up that no name in front of it makes good, so it stays one however its
detours are left out.
-/

set_option autoImplicit false

namespace CodeIndex.Path

open Specifier

/-! ## Detours -/

instance : DecidablePred Clean := fun step =>
  decidable_of_iff (¬ step = "" ∧ ¬ step = "." ∧ ¬ step = ".." ∧ ¬ '/' ∈ step.toList)
    ⟨fun ⟨nonempty, notHere, notUp, free⟩ => ⟨nonempty, notHere, notUp, free⟩,
      fun clean => ⟨clean.nonempty, clean.notHere, clean.notUp, clean.free⟩⟩

/-- One detour is left out. -/
inductive Shortens : List String → List String → Prop
  | stay (before after : List String) {segment : String} (idle : segment = "" ∨ segment = ".") :
      Shortens (before ++ segment :: after) (before ++ after)
  | detour (before after : List String) {name : String} (down : Clean name) :
      Shortens (before ++ name :: ".." :: after) (before ++ after)

/-- Some detours are left out, one after the other. -/
def Shortened : List String → List String → Prop :=
  Relation.ReflTransGen Shortens

theorem Shortened.trans {first second third : List String} (left : Shortened first second)
    (right : Shortened second third) : Shortened first third :=
  Relation.ReflTransGen.trans left right

/-- What is left are some of the segments, in their order. -/
theorem Shortened.sublist {longer shorter : List String} (short : Shortened longer shorter) :
    shorter.Sublist longer := by
  induction short with
  | refl => exact List.Sublist.refl _
  | tail _ last inductionHypothesis =>
      refine List.Sublist.trans ?_ inductionHypothesis
      cases last with
      | stay before after idle =>
          exact (List.sublist_cons_self _ _).append_left before
      | detour before after down =>
          exact ((List.sublist_cons_self _ _).trans (List.sublist_cons_self _ _)).append_left before

/-- The parts of a path are its segments without those that stay. -/
theorem shortened_parts (path : String) : Shortened (Text.split '/' path) (parts path) := by
  have behind : ∀ segments front : List String, Shortened (front ++ segments)
      (front ++ segments.filter fun part => part != "" && part != ".") := by
    intro segments
    induction segments with
    | nil => exact fun front => Relation.ReflTransGen.refl
    | cons segment rest inductionHypothesis =>
        intro front
        by_cases idle : segment = "" ∨ segment = "."
        · rw [List.filter_cons_of_neg (by simpa [Decidable.or_iff_not_imp_left] using idle)]
          exact (inductionHypothesis front).head (.stay front rest idle)
        · rw [List.filter_cons_of_pos (by simpa using idle)]
          simpa using inductionHypothesis (front ++ [segment])
  exact behind (Text.split '/' path) []

/-- A segment stays, leads up or leads down. -/
theorem segment_cases {segment : String} (free : ¬ '/' ∈ segment.toList) :
    (segment = "" ∨ segment = ".") ∨ segment = ".." ∨ Clean segment := by
  by_cases idle : segment = "" ∨ segment = "."
  · exact Or.inl idle
  · obtain ⟨nonempty, notHere⟩ := not_or.mp idle
    by_cases up : segment = ".."
    · exact Or.inr (Or.inl up)
    · exact Or.inr (Or.inr ⟨nonempty, notHere, up, free⟩)

theorem follow?_of_idle {segment : String} (idle : segment = "" ∨ segment = ".")
    (directory : List String) : follow? directory segment = some directory :=
  if_pos idle

theorem foldlM_follow?_of_shortens {longer shorter : List String} (short : Shortens longer shorter)
    (directory : List String) :
    longer.foldlM follow? directory = shorter.foldlM follow? directory := by
  cases short with
  | stay before after idle =>
      simp only [List.foldlM_append, List.foldlM_cons, follow?_of_idle idle]
      rfl
  | detour before after down =>
      simp only [List.foldlM_append, List.foldlM_cons, FileTree.follow?_of_clean down]
      rfl

/-- A walk ends at the same place without its detours, or nowhere. -/
theorem foldlM_follow?_of_shortened {longer shorter : List String}
    (short : Shortened longer shorter) (directory : List String) :
    longer.foldlM follow? directory = shorter.foldlM follow? directory := by
  induction short with
  | refl => rfl
  | tail _ last inductionHypothesis =>
      rw [inductionHypothesis, foldlM_follow?_of_shortens last]

section Walk

variable {above reached : List String} {segment : String} {segments : List String}

/-- What a step makes of the steps so far is what is left of them and the step. -/
theorem shortened_follow? (clean : ∀ step ∈ above, Clean step)
    (followed : follow? above segment = some reached) (rest : List String) :
    Shortened (above.reverse ++ segment :: rest) (reached.reverse ++ rest) := by
  unfold follow? at followed
  split at followed
  · next idle =>
      cases followed
      exact Relation.ReflTransGen.single (.stay _ _ idle)
  · split at followed
    · next up =>
        cases above with
        | nil => cases followed
        | cons last parent =>
            cases followed
            have down : Clean last := clean last List.mem_cons_self
            rw [List.reverse_cons, List.append_assoc, up]
            exact Relation.ReflTransGen.single (.detour _ _ down)
    · cases followed
      rw [List.reverse_cons, List.append_assoc]
      exact Relation.ReflTransGen.refl

theorem shortened_foldlM_follow? (free : ∀ segment ∈ segments, ¬ '/' ∈ segment.toList)
    (clean : ∀ step ∈ above, Clean step)
    (followed : segments.foldlM follow? above = some reached) :
    Shortened (above.reverse ++ segments) reached.reverse := by
  induction segments generalizing above with
  | nil =>
      rw [List.foldlM_nil] at followed
      rw [Option.some.inj followed, List.append_nil]
      exact Relation.ReflTransGen.refl
  | cons segment rest inductionHypothesis =>
      rw [List.foldlM_cons] at followed
      obtain ⟨next, first, later⟩ := Option.bind_eq_some_iff.mp followed
      refine (shortened_follow? clean first rest).trans (inductionHypothesis ?_ ?_ later)
      · exact fun other member => free other (List.mem_cons_of_mem segment member)
      · exact FileTree.follow?_clean (free segment List.mem_cons_self) clean first

/-- The place where a walk from the top ends is what is left of it without detours, and has none. -/
theorem foldlM_follow?_eq_some (free : ∀ segment ∈ segments, ¬ '/' ∈ segment.toList)
    (place : List String) :
    segments.foldlM follow? [] = some place.reverse ↔
      Shortened segments place ∧ ∀ step ∈ place, Clean step := by
  constructor
  · intro followed
    have short := shortened_foldlM_follow? free (by simp) followed
    have clean := FileTree.foldlM_follow?_clean free (by simp) followed
    rw [List.reverse_nil, List.nil_append, List.reverse_reverse] at short
    exact ⟨short, fun step member => clean step (List.mem_reverse.mpr member)⟩
  · rintro ⟨short, clean⟩
    rw [foldlM_follow?_of_shortened short, FileTree.foldlM_follow?_of_clean clean,
      List.append_nil]

/-- A walk from a directory is one from the top that goes there first. -/
theorem foldlM_follow?_append {directory : List String} (clean : ∀ step ∈ directory, Clean step)
    (segments : List String) :
    (directory ++ segments).foldlM follow? [] = segments.foldlM follow? directory.reverse := by
  rw [List.foldlM_append, FileTree.foldlM_follow?_of_clean clean, List.append_nil]
  rfl

end Walk

/-! ## Depth -/

/-- How often segments lead up. -/
def ascents (segments : List String) : Nat :=
  segments.count ".."

/-- How often segments lead down. -/
def descents (segments : List String) : Nat :=
  segments.countP fun segment => decide (Clean segment)

/-- From so many levels below the top, no front part of the segments climbs above it. -/
def StaysInside (depth : Nat) (segments : List String) : Prop :=
  ∀ front, front <+: segments → ascents front ≤ depth + descents front

@[simp] theorem ascents_nil : ascents [] = 0 :=
  rfl

@[simp] theorem descents_nil : descents [] = 0 :=
  rfl

theorem counts_of_idle {segment : String} (idle : segment = "" ∨ segment = ".")
    (rest : List String) :
    ascents (segment :: rest) = ascents rest ∧ descents (segment :: rest) = descents rest := by
  have notUp : ¬ segment = ".." := by
    rintro rfl
    revert idle
    decide
  have notDown : ¬ Clean segment := fun down => idle.elim down.nonempty down.notHere
  constructor
  · rw [ascents, List.count_cons_of_ne notUp, ascents]
  · rw [descents, List.countP_cons_of_neg (by simpa using notDown), descents]

theorem counts_of_up (rest : List String) :
    ascents (".." :: rest) = ascents rest + 1 ∧ descents (".." :: rest) = descents rest := by
  have notDown : ¬ Clean ".." := fun down => down.notUp rfl
  constructor
  · rw [ascents, List.count_cons_self, ascents]
  · rw [descents, List.countP_cons_of_neg (by simpa using notDown), descents]

theorem counts_of_clean {name : String} (down : Clean name) (rest : List String) :
    ascents (name :: rest) = ascents rest ∧ descents (name :: rest) = descents rest + 1 := by
  constructor
  · rw [ascents, List.count_cons_of_ne down.notUp, ascents]
  · rw [descents, List.countP_cons_of_pos (by simpa using down), descents]

theorem staysInside_nil (depth : Nat) : StaysInside depth [] := by
  intro front isFront
  rw [List.prefix_nil.mp isFront]
  simp

/-- The first segment and the walk after it, apart. -/
theorem staysInside_cons (depth : Nat) (segment : String) (rest : List String) :
    StaysInside depth (segment :: rest) ↔
      ∀ front, front <+: rest →
        ascents (segment :: front) ≤ depth + descents (segment :: front) := by
  constructor
  · intro inside front isFront
    exact inside (segment :: front) (List.cons_prefix_cons.mpr ⟨rfl, isFront⟩)
  · intro inside front isFront
    rcases List.prefix_cons_iff.mp isFront with rfl | ⟨later, rfl, isLater⟩
    · simp
    · exact inside later isLater

theorem staysInside_of_idle {segment : String} (idle : segment = "" ∨ segment = ".") (depth : Nat)
    (rest : List String) : StaysInside depth (segment :: rest) ↔ StaysInside depth rest := by
  rw [staysInside_cons]
  simp only [counts_of_idle idle, StaysInside]

theorem not_staysInside_up (rest : List String) : ¬ StaysInside 0 (".." :: rest) := by
  intro inside
  have first := inside [".."] (List.cons_prefix_cons.mpr ⟨rfl, List.nil_prefix⟩)
  simp [counts_of_up] at first

theorem staysInside_up (depth : Nat) (rest : List String) :
    StaysInside (depth + 1) (".." :: rest) ↔ StaysInside depth rest := by
  rw [staysInside_cons]
  simp only [counts_of_up, StaysInside]
  refine forall₂_congr fun front _ => ?_
  omega

theorem staysInside_of_clean {name : String} (down : Clean name) (depth : Nat)
    (rest : List String) : StaysInside depth (name :: rest) ↔ StaysInside (depth + 1) rest := by
  rw [staysInside_cons]
  simp only [counts_of_clean down, StaysInside]
  refine forall₂_congr fun front _ => ?_
  omega

section Depth

variable {segments : List String}

/-- A walk ends somewhere if it never climbs above the top, and only then. -/
theorem exists_foldlM_follow? (free : ∀ segment ∈ segments, ¬ '/' ∈ segment.toList)
    (above : List String) :
    (∃ reached, segments.foldlM follow? above = some reached) ↔
      StaysInside above.length segments := by
  induction segments generalizing above with
  | nil => exact iff_of_true ⟨above, rfl⟩ (staysInside_nil _)
  | cons segment rest inductionHypothesis =>
      have later := inductionHypothesis
        fun other member => free other (List.mem_cons_of_mem segment member)
      rw [List.foldlM_cons]
      rcases segment_cases (free segment List.mem_cons_self) with idle | rfl | down
      · rw [follow?_of_idle idle, staysInside_of_idle idle]
        exact later above
      · cases above with
        | nil =>
            refine iff_of_false ?_ (not_staysInside_up rest)
            rintro ⟨_, followed⟩
            cases followed
        | cons last parent =>
            rw [List.length_cons, staysInside_up]
            exact later parent
      · rw [FileTree.follow?_of_clean down, staysInside_of_clean down]
        exact later (segment :: above)

/-- Each step up or down changes the depth by one. -/
theorem length_foldlM_follow? (free : ∀ segment ∈ segments, ¬ '/' ∈ segment.toList)
    {above reached : List String} (followed : segments.foldlM follow? above = some reached) :
    reached.length + ascents segments = above.length + descents segments := by
  induction segments generalizing above with
  | nil => rw [← Option.some.inj followed, ascents_nil, descents_nil]
  | cons segment rest inductionHypothesis =>
      have later := fun above => @inductionHypothesis
        (fun other member => free other (List.mem_cons_of_mem segment member)) above
      rw [List.foldlM_cons] at followed
      rcases segment_cases (free segment List.mem_cons_self) with idle | rfl | down
      · rw [follow?_of_idle idle] at followed
        rw [(counts_of_idle idle rest).1, (counts_of_idle idle rest).2]
        exact later above followed
      · cases above with
        | nil => cases followed
        | cons last parent =>
            rw [(counts_of_up rest).1, (counts_of_up rest).2, List.length_cons]
            have depth := later parent followed
            omega
      · rw [FileTree.follow?_of_clean down] at followed
        rw [(counts_of_clean down rest).1, (counts_of_clean down rest).2]
        have depth := later (segment :: above) followed
        rw [List.length_cons] at depth
        omega

end Depth

end CodeIndex.Path
