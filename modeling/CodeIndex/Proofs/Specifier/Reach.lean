import CodeIndex.Proofs.Specifier
import CodeIndex.Proofs.Specifier.Normal

/-!
Contract: files and the relative specifiers that lead to them.

Owns:
- `Specifier.Leads`: the place a specifier leads to from a file, by leaving out detours;
- `Specifier.stem?_eq_some`: a stem is that place without a source extension;
- `Specifier.leads_of_climbing`: where a specifier leads that climbs and then descends;
- `Specifier.HasSourceExtension`: a text that ends in an extension;
- `Specifier.Stripped`: what is left of a text without its extension, said without cutting it;
- `Specifier.files_reached_by_specifiers`: a file is reached by the specifiers that lead to it, by
  those that leave out its extension, and as an index by those that lead to its directory, and a
  specifier that reaches a file is one of these.

Files and specifiers only meet in their stems. A specifier that leaves out an extension has the stem
of the file if nothing more can be stripped off, so not for a file that ends in two extensions.
-/

set_option autoImplicit false

namespace CodeIndex

open CodeIndex.Path

/-! ## The last of joined parts -/

namespace Text

/-- What stands in front of the last part is nothing, or ends with a slash. -/
theorem exists_join_concat (above : List String) :
    ∃ front : String, (front = "" ∨ ∃ rest, front = rest ++ "/") ∧
      ∀ last, join "/" (above ++ [last]) = front ++ last := by
  induction above with
  | nil => exact ⟨"", Or.inl rfl, fun last => by simp [join]⟩
  | cons first rest inductionHypothesis =>
      obtain ⟨front, ends, joined⟩ := inductionHypothesis
      refine ⟨first ++ "/" ++ front, Or.inr ?_, fun last => ?_⟩
      · rcases ends with rfl | ⟨more, rfl⟩
        · exact ⟨first, by simp⟩
        · exact ⟨first ++ "/" ++ more, by simp [String.append_assoc]⟩
      · rw [List.cons_append, join, joined]
        · simp only [String.append_assoc]
        · simp

end Text

namespace Specifier

/-! ## Extensions -/

/-- The text ends with a dot and an extension that specifiers may leave out. -/
def HasSourceExtension (text : String) : Prop :=
  ∃ extension ∈ sourceExtensions, ∃ base, text = base ++ "." ++ extension

instance : DecidablePred HasSourceExtension := fun text =>
  decidable_of_iff
    (∃ extension ∈ sourceExtensions, (Text.stripEnd? ("." ++ extension) text).isSome = true) <| by
      simp only [HasSourceExtension, Option.isSome_iff_exists, Text.stripEnd?_eq_some,
        String.append_assoc]

/-- What is left of a text without its source extension. Nothing goes if the text does not end in
one, or if it has nothing in front of it. -/
inductive Stripped (text : String) : String → Prop where
  | extension {base extension : String} (nonempty : ¬ base = "")
      (listed : extension ∈ sourceExtensions) (whole : text = base ++ "." ++ extension) :
      Stripped text base
  | nothing (plain : ∀ base, ∀ extension ∈ sourceExtensions,
      text = base ++ "." ++ extension → base = "") : Stripped text text

/-- No extension has a dot in it, so that the last dot is the one in front of it. -/
theorem splitLast?_of_listed (base : String) {extension : String}
    (listed : extension ∈ sourceExtensions) :
    Text.splitLast? '.' (base ++ "." ++ extension) = some (base, extension) := by
  have undotted : ∀ extension ∈ sourceExtensions, '.' ∉ extension.toList := by decide
  rw [Text.splitLast?_eq_some]
  exact ⟨by simp, undotted extension listed⟩

theorem stripSourceExtension_append {base extension : String} (nonempty : ¬ base = "")
    (listed : extension ∈ sourceExtensions) :
    stripSourceExtension (base ++ "." ++ extension) = base := by
  have kept : (!base.isEmpty && sourceExtensions.contains extension) = true := by
    simp [nonempty, listed]
  rw [stripSourceExtension, splitLast?_of_listed base listed]
  exact if_pos kept

theorem stripped_stripSourceExtension (text : String) :
    Stripped text (stripSourceExtension text) := by
  unfold stripSourceExtension
  cases cut : Text.splitLast? '.' text with
  | none =>
      refine .nothing fun base extension listed whole => ?_
      rw [whole, splitLast?_of_listed base listed] at cut
      cases cut
  | some sides =>
      obtain ⟨front, last⟩ := sides
      dsimp only
      split
      · next kept =>
          simp only [Bool.and_eq_true, Bool.not_eq_true', List.contains_iff_mem] at kept
          refine .extension (by simpa using kept.1) kept.2 (String.toList_injective ?_)
          simpa using ((Text.splitLast?_eq_some '.' text front last).mp cut).1
      · next left =>
          refine .nothing fun base extension listed whole => ?_
          rw [whole, splitLast?_of_listed base listed] at cut
          cases cut
          simpa [listed] using left

/-- There is one such text, and it is the one that is cut out. -/
theorem stripped_iff (text base : String) :
    Stripped text base ↔ stripSourceExtension text = base := by
  constructor
  · intro stripped
    cases stripped with
    | extension nonempty listed whole => rw [whole, stripSourceExtension_append nonempty listed]
    | nothing plain =>
        have cutOut := stripped_stripSourceExtension text
        generalize stripSourceExtension text = rest at cutOut ⊢
        cases cutOut with
        | extension nonempty listed whole => exact absurd (plain _ _ listed whole) nonempty
        | nothing _ => rfl
  · rintro rfl
    exact stripped_stripSourceExtension text

theorem stripSourceExtension_of_plain {text : String} (plain : ¬ HasSourceExtension text) :
    stripSourceExtension text = text := by
  apply (stripped_iff text text).mp
  exact .nothing fun base extension listed whole => absurd ⟨extension, listed, base, whole⟩ plain

/-- An extension is one of the last part of a path. -/
theorem hasSourceExtension_of_join {above : List String} {last : String}
    (ends : HasSourceExtension (Text.join "/" (above ++ [last]))) : HasSourceExtension last := by
  obtain ⟨extension, listed, base, whole⟩ := ends
  have unslashed : ∀ extension ∈ sourceExtensions, '/' ∉ ('.' :: extension.toList) := by decide
  obtain ⟨front, slash, joined⟩ := Text.exists_join_concat above
  have letters : front.toList ++ last.toList = base.toList ++ '.' :: extension.toList := by
    rw [joined] at whole
    simpa using congrArg String.toList whole
  have inLast : '.' :: extension.toList <:+ last.toList := by
    rcases slash with rfl | ⟨rest, rfl⟩
    · exact ⟨base.toList, by simpa using letters.symm⟩
    · have withSlash : '/' :: last.toList <:+ base.toList ++ '.' :: extension.toList :=
        ⟨rest.toList, by simpa using letters⟩
      -- The slash before the last part is not in the extension, so the extension is behind it.
      rcases List.suffix_or_suffix_of_suffix withSlash (List.suffix_append _ _) with short | long
      · exact absurd (short.subset List.mem_cons_self) (unslashed extension listed)
      · rcases List.suffix_cons_iff.mp long with same | inside
        · exact absurd (same ▸ List.mem_cons_self) (unslashed extension listed)
        · exact inside
  obtain ⟨before, spelled⟩ := inLast
  refine ⟨extension, listed, String.ofList before, String.toList_injective ?_⟩
  simpa using spelled.symm

/-- Only the last part of a path loses its extension. -/
theorem stripSourceExtension_of_split {path : String} {above : List String}
    {name extension : String} (cut : Text.split '/' path = above ++ [name ++ "." ++ extension])
    (listed : extension ∈ sourceExtensions) (nonempty : ¬ name = "") :
    stripSourceExtension path = Text.join "/" (above ++ [name]) := by
  obtain ⟨front, _, joined⟩ := Text.exists_join_concat above
  have whole : path = front ++ name ++ "." ++ extension := by
    rw [← Text.join_split_slash path, cut, joined]
    simp only [String.append_assoc]
  rw [whole, stripSourceExtension_append (by simp [nonempty]) listed, joined]

theorem stripSourceExtension_index {directory extension : String}
    (listed : extension ∈ sourceExtensions) :
    stripSourceExtension (directory ++ "/index." ++ extension) = directory ++ "/index" := by
  have dotted :
      directory ++ "/index." ++ extension = directory ++ "/index" ++ "." ++ extension := by
    simp only [String.append_assoc]
    rfl
  rw [dotted, stripSourceExtension_append (by simp) listed]

/-! ## Places -/

/-- The place that a specifier leads to from a file: what is left of the file's directory and the
specifier's segments without detours. -/
def Leads (importer specifier : String) (place : List String) : Prop :=
  Shortened ((Text.split '/' importer).dropLast ++ Text.split '/' specifier) place ∧
    ∀ step ∈ place, Clean step

section Places

variable {importer : String}

theorem leads_iff (cleanImporter : ∀ step ∈ Text.split '/' importer, Clean step)
    (specifier : String) (place : List String) :
    Leads importer specifier place ↔
      (Text.split '/' specifier).foldlM follow? (directoryOf importer) = some place.reverse := by
  have cleanDirectory : ∀ step ∈ (Text.split '/' importer).dropLast, Clean step :=
    fun step member => cleanImporter step (List.dropLast_subset _ member)
  have free : ∀ segment ∈ (Text.split '/' importer).dropLast ++ Text.split '/' specifier,
      ¬ '/' ∈ segment.toList := by
    intro segment member
    rcases List.mem_append.mp member with above | given
    · exact (cleanDirectory segment above).free
    · exact free_split specifier segment given
  have directory : directoryOf importer = (Text.split '/' importer).dropLast.reverse := by
    rw [directoryOf, List.drop_one, List.tail_reverse]
  rw [directory, ← foldlM_follow?_append cleanDirectory, foldlM_follow?_eq_some free]
  rfl

/-- The stem of a specifier is the place it leads to, without a source extension. -/
theorem stem?_eq_some (cleanImporter : ∀ step ∈ Text.split '/' importer, Clean step)
    (specifier stem : String) :
    stem? importer specifier = some stem ↔
      isRelative specifier = true ∧ ∃ place, Leads importer specifier place ∧ ¬ place = [] ∧
        stripSourceExtension (Text.join "/" place) = stem := by
  constructor
  · intro found
    by_cases relative : isRelative specifier = true
    · rw [stem?_eq relative, Option.bind_eq_some_iff] at found
      obtain ⟨reached, followed, stripped⟩ := found
      rw [← List.reverse_reverse reached, ← leads_iff cleanImporter] at followed
      split at stripped
      · cases stripped
      · next nonempty =>
          exact ⟨relative, reached.reverse, followed, by simpa using nonempty,
            Option.some.inj stripped⟩
    · rw [stem?, if_neg relative] at found
      cases found
  · rintro ⟨relative, place, leads, nonempty, stripped⟩
    rw [leads_iff cleanImporter] at leads
    rw [stem?_eq relative, leads, Option.bind_some, if_neg (by simpa using nonempty),
      List.reverse_reverse, stripped]

theorem stem?_of_leads (cleanImporter : ∀ step ∈ Text.split '/' importer, Clean step)
    {specifier : String} (relative : isRelative specifier = true) {place : List String}
    (leads : Leads importer specifier place) (nonempty : ¬ place = []) :
    stem? importer specifier = some (stripSourceExtension (Text.join "/" place)) :=
  (stem?_eq_some cleanImporter specifier _).mpr ⟨relative, place, leads, nonempty, rfl⟩

theorem Leads.unique (cleanImporter : ∀ step ∈ Text.split '/' importer, Clean step)
    {specifier : String} {place other : List String} (leads : Leads importer specifier place)
    (otherLeads : Leads importer specifier other) : other = place := by
  rw [leads_iff cleanImporter] at leads otherLeads
  exact List.reverse_inj.mp (Option.some.inj (otherLeads.symm.trans leads))

/-- There is a specifier that climbs so many levels and then descends by the names. -/
theorem exists_climbing (levels : Nat) {names : List String}
    (cleanNames : ∀ name ∈ names, Clean name) :
    ∃ specifier, isRelative specifier = true ∧
      parts specifier = List.replicate levels ".." ++ names := by
  have segments := split_ofSegments levels cleanNames
  refine ⟨_, isRelative_of_split segments, ?_⟩
  rw [parts, segments]
  exact filter_normalSegments levels cleanNames

/-- A specifier that climbs out of some directories and then descends leads to where the names point
from the directory that is left. -/
theorem leads_of_climbing (cleanImporter : ∀ step ∈ Text.split '/' importer, Clean step)
    {shared climbed names : List String}
    (directory : (Text.split '/' importer).dropLast = shared ++ climbed)
    (cleanNames : ∀ name ∈ names, Clean name) {specifier : String}
    (spelled : parts specifier = List.replicate climbed.length ".." ++ names) :
    Leads importer specifier (shared ++ names) := by
  have climbs : ∀ above : List String, (List.replicate climbed.length "..").foldlM follow?
      (climbed.reverse ++ above) = some above := by
    rw [← List.length_reverse]
    induction climbed.reverse with
    | nil => exact fun above => rfl
    | cons last rest inductionHypothesis => exact fun above => inductionHypothesis above
  have order : directoryOf importer = climbed.reverse ++ shared.reverse := by
    rw [directoryOf, List.drop_one, List.tail_reverse, directory, List.reverse_append]
  rw [leads_iff cleanImporter, foldlM_follow?_of_shortened (shortened_parts specifier), order,
    spelled, List.foldlM_append, climbs, List.reverse_append]
  exact FileTree.foldlM_follow?_of_clean cleanNames shared.reverse

end Places

theorem exists_fileStems_eq (path : String) :
    ∃ others, fileStems path = stripSourceExtension path :: others := by
  dsimp only [fileStems]
  split
  · exact ⟨_, rfl⟩
  · exact ⟨_, rfl⟩

/-- From a file, a specifier that climbs and descends leads to where it says, and there is one for
each directory that the file is below. A specifier that leads to a file has the file's first stem,
which is its path without its extension. So has one that leads to that path, if the extension is
left out of specifiers and what remains of the name does not end in another one. A specifier that
leads to a directory has the directory as its stem, which is one of an index there too, if the
directory's name does not end in an extension. No other specifier has a stem of the file: the stem
is the place that the specifier leads to, without its extension, and it is the file's path without
its own one, or the directory if that is the path of an index. -/
theorem files_reached_by_specifiers {importer : String} (path : String)
    (cleanImporter : ∀ step ∈ Text.split '/' importer, Clean step) :
    (∀ shared climbed names, (Text.split '/' importer).dropLast = shared ++ climbed →
      (∀ name ∈ names, Clean name) →
        (∃ specifier, isRelative specifier = true ∧
          parts specifier = List.replicate climbed.length ".." ++ names) ∧
        ∀ specifier, parts specifier = List.replicate climbed.length ".." ++ names →
          Leads importer specifier (shared ++ names)) ∧
      (∀ specifier, isRelative specifier = true →
        Leads importer specifier (Text.split '/' path) →
          ∃ stem others, fileStems path = stem :: others ∧
            stem? importer specifier = some stem ∧ Stripped path stem) ∧
      (∀ above name extension, Text.split '/' path = above ++ [name ++ "." ++ extension] →
        extension ∈ sourceExtensions → Clean name → ¬ HasSourceExtension name →
          ∀ specifier, isRelative specifier = true →
            Leads importer specifier (above ++ [name]) →
              ∃ stem others, fileStems path = stem :: others ∧
                stem? importer specifier = some stem ∧
                stem = Text.join "/" (above ++ [name])) ∧
      (∀ directory extension, path = directory ++ "/index." ++ extension →
        extension ∈ sourceExtensions → ¬ HasSourceExtension directory →
          ∀ specifier, isRelative specifier = true →
            Leads importer specifier (Text.split '/' directory) →
              directory ∈ fileStems path ∧ stem? importer specifier = some directory) ∧
      ∀ specifier stem, stem? importer specifier = some stem → stem ∈ fileStems path →
        isRelative specifier = true ∧ (∃ place, Leads importer specifier place) ∧
          ∀ place, Leads importer specifier place →
            Stripped (Text.join "/" place) stem ∧
              (Stripped path stem ∨ Stripped path (stem ++ "/index")) := by
  have cutNonempty (text : String) : ¬ Text.split '/' text = [] := by
    simp [Text.split, Text.splitCharacters_ne_nil]
  obtain ⟨others, stems⟩ := exists_fileStems_eq path
  refine ⟨?_, ?_, ?_, ?_, ?_⟩
  · intro shared climbed names directory cleanNames
    exact ⟨exists_climbing climbed.length cleanNames,
      fun specifier => leads_of_climbing cleanImporter directory cleanNames⟩
  · intro specifier relative leads
    refine ⟨_, others, stems, ?_, stripped_stripSourceExtension path⟩
    rw [stem?_of_leads cleanImporter relative leads (cutNonempty path), Text.join_split_slash]
  · intro above name extension cut listed cleanName plain specifier relative leads
    have stripped := stripSourceExtension_of_split cut listed cleanName.nonempty
    refine ⟨_, others, stems, ?_, stripped⟩
    rw [stem?_of_leads cleanImporter relative leads (by simp), stripped,
      stripSourceExtension_of_plain (mt hasSourceExtension_of_join plain)]
  · intro directory extension whole listed plain specifier relative leads
    have index : stripSourceExtension path = directory ++ "/index" := by
      rw [whole, stripSourceExtension_index listed]
    have stem := stem?_of_leads cleanImporter relative leads (cutNonempty directory)
    rw [Text.join_split_slash, stripSourceExtension_of_plain plain] at stem
    exact ⟨(mem_fileStems path directory).mpr (Or.inr index), stem⟩
  · intro specifier stem found member
    obtain ⟨relative, place, leads, _, stripped⟩ :=
      (stem?_eq_some cleanImporter specifier stem).mp found
    refine ⟨relative, ⟨place, leads⟩, fun other otherLeads => ?_⟩
    rw [leads.unique cleanImporter otherLeads]
    simp only [stripped_iff]
    exact ⟨stripped, (mem_fileStems path stem).mp member⟩

theorem dottedIndex_reached :
    (∀ specifier ∈ ["../util.x/index.ts", "./../util.x//index", ".././util.x/"],
      isRelative specifier = true) ∧
      Leads "src/lib/a.ts" ".././util.x/" ["src", "util.x"] ∧
      (∃ stem others, fileStems "src/util.x/index.ts" = stem :: others ∧
        stem? "src/lib/a.ts" "../util.x/index.ts" = some stem ∧
        Stripped "src/util.x/index.ts" stem) ∧
      (∃ stem others, fileStems "src/util.x/index.ts" = stem :: others ∧
        stem? "src/lib/a.ts" "./../util.x//index" = some stem ∧
        stem = Text.join "/" ["src", "util.x", "index"]) ∧
      "src/util.x" ∈ fileStems "src/util.x/index.ts" ∧
        stem? "src/lib/a.ts" ".././util.x/" = some "src/util.x" := by
  have facts :
      (∀ specifier ∈ ["../util.x/index.ts", "./../util.x//index", ".././util.x/"],
        isRelative specifier = true) ∧
      (∀ step ∈ Text.split '/' "src/lib/a.ts", Clean step) ∧
      (Text.split '/' "src/lib/a.ts").dropLast = ["src"] ++ ["lib"] ∧
      (∀ name ∈ ["util.x", "index", "index.ts"], Clean name) ∧
      parts "../util.x/index.ts" = [".."] ++ ["util.x", "index.ts"] ∧
      parts "./../util.x//index" = [".."] ++ ["util.x", "index"] ∧
      parts ".././util.x/" = [".."] ++ ["util.x"] ∧
      Text.split '/' "src/util.x/index.ts" = ["src", "util.x", "index.ts"] ∧
      Text.split '/' "src/util.x" = ["src", "util.x"] ∧
      ¬ HasSourceExtension "index" ∧ ¬ HasSourceExtension "src/util.x" := by
    decide +kernel
  obtain ⟨relative, cleanImporter, directory, clean, full, bare, folder, cut, cutFolder, plain,
    plainFolder⟩ := facts
  have cleanNames : ∀ names, names ⊆ ["util.x", "index", "index.ts"] →
      ∀ name ∈ names, Clean name := fun _ listed name member => clean name (listed member)
  obtain ⟨climbing, whole, shortened, index, _⟩ :=
    files_reached_by_specifiers "src/util.x/index.ts" cleanImporter
  have fullLeads := (climbing _ _ _ directory (cleanNames _ (by decide))).2 _ full
  have bareLeads := (climbing _ _ _ directory (cleanNames _ (by decide))).2 _ bare
  have folderLeads := (climbing _ _ _ directory (cleanNames _ (by decide))).2 _ folder
  refine ⟨relative, folderLeads, ?_, ?_, ?_⟩
  · exact whole _ (relative _ (by simp)) (cut ▸ fullLeads)
  · exact shortened ["src", "util.x"] "index" "ts" cut (by decide) (clean _ (by simp)) plain _
      (relative _ (by simp)) bareLeads
  · exact index "src/util.x" "ts" rfl (by decide) plainFolder _ (relative _ (by simp))
      (cutFolder ▸ folderLeads)

end Specifier

end CodeIndex
