import CodeIndex.Proofs.Path
import CodeIndex.Proofs.Text.Digits
import CodeIndex.Record.Codec

/-!
Contract: marks are read back from their names.

Owns:
- `Text.trim_split_join`: parts joined by bars with blanks around them are found again;
- `Flags.ofText?_text`: every set of marks, bits without a name included.
-/

set_option autoImplicit false

namespace CodeIndex

namespace Text

/-! ## Parts between bars -/

/-- Something is written, without blanks and without bars. -/
structure Solid (characters : List Char) : Prop where
  nonempty : ¬ characters = []
  noBlank : ∀ character ∈ characters, isBlank character = false
  noBar : ¬ '|' ∈ characters

theorem dropWhile_isBlank {blanks characters : List Char}
    (allBlank : ∀ character ∈ blanks, isBlank character = true)
    (noBlank : ∀ character ∈ characters.head?, isBlank character = false) :
    (blanks ++ characters).dropWhile isBlank = characters := by
  rw [List.dropWhile_append_of_pos allBlank]
  cases characters with
  | nil => rfl
  | cons first rest => simp [noBlank first rfl]

theorem trimCharacters_between {before characters after : List Char} (solid : Solid characters)
    (blankBefore : ∀ character ∈ before, isBlank character = true)
    (blankAfter : ∀ character ∈ after, isBlank character = true) :
    trimCharacters (before ++ characters ++ after) = characters := by
  have startSolid : ∀ character ∈ (characters ++ after).head?, isBlank character = false := by
    cases characters with
    | nil => exact absurd rfl solid.nonempty
    | cons first rest =>
        intro character found
        rw [← Option.some.inj found]
        exact solid.noBlank first List.mem_cons_self
  have endSolid : ∀ character ∈ characters.reverse.head?, isBlank character = false := by
    intro character found
    exact solid.noBlank character (List.mem_reverse.mp (List.mem_of_mem_head? found))
  have blankReversed : ∀ character ∈ after.reverse, isBlank character = true :=
    fun character member => blankAfter character (List.mem_reverse.mp member)
  rw [trimCharacters, trimStartWhile, List.append_assoc, dropWhile_isBlank blankBefore startSolid,
    trimEndWhile, List.reverse_append, dropWhile_isBlank blankReversed endSolid,
    List.reverse_reverse]

theorem trim_splitCharacters_join {parts : List String} (nonempty : ¬ parts = [])
    (solid : ∀ part ∈ parts, Solid part.toList) {before : List Char}
    (blankBefore : ∀ character ∈ before, isBlank character = true) :
    (splitCharacters '|' (before ++ (join " | " parts).toList)).map trimCharacters =
      parts.map String.toList := by
  -- The blank after a bar belongs to the next part, so the induction is for any blanks before.
  induction parts generalizing before with
  | nil => exact absurd rfl nonempty
  | cons part rest inductionHypothesis =>
      have partSolid := solid part List.mem_cons_self
      have noBarBefore : ¬ '|' ∈ before :=
        fun member => absurd (blankBefore '|' member) (by decide)
      have oneBlank : ∀ character ∈ [' '], isBlank character = true :=
        List.forall_mem_singleton.mpr (by decide)
      cases rest with
      | nil =>
          have noBar : ¬ '|' ∈ before ++ part.toList := by
            rw [List.mem_append, not_or]
            exact ⟨noBarBefore, partSolid.noBar⟩
          have trimmed : trimCharacters (before ++ part.toList ++ []) = part.toList :=
            trimCharacters_between partSolid blankBefore (by simp)
          rw [List.append_nil] at trimmed
          rw [join, splitCharacters_of_not_mem noBar, List.map_singleton, trimmed]
          rfl
      | cons second more =>
          have written : before ++ (join " | " (part :: second :: more)).toList =
              (before ++ part.toList ++ [' ']) ++
                '|' :: ([' '] ++ (join " | " (second :: more)).toList) := by
            simp [join]
          have noBar : ¬ '|' ∈ before ++ part.toList ++ [' '] := by
            rw [List.mem_append, List.mem_append, not_or, not_or]
            exact ⟨⟨noBarBefore, partSolid.noBar⟩, by decide⟩
          have others := inductionHypothesis (by simp)
            (fun inner member => solid inner (List.mem_cons_of_mem _ member)) oneBlank
          rw [written, splitCharacters_append, splitCharacters_of_not_mem noBar, List.map_append,
            others, List.map_singleton, trimCharacters_between partSolid blankBefore oneBlank]
          rfl

/-- Parts with a bar and blanks between any two are found again. -/
theorem trim_split_join {parts : List String} (nonempty : ¬ parts = [])
    (solid : ∀ part ∈ parts, Solid part.toList) :
    (split '|' (join " | " parts)).map trim = parts := by
  have characters : (splitCharacters '|' ([] ++ (join " | " parts).toList)).map trimCharacters =
      parts.map String.toList := trim_splitCharacters_join nonempty solid (by simp)
  have trimmed : trim ∘ String.ofList = String.ofList ∘ trimCharacters := by
    funext part
    simp [trim]
  rw [split, List.map_map, trimmed, ← List.map_map, ← List.nil_append (String.toList _),
    characters, List.map_map]
  simp [Function.comp_def]

theorem trimCharacters_cons_ne_nil {first : Char} (notBlank : isBlank first = false)
    (rest : List Char) : ¬ trimCharacters (first :: rest) = [] := by
  have kept : (first :: rest).dropWhile isBlank = first :: rest := by simp [notBlank]
  rw [trimCharacters, trimStartWhile, kept, trimEndWhile, List.reverse_eq_nil_iff,
    List.reverse_cons, List.dropWhile_append]
  split <;> simp [notBlank]

theorem trim_join_ne_empty {parts : List String} (nonempty : ¬ parts = [])
    (solid : ∀ part ∈ parts, Solid part.toList) :
    ¬ (trim (join " | " parts)).isEmpty = true := by
  cases parts with
  | nil => exact absurd rfl nonempty
  | cons part rest =>
      have partSolid := solid part List.mem_cons_self
      have written : ∃ more, (join " | " (part :: rest)).toList = part.toList ++ more := by
        cases rest with
        | nil => exact ⟨[], by rw [join, List.append_nil]⟩
        | cons second more =>
            exact ⟨_, by rw [join, String.append_assoc, String.toList_append]; simp⟩
      obtain ⟨more, characters⟩ := written
      cases own : part.toList with
      | nil => exact absurd own partSolid.nonempty
      | cons first others =>
          have notBlank := partSolid.noBlank first (own ▸ List.mem_cons_self)
          rw [own, List.cons_append] at characters
          rw [trim, characters, String.isEmpty_iff, String.ofList_eq_empty_iff]
          exact trimCharacters_cons_ne_nil notBlank _

end Text

namespace Flags

/-! ## Marks -/

/-- The names of the marks and the number of the other bits. -/
def parts (flags : Flags) : List String :=
  (named.filterMap fun entry => if flags.contains entry.1 then some entry.2 else none) ++
    if flags.unnamedBits = 0 then
      []
    else
      [String.ofList ('0' :: 'x' :: Text.hexDigits flags.unnamedBits.toNat)]

/-- What the names and the number stand for. -/
def marks (flags : Flags) : List Flags :=
  (named.filterMap fun entry => if flags.contains entry.1 then some entry.1 else none) ++
    if flags.unnamedBits = 0 then [] else [⟨flags.unnamedBits⟩]

theorem text_eq_join_parts (flags : Flags) : flags.text = Text.join " | " flags.parts := rfl

theorem union_marks (flags : Flags) : flags.marks.foldr union empty = flags := by
  have all : ∀ bits < 256, (marks ⟨UInt8.ofNat bits⟩).foldr union empty = ⟨UInt8.ofNat bits⟩ := by
    decide +kernel
  have own := all flags.bits.toNat flags.bits.toNat_lt
  rwa [UInt8.ofNat_toNat] at own

theorem solid_name {entry : Flags × String} (listed : entry ∈ named) :
    Text.Solid entry.2.toList := by
  have nonempty : ∀ entry ∈ named, ¬ entry.2.toList = [] := by decide
  have noBlank : ∀ entry ∈ named,
      entry.2.toList.all (fun character => !Text.isBlank character) = true := by decide
  have noBar : ∀ entry ∈ named, ¬ '|' ∈ entry.2.toList := by decide
  refine ⟨nonempty entry listed, fun character member => ?_, noBar entry listed⟩
  exact (Bool.not_eq_true' _).mp (List.all_eq_true.mp (noBlank entry listed) character member)

theorem solid_number (number : Nat) : Text.Solid ('0' :: 'x' :: Text.hexDigits number) := by
  have digit : ∀ digit < 16, Text.isBlank (Text.digitCharacter digit) = false ∧
      ¬ '|' = Text.digitCharacter digit := by decide
  have each : ∀ character ∈ '0' :: 'x' :: Text.hexDigits number,
      Text.isBlank character = false ∧ ¬ '|' = character := by
    rw [List.forall_mem_cons, List.forall_mem_cons]
    refine ⟨by decide, by decide, ?_⟩
    intro character member
    obtain ⟨value, below, rfl⟩ := Text.mem_digitsIn _ member
    exact digit value below
  exact ⟨by simp, fun character member => (each character member).1,
    fun member => (each '|' member).2 rfl⟩

theorem solid_of_mem_parts {flags : Flags} {part : String} (member : part ∈ flags.parts) :
    Text.Solid part.toList := by
  rcases List.mem_append.mp member with isName | isNumber
  · obtain ⟨entry, listed, found⟩ := List.mem_filterMap.mp isName
    rw [Option.ite_none_right_eq_some, Option.some.injEq] at found
    exact found.2 ▸ solid_name listed
  · split at isNumber
    · exact absurd isNumber List.not_mem_nil
    · rw [List.mem_singleton.mp isNumber, String.toList_ofList]
      exact solid_number _

theorem hexBits?_hexDigits (bits : UInt8) :
    hexBits? (Text.hexDigits bits.toNat) = some ⟨bits⟩ := by
  have unsigned : ∀ rest, ¬ Text.hexDigits bits.toNat = '+' :: rest := by
    intro rest written
    have digit : ∀ digit < 16, ¬ '+' = Text.digitCharacter digit := by decide
    obtain ⟨value, below, same⟩ := Text.mem_digitsIn _ (written ▸ List.mem_cons_self)
    exact digit value below same
  rw [hexBits?.eq_def]
  split
  · next rest written => exact absurd written (unsigned rest)
  · simp only [Text.ofHexDigits?_hexDigits, if_pos bits.toNat_lt, UInt8.ofNat_toNat]

theorem ofPart?_number (bits : UInt8) :
    ofPart? (String.ofList ('0' :: 'x' :: Text.hexDigits bits.toNat)) = some ⟨bits⟩ := by
  rw [ofPart?, String.toList_ofList]
  exact hexBits?_hexDigits bits

theorem ofPart?_names {entries : List (Flags × String)}
    (listed : ∀ entry ∈ entries, ofPart? entry.2 = some entry.1) (flags : Flags) :
    (entries.filterMap fun entry => if flags.contains entry.1 then some entry.2 else none).map
        ofPart? =
      (entries.filterMap fun entry => if flags.contains entry.1 then some entry.1 else none).map
        some := by
  induction entries with
  | nil => rfl
  | cons entry rest inductionHypothesis =>
      have others := inductionHypothesis fun inner member =>
        listed inner (List.mem_cons_of_mem _ member)
      rw [List.filterMap_cons, List.filterMap_cons]
      by_cases marked : flags.contains entry.1 = true
      · simp [marked, others, listed entry List.mem_cons_self]
      · simp [marked, others]

theorem ofPart?_parts (flags : Flags) : flags.parts.map ofPart? = flags.marks.map some := by
  have listed : ∀ entry ∈ named, ofPart? entry.2 = some entry.1 := by decide
  rw [parts, marks, List.map_append, List.map_append, ofPart?_names listed]
  congr 1
  split
  · rfl
  · exact congrArg (· :: []) (ofPart?_number _)

theorem ofParts?_eq_some {parts : List String} {marks : List Flags}
    (read : parts.map (fun part => ofPart? (Text.trim part)) = marks.map some) :
    ofParts? parts = some (marks.foldr union empty) := by
  induction parts generalizing marks with
  | nil =>
      cases marks with
      | nil => rfl
      | cons mark more => exact absurd read (by simp)
  | cons part rest inductionHypothesis =>
      cases marks with
      | nil => exact absurd read (by simp)
      | cons mark more =>
          rw [List.map_cons, List.map_cons, List.cons.injEq] at read
          rw [ofParts?, read.1, inductionHypothesis read.2]
          rfl

/-- Every set of marks is read back from its text. -/
theorem ofText?_text (flags : Flags) : ofText? flags.text = some flags := by
  have united := union_marks flags
  have read := ofPart?_parts flags
  rw [text_eq_join_parts, ofText?]
  by_cases nothing : flags.parts = []
  · -- Without any part there is no mark either.
    have noMarks : flags.marks = [] := by
      rw [nothing] at read
      simpa using read.symm
    rw [noMarks] at united
    rw [nothing, if_pos (by decide)]
    exact congrArg some united
  · have found := Text.trim_split_join nothing fun part => solid_of_mem_parts
    have each : (Text.split '|' (Text.join " | " flags.parts)).map
        (fun part => ofPart? (Text.trim part)) = flags.marks.map some := by
      calc (Text.split '|' (Text.join " | " flags.parts)).map (fun part => ofPart? (Text.trim part))
        _ = ((Text.split '|' (Text.join " | " flags.parts)).map Text.trim).map ofPart? := by
          simp only [List.map_map, Function.comp_def]
        _ = flags.parts.map ofPart? := by rw [found]
        _ = flags.marks.map some := read
    rw [if_neg (Text.trim_join_ne_empty nothing fun part => solid_of_mem_parts),
      ofParts?_eq_some each, united]

end Flags

end CodeIndex
