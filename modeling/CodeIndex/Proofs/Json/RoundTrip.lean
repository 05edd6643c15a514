import CodeIndex.Json.Read
import CodeIndex.Json.Write
import CodeIndex.Proofs.Text.Digits

/-!
Contract: JSON values are read back from their text.

Owns:
- `Json.scanString_quoted`, `Json.joinUnits?_toNat`: strings, whatever characters they hold;
- `Json.scanNumber_ofInt`: whole numbers;
- `Json.Whole`: values whose numbers are whole;
- `Json.readBack_of_whole`: such values, with whatever may follow them;
- `Json.read?_compact`: such values as the whole of a text.

The reader is given a bound for its work. Every value takes at least as many characters as steps, so
the length of its text is bound enough.
-/

set_option autoImplicit false

namespace CodeIndex.Json

/-! ## Strings -/

theorem fourHexDigits_controlEscape {code : Nat} (below : code < 0x10000) :
    ∃ first second third fourth,
      controlEscape code = ['\x5c', 'u', first, second, third, fourth] ∧
        fourHexDigits? first second third fourth = some code := by
  have fits : (Text.hexDigits code).length ≤ 4 := Text.length_digitsIn_le (by decide) 3 code below
  have read := Text.ofHexDigits?_padLeft 4 (Text.ofHexDigits?_hexDigits code)
  have length := Text.length_padLeft '0' fits
  unfold controlEscape
  match written : Text.padLeft 4 '0' (Text.hexDigits code), length with
  | [first, second, third, fourth], _ =>
      rw [written] at read
      exact ⟨first, second, third, fourth, rfl, read⟩

/-- An escape stands for its code unit. -/
theorem scanString_controlEscape {code : Nat} (below : code < 0x10000) (rest : List Char) :
    scanString (controlEscape code ++ rest) =
      (scanString rest).map fun result => (code :: result.1, result.2) := by
  obtain ⟨first, second, third, fourth, written, read⟩ := fourHexDigits_controlEscape below
  rw [written]
  simp [scanString, read]

/-- However a character stands in a string, it is read as its code. -/
theorem scanString_quoteCharacter (character : Char) (rest : List Char) :
    scanString (quoteCharacter character ++ rest) =
      (scanString rest).map fun result => (character.toNat :: result.1, result.2) := by
  unfold quoteCharacter
  split
  case h_8 code notQuote notBackslash _ _ _ _ _ =>
    split
    · next control => exact scanString_controlEscape (by omega) rest
    · next plain =>
        have isQuote : ¬ character = '\x22' := by
          rintro rfl
          exact notQuote rfl
        have isBackslash : ¬ character = '\x5c' := by
          rintro rfl
          exact notBackslash rfl
        rw [List.singleton_append, scanString.eq_5 character rest isQuote
          (fun _ _ _ _ _ same => absurd same isBackslash)
          (fun _ _ same => absurd same isBackslash), if_neg plain]
  all_goals
    next code =>
      rw [code]
      simp [scanString, shortEscape?]

theorem scanString_quoted (characters rest : List Char) :
    scanString (characters.flatMap quoteCharacter ++ '\x22' :: rest) =
      some (characters.map Char.toNat, rest) := by
  induction characters with
  | nil => simp [scanString]
  | cons character others inductionHypothesis =>
      rw [List.flatMap_cons, List.append_assoc, scanString_quoteCharacter, inductionHypothesis]
      rfl

/-- The codes of characters are no surrogates, so each stands for itself. -/
theorem joinUnits?_toNat (characters : List Char) :
    joinUnits? (characters.map Char.toNat) = some characters := by
  induction characters with
  | nil => rfl
  | cons character rest inductionHypothesis =>
      have valid : character.toNat < 0xd800 ∨
          (0xdfff < character.toNat ∧ character.toNat < 0x110000) := character.valid
      have notHigh : ¬ (0xd800 ≤ character.toNat ∧ character.toNat < 0xdc00) := by omega
      have notLow : ¬ (0xdc00 ≤ character.toNat ∧ character.toNat < 0xe000) := by omega
      rw [List.map_cons, joinUnits?.eq_def]
      dsimp only
      rw [if_neg notHigh, if_neg notLow, inductionHypothesis, Option.map_some, Char.ofNat_toNat]

/-- A string is read back, with a text or without. -/
theorem scanString_quote (text : Option String) (rest : List Char) :
    ∃ units inner, quote text ++ rest = '\x22' :: inner ∧ scanString inner = some (units, rest) ∧
      unitsText? units = text := by
  cases text with
  | some text =>
      refine ⟨text.toList.map Char.toNat, text.toList.flatMap quoteCharacter ++ '\x22' :: rest,
        by simp [quote], scanString_quoted text.toList rest, ?_⟩
      rw [unitsText?, joinUnits?_toNat, Option.map_some, String.ofList_toList]
  | none =>
      refine ⟨[0xd800], controlEscape 0xd800 ++ '\x22' :: rest, by simp [quote], ?_, by decide⟩
      rw [scanString_controlEscape (by decide), scanString, Option.map_some]

/-! ## Numbers -/

/-- The marks after a part of an array or an object. -/
def marks : List Char :=
  [',', ']', '\x7d']

/-- What may follow a value: nothing, or a mark that belongs to what the value is part of. -/
def Follows (rest : List Char) : Prop :=
  ∀ mark, rest.head? = some mark → mark ∈ marks

theorem follows_nil : Follows [] := by
  intro mark found
  simp at found

theorem follows_cons (mark : Char) (isMark : mark ∈ marks) (rest : List Char) :
    Follows (mark :: rest) := by
  intro first found
  rwa [← Option.some.inj found]

theorem scanDigits_digits (number : Nat) {rest : List Char} (follows : Follows rest) :
    scanDigits (Text.digits number ++ rest) = (Text.digits number, rest) := by
  have digitsOnly : ∀ character ∈ Text.digits number,
      Source.Character.isDigit character = true := by
    have allDigits : ∀ digit < 10, Source.Character.isDigit (Text.digitCharacter digit) = true := by
      decide
    intro character member
    obtain ⟨digit, below, rfl⟩ := Text.mem_digits member
    exact allDigits digit below
  have stops : marks.all (fun mark => !Source.Character.isDigit mark) = true := by decide
  rw [scanDigits, List.takeWhile_append_of_pos digitsOnly, List.dropWhile_append_of_pos digitsOnly]
  cases rest with
  | nil => simp
  | cons mark more =>
      have stop : ¬ Source.Character.isDigit mark = true := by
        simpa using List.all_eq_true.mp stops mark (follows mark rfl)
      rw [List.takeWhile_cons_of_neg stop, List.dropWhile_cons_of_neg stop, List.append_nil]

theorem scanWhole_digits (number : Nat) {rest : List Char} (follows : Follows rest) :
    scanWhole (Text.digits number ++ rest) = some (Text.digits number, rest) := by
  rw [scanWhole, scanDigits_digits number follows]
  split
  · next nothing => exact absurd (congrArg Prod.fst nothing) (Text.digits_ne_nil number)
  · next second more _ leadingZero =>
      have written : Text.digits number = '0' :: second :: more := congrArg Prod.fst leadingZero
      by_cases positive : 0 < number
      · exact absurd (congrArg List.head? written) (Text.head?_digits_ne_zero positive)
      · rw [Nat.eq_zero_of_not_pos positive, Text.digits_of_lt_ten (by decide)] at written
        exact absurd (congrArg List.length written) (by simp)
  · next whole after _ _ same =>
      rw [← (Prod.mk.inj same).1, ← (Prod.mk.inj same).2]

theorem scanMagnitude_digits (number : Nat) {rest : List Char} (follows : Follows rest) :
    scanMagnitude (Text.digits number ++ rest) = some (Text.digits number, rest) := by
  have noFraction : scanFraction rest = some ([], rest) := by
    unfold scanFraction
    split
    · next more => exact absurd (follows '.' rfl) (by decide)
    · rfl
  have noExponent : scanExponent rest = some ([], rest) := by
    unfold scanExponent
    split
    · next letter more =>
        have others : marks.all (fun mark => !(mark == 'e' || mark == 'E')) = true := by
          decide
        have noLetter := List.all_eq_true.mp others letter (follows letter rfl)
        rw [Bool.not_eq_true'] at noLetter
        rw [noLetter, if_neg Bool.false_ne_true]
    · rfl
  simp [scanMagnitude, scanWhole_digits number follows, noFraction, noExponent]

/-- The characters that a number starts with. -/
def numeral : List Char :=
  ['-', '0', '1', '2', '3', '4', '5', '6', '7', '8', '9']

theorem ne_minus_of_digit {first : Char} (digit : first ∈ numeral.drop 1) : ¬ first = '-' := by
  have unsigned : (numeral.drop 1).all (· != '-') = true := by decide
  exact bne_iff_ne.mp (List.all_eq_true.mp unsigned first digit)

theorem exists_digit (number : Nat) :
    ∃ first more, Text.digits number = first :: more ∧ first ∈ numeral.drop 1 := by
  have allDigits : ∀ digit < 10, Text.digitCharacter digit ∈ numeral.drop 1 := by decide
  cases written : Text.digits number with
  | nil => exact absurd written (Text.digits_ne_nil number)
  | cons first more =>
      obtain ⟨digit, below, rfl⟩ := Text.mem_digits (written ▸ List.mem_cons_self)
      exact ⟨_, more, rfl, allDigits digit below⟩

theorem toList_ofInt (number : Int) :
    (Text.ofInt number).toList =
      if number < 0 then '-' :: Text.digits number.natAbs else Text.digits number.natAbs := by
  unfold Text.ofInt Text.ofNat
  split
  · rw [String.toList_append, String.toList_ofList, String.toList_ofList]
    rfl
  · rw [String.toList_ofList]

theorem exists_numeral (number : Int) :
    ∃ first more, (Text.ofInt number).toList = first :: more ∧ first ∈ numeral := by
  rw [toList_ofInt]
  split
  · exact ⟨_, _, rfl, by decide⟩
  · obtain ⟨first, more, written, digit⟩ := exists_digit number.natAbs
    exact ⟨first, more, written, List.mem_of_mem_drop digit⟩

theorem scanNumber_ofInt (number : Int) {rest : List Char} (follows : Follows rest) :
    scanNumber ((Text.ofInt number).toList ++ rest) =
      some ((Text.ofInt number).toList, rest) := by
  rw [toList_ofInt]
  split
  · rw [List.cons_append, scanNumber, scanMagnitude_digits _ follows, Option.map_some]
  · obtain ⟨first, more, written, digit⟩ := exists_digit number.natAbs
    rw [scanNumber.eq_2, scanMagnitude_digits _ follows]
    intro after same
    rw [written, List.cons_append] at same
    exact ne_minus_of_digit digit (List.cons.inj same).1

/-! ## Values -/

/-- A value whose numbers are whole. -/
inductive Whole : Json → Prop where
  | null : Whole .null
  | bool (value : Bool) : Whole (.bool value)
  | integer (number : Int) : Whole (.ofInt number)
  | string (text : Option String) : Whole (.string text)
  | array {items : List Json} (whole : ∀ item ∈ items, Whole item) : Whole (.array items)
  | object {members : List (Option String × Json)} (whole : ∀ member ∈ members, Whole member.2) :
      Whole (.object members)

/-- The characters that a value starts with. -/
def opening : List Char :=
  ['n', 't', 'f', '\x22', '[', '\x7b'] ++ numeral

theorem exists_opening {value : Json} (whole : value.Whole) :
    ∃ first more, compactCharacters value = first :: more ∧ first ∈ opening := by
  cases whole with
  | null => exact ⟨_, _, rfl, by decide⟩
  | bool value => cases value <;> exact ⟨_, _, rfl, by decide⟩
  | integer number =>
      obtain ⟨first, more, written, inNumeral⟩ := exists_numeral number
      exact ⟨first, more, written, List.mem_append_right _ inNumeral⟩
  | string text => cases text <;> exact ⟨_, _, rfl, by decide⟩
  | array whole => exact ⟨_, _, by rw [compactCharacters], by decide⟩
  | object whole => exact ⟨_, _, by rw [compactCharacters], by decide⟩

/-- A value starts with no blank and no mark that closes anything. -/
theorem skipBlanks_opening {value : Json} (whole : value.Whole) (rest : List Char) :
    ∃ first more, compactCharacters value ++ rest = first :: more ∧ first ∈ opening ∧
      skipBlanks (compactCharacters value ++ rest) = first :: more := by
  have noBlanks : opening.all (fun first => !(first == ' ' || first == '\n' || first == '\t' ||
      first == '\x0d')) = true := by decide
  obtain ⟨first, more, written, isOpening⟩ := exists_opening whole
  have noBlank := List.all_eq_true.mp noBlanks first isOpening
  rw [Bool.not_eq_true'] at noBlank
  refine ⟨first, more ++ rest, by rw [written, List.cons_append], isOpening, ?_⟩
  rw [written, List.cons_append, skipBlanks, List.dropWhile_cons, noBlank]
  exact if_neg Bool.false_ne_true

/-- A value is read back from its text, with whatever may follow it. -/
def ReadBack (value : Json) : Prop :=
  ∀ (fuel : Nat) (rest : List Char), (compactCharacters value).length ≤ fuel → Follows rest →
    readValue? fuel (compactCharacters value ++ rest) = some (value, rest)

theorem readValue?_numeral {first : Char} (isNumeral : first ∈ numeral) (fuel : Nat)
    (rest : List Char) :
    readValue? (fuel + 1) (first :: rest) =
      (scanNumber (first :: rest)).map fun result =>
        (.number (String.ofList result.1), result.2) := by
  simp only [numeral, List.mem_cons, List.not_mem_nil, or_false] at isNumeral
  rw [readValue?]
  rcases isNumeral with rfl | rfl | rfl | rfl | rfl | rfl | rfl | rfl | rfl | rfl | rfl <;> rfl

theorem readBack_integer (number : Int) : ReadBack (.ofInt number) := by
  intro fuel rest enough follows
  obtain ⟨first, more, written, isNumeral⟩ := exists_numeral number
  have characters : compactCharacters (.ofInt number) = (Text.ofInt number).toList := rfl
  rw [characters] at enough ⊢
  cases fuel with
  | zero =>
      rw [written] at enough
      exact absurd enough (by simp)
  | succ fuel =>
      rw [written, List.cons_append, readValue?_numeral isNumeral, ← List.cons_append, ← written,
        scanNumber_ofInt number follows, Option.map_some, String.ofList_toList]
      rfl

theorem readBack_null : ReadBack .null := by
  intro fuel rest enough _
  rw [compactCharacters] at enough ⊢
  cases fuel with
  | zero => exact absurd enough (by decide)
  | succ fuel =>
      rw [readValue?]
      rfl

theorem readBack_bool (value : Bool) : ReadBack (.bool value) := by
  intro fuel rest enough _
  rw [compactCharacters] at enough ⊢
  cases fuel with
  | zero => exact absurd enough (by cases value <;> decide)
  | succ fuel =>
      rw [readValue?]
      cases value <;> rfl

theorem readBack_string (text : Option String) : ReadBack (.string text) := by
  intro fuel rest enough _
  obtain ⟨units, inner, written, scanned, isText⟩ := scanString_quote text rest
  rw [compactCharacters] at enough ⊢
  cases fuel with
  | zero => cases text <;> exact absurd enough (by simp [quote])
  | succ fuel =>
      rw [written, readValue?]
      have quoted : skipBlanks ('\x22' :: inner) = '\x22' :: inner := rfl
      simp only [quoted, scanned, Option.map_some, isText]

theorem readItems?_compactItems (item : Json) (items : List Json)
    (readBack : ∀ inner ∈ item :: items, ReadBack inner) (fuel : Nat) (rest : List Char)
    (enough : (compactItems (item :: items)).length ≤ fuel) :
    readItems? fuel (compactItems (item :: items) ++ rest) = some (item :: items, rest) := by
  -- Each step takes an item and the mark after it, so the rest of the text bounds the rest of the
  -- steps.
  induction items generalizing item fuel with
  | nil =>
      rw [compactItems, compactMoreItems] at enough ⊢
      rw [List.length_append] at enough
      cases fuel with
      | zero => exact absurd enough (by simp)
      | succ fuel =>
          have first := readBack item List.mem_cons_self fuel (']' :: rest)
            (Nat.le_of_succ_le_succ enough) (follows_cons ']' (by decide) rest)
          rw [readItems?, List.append_assoc, List.cons_append, List.nil_append, first]
          rfl
  | cons second items inductionHypothesis =>
      have written : compactItems (item :: second :: items) =
          compactCharacters item ++ ',' :: compactItems (second :: items) := by
        rw [compactItems, compactMoreItems, compactItems]
      rw [written] at enough ⊢
      rw [List.length_append, List.length_cons] at enough
      cases fuel with
      | zero => exact absurd enough (by simp)
      | succ fuel =>
          have first := readBack item List.mem_cons_self fuel
            (',' :: (compactItems (second :: items) ++ rest)) (by omega)
            (follows_cons ',' (by decide) _)
          have others := inductionHypothesis second
            (fun inner member => readBack inner (List.mem_cons_of_mem _ member)) fuel (by omega)
          have mark : ∀ after, skipBlanks (',' :: after) = ',' :: after := fun _ => rfl
          rw [readItems?, List.append_assoc, List.cons_append, first]
          simp only [mark, others, Option.map_some]

theorem readBack_array {items : List Json} (whole : ∀ item ∈ items, Whole item)
    (readBack : ∀ item ∈ items, ReadBack item) : ReadBack (.array items) := by
  intro fuel rest enough _
  rw [compactCharacters, List.length_cons] at enough
  rw [compactCharacters, List.cons_append]
  have bracket : ∀ after, skipBlanks ('[' :: after) = '[' :: after := fun _ => rfl
  cases fuel with
  | zero => exact absurd enough (by simp)
  | succ fuel =>
      rw [readValue?]
      simp only [bracket]
      cases items with
      | nil => rfl
      | cons item items =>
          have read := readItems?_compactItems item items readBack fuel rest
            (Nat.le_of_succ_le_succ enough)
          have noBracket : opening.all (· != ']') = true := by decide
          obtain ⟨first, more, _, isOpening, skipped⟩ :=
            skipBlanks_opening (whole item List.mem_cons_self) (compactMoreItems items ++ rest)
          rw [← List.append_assoc, ← compactItems] at skipped
          rw [skipped, read]
          split
          · next after closed =>
              have other := bne_iff_ne.mp (List.all_eq_true.mp noBracket first isOpening)
              exact absurd (List.cons.inj closed).1 other
          · rfl

theorem readMember?_compactMember {member : Option String × Json} (readBack : ReadBack member.2)
    (fuel : Nat) {rest : List Char} (enough : (compactMember member).length ≤ fuel)
    (follows : Follows rest) :
    readMember? fuel (compactMember member ++ rest) = some (member, rest) := by
  obtain ⟨name, value⟩ := member
  rw [compactMember] at enough ⊢
  rw [List.length_append, List.length_cons] at enough
  cases fuel with
  | zero => exact absurd enough (by simp)
  | succ fuel =>
      obtain ⟨units, inner, written, scanned, isText⟩ :=
        scanString_quote name (':' :: (compactCharacters value ++ rest))
      have read := readBack fuel rest (by dsimp only; omega) follows
      have quoted : skipBlanks ('\x22' :: inner) = '\x22' :: inner := rfl
      have colon : ∀ after, skipBlanks (':' :: after) = ':' :: after := fun _ => rfl
      rw [readMember?, List.append_assoc, List.cons_append, written]
      simp only [quoted, scanned, colon, read, Option.map_some, isText]

theorem readMembers?_compactMembers (member : Option String × Json)
    (members : List (Option String × Json))
    (readBack : ∀ inner ∈ member :: members, ReadBack inner.2) (fuel : Nat) (rest : List Char)
    (enough : (compactMembers (member :: members)).length ≤ fuel) :
    readMembers? fuel (compactMembers (member :: members) ++ rest) =
      some (member :: members, rest) := by
  induction members generalizing member fuel with
  | nil =>
      rw [compactMembers, compactMoreMembers] at enough ⊢
      rw [List.length_append] at enough
      cases fuel with
      | zero => exact absurd enough (by simp)
      | succ fuel =>
          have first := readMember?_compactMember (readBack member List.mem_cons_self) fuel
            (Nat.le_of_succ_le_succ enough)
            (follows_cons '\x7d' (by decide) rest)
          rw [readMembers?, List.append_assoc, List.cons_append, List.nil_append, first]
          rfl
  | cons second members inductionHypothesis =>
      have written : compactMembers (member :: second :: members) =
          compactMember member ++ ',' :: compactMembers (second :: members) := by
        rw [compactMembers, compactMoreMembers, compactMembers]
      rw [written] at enough ⊢
      rw [List.length_append, List.length_cons] at enough
      cases fuel with
      | zero => exact absurd enough (by simp)
      | succ fuel =>
          have first := readMember?_compactMember (readBack member List.mem_cons_self) fuel
            (by omega)
            (follows_cons ',' (by decide) (compactMembers (second :: members) ++ rest))
          have others := inductionHypothesis second
            (fun inner inside => readBack inner (List.mem_cons_of_mem _ inside)) fuel (by omega)
          have comma : ∀ after, skipBlanks (',' :: after) = ',' :: after := fun _ => rfl
          rw [readMembers?, List.append_assoc, List.cons_append, first]
          simp only [comma, others, Option.map_some]

theorem readBack_object {members : List (Option String × Json)}
    (readBack : ∀ member ∈ members, ReadBack member.2) : ReadBack (.object members) := by
  intro fuel rest enough _
  rw [compactCharacters, List.length_cons] at enough
  rw [compactCharacters, List.cons_append]
  have brace : ∀ after, skipBlanks ('\x7b' :: after) = '\x7b' :: after := fun _ => rfl
  cases fuel with
  | zero => exact absurd enough (by simp)
  | succ fuel =>
      rw [readValue?]
      simp only [brace]
      cases members with
      | nil => rfl
      | cons member members =>
          have read := readMembers?_compactMembers member members readBack fuel rest
            (Nat.le_of_succ_le_succ enough)
          -- A member starts with the quote of its name, so the object is not found empty.
          have quoted : ∃ after, compactMembers (member :: members) ++ rest = '\x22' :: after := by
            obtain ⟨_ | name, value⟩ := member <;>
              exact ⟨_, by rw [compactMembers, compactMember]; rfl⟩
          obtain ⟨after, written⟩ := quoted
          rw [written] at read ⊢
          rw [read]
          rfl

/-- Every value with whole numbers is read back from its text. -/
theorem readBack_of_whole {value : Json} (whole : value.Whole) : ReadBack value := by
  induction whole with
  | null => exact readBack_null
  | bool value => exact readBack_bool value
  | integer number => exact readBack_integer number
  | string text => exact readBack_string text
  | array whole inductionHypothesis => exact readBack_array whole inductionHypothesis
  | object _ inductionHypothesis => exact readBack_object inductionHypothesis

theorem read?_compact {value : Json} (whole : value.Whole) : read? value.compact = some value := by
  have read := readBack_of_whole whole (3 * (compactCharacters value).length + 3) []
    (by omega) follows_nil
  rw [List.append_nil] at read
  rw [read?, compact, String.toList_ofList]
  simp only [read]
  rfl

end CodeIndex.Json
