import CodeIndex.Text.Utf8

/-!
Contract: texts are read back from their bytes.

Owns:
- `Text.decodeBytes_utf8EncodeChar`: the bytes of one character, with whatever follows;
- `Text.decode?_toUTF8`: the bytes of a text have no gap, and give the text.
-/

set_option autoImplicit false

namespace CodeIndex.Text

/-! ## Characters by their number of bytes -/

theorem isContinuation_iff (byte : UInt8) :
    isContinuation byte = true ↔ 0x80 ≤ byte.toNat ∧ byte.toNat ≤ 0xbf := by
  simp [isContinuation, UInt8.le_iff_toNat_le]

theorem startsThree_iff (first second : UInt8) :
    startsThree first second = true ↔
      (first.toNat = 0xe0 ∧ 0xa0 ≤ second.toNat ∧ second.toNat ≤ 0xbf) ∨
      (0xe1 ≤ first.toNat ∧ first.toNat ≤ 0xec ∧ 0x80 ≤ second.toNat ∧ second.toNat ≤ 0xbf) ∨
      (first.toNat = 0xed ∧ 0x80 ≤ second.toNat ∧ second.toNat ≤ 0x9f) ∨
      (0xee ≤ first.toNat ∧ first.toNat ≤ 0xef ∧ 0x80 ≤ second.toNat ∧ second.toNat ≤ 0xbf) := by
  simp [startsThree, isContinuation, UInt8.le_iff_toNat_le, ← UInt8.toNat_inj, and_assoc, or_assoc]

theorem startsFour_iff (first second : UInt8) :
    startsFour first second = true ↔
      (first.toNat = 0xf0 ∧ 0x90 ≤ second.toNat ∧ second.toNat ≤ 0xbf) ∨
      (0xf1 ≤ first.toNat ∧ first.toNat ≤ 0xf3 ∧ 0x80 ≤ second.toNat ∧ second.toNat ≤ 0xbf) ∨
      (first.toNat = 0xf4 ∧ 0x80 ≤ second.toNat ∧ second.toNat ≤ 0x8f) := by
  simp [startsFour, isContinuation, UInt8.le_iff_toNat_le, ← UInt8.toNat_inj, and_assoc, or_assoc]

theorem decodeBytes_one {first : UInt8} (below : first.toNat < 0x80) (rest : List UInt8) :
    decodeBytes (first :: rest) = some (Char.ofNat first.toNat) :: decodeBytes rest := by
  rw [decodeBytes.eq_def]
  exact if_pos (UInt8.lt_iff_toNat_lt.mpr below)

section Longer

variable {first second third fourth : UInt8} (rest : List UInt8)

theorem not_isOne (reached : 0x80 ≤ first.toNat) : ¬ first < 0x80 := by
  rw [UInt8.lt_iff_toNat_lt]
  exact Nat.not_lt.mpr reached

theorem not_isTwo (reached : 0xe0 ≤ first.toNat) :
    ¬ (0xc2 ≤ first && first ≤ 0xdf && isContinuation second) = true := by
  have above : ¬ first.toNat ≤ 0xdf := by omega
  simp [UInt8.le_iff_toNat_le, above]

theorem decodeBytes_two (starts : 0xc2 ≤ first.toNat ∧ first.toNat ≤ 0xdf)
    (continues : isContinuation second = true) :
    decodeBytes (first :: second :: rest) =
      some (assemble first 32 [second]) :: decodeBytes rest := by
  have isTwo : (0xc2 ≤ first && first ≤ 0xdf && isContinuation second) = true := by
    simpa [UInt8.le_iff_toNat_le, continues] using starts
  rw [decodeBytes.eq_def]
  dsimp only
  rw [if_neg (not_isOne (by omega)), if_pos isTwo]

theorem decodeBytes_three (starts : startsThree first second = true)
    (continues : isContinuation third = true) :
    decodeBytes (first :: second :: third :: rest) =
      some (assemble first 16 [second, third]) :: decodeBytes rest := by
  have reached : 0xe0 ≤ first.toNat := by
    have cases := (startsThree_iff first second).mp starts
    omega
  rw [decodeBytes.eq_def]
  dsimp only
  rw [if_neg (not_isOne (by omega)), if_neg (not_isTwo reached), if_pos starts, if_pos continues]

theorem decodeBytes_four (starts : startsFour first second = true)
    (continuesThird : isContinuation third = true)
    (continuesFourth : isContinuation fourth = true) :
    decodeBytes (first :: second :: third :: fourth :: rest) =
      some (assemble first 8 [second, third, fourth]) :: decodeBytes rest := by
  have reached : 0xf0 ≤ first.toNat := by
    have cases := (startsFour_iff first second).mp starts
    omega
  have notThree : ¬ startsThree first second = true := by
    rw [startsThree_iff]
    omega
  rw [decodeBytes.eq_def]
  dsimp only
  rw [if_neg (not_isOne (by omega)), if_neg (not_isTwo (by omega)), if_neg notThree,
    if_pos starts, if_pos continuesThird, if_pos continuesFourth]

end Longer

/-! ## Characters by their number -/

theorem assemble_eq {first : UInt8} {mask : Nat} {others : List UInt8} {number : Nat}
    (payload : others.foldl (fun code byte => code * 64 + byte.toNat % 64) (first.toNat % mask) =
      number) : assemble first mask others = Char.ofNat number := by
  rw [assemble, payload]

section Encoded

variable {number : Nat} (rest : List UInt8)

theorem decodeBytes_below_80 (below : number < 0x80) :
    decodeBytes (UInt8.ofNat number :: rest) = some (Char.ofNat number) :: decodeBytes rest := by
  have first := UInt8.toNat_ofNat_of_lt' (show number < 256 by omega)
  rw [decodeBytes_one (by omega), first]

theorem decodeBytes_below_800 (atLeast : 0x80 ≤ number) (below : number < 0x800) :
    decodeBytes (UInt8.ofNat (number / 64 % 32 + 192) :: UInt8.ofNat (number % 64 + 128) :: rest) =
      some (Char.ofNat number) :: decodeBytes rest := by
  have first := UInt8.toNat_ofNat_of_lt' (show number / 64 % 32 + 192 < 256 by omega)
  have second := UInt8.toNat_ofNat_of_lt' (show number % 64 + 128 < 256 by omega)
  rw [decodeBytes_two, assemble_eq]
  · simp only [List.foldl_cons, List.foldl_nil, first, second]
    omega
  · omega
  · rw [isContinuation_iff]
    omega

theorem decodeBytes_below_10000 (atLeast : 0x800 ≤ number) (below : number < 0x10000)
    (noSurrogate : number < 0xd800 ∨ 0xdfff < number) :
    decodeBytes (UInt8.ofNat (number / 4096 % 16 + 224) :: UInt8.ofNat (number / 64 % 64 + 128) ::
        UInt8.ofNat (number % 64 + 128) :: rest) =
      some (Char.ofNat number) :: decodeBytes rest := by
  have first := UInt8.toNat_ofNat_of_lt' (show number / 4096 % 16 + 224 < 256 by omega)
  have second := UInt8.toNat_ofNat_of_lt' (show number / 64 % 64 + 128 < 256 by omega)
  have third := UInt8.toNat_ofNat_of_lt' (show number % 64 + 128 < 256 by omega)
  rw [decodeBytes_three, assemble_eq]
  · simp only [List.foldl_cons, List.foldl_nil, first, second, third]
    omega
  · rw [startsThree_iff]
    omega
  · rw [isContinuation_iff]
    omega

theorem decodeBytes_below_110000 (atLeast : 0x10000 ≤ number) (below : number < 0x110000) :
    decodeBytes (UInt8.ofNat (number / 262144 % 8 + 240) ::
        UInt8.ofNat (number / 4096 % 64 + 128) :: UInt8.ofNat (number / 64 % 64 + 128) ::
        UInt8.ofNat (number % 64 + 128) :: rest) =
      some (Char.ofNat number) :: decodeBytes rest := by
  have first := UInt8.toNat_ofNat_of_lt' (show number / 262144 % 8 + 240 < 256 by omega)
  have second := UInt8.toNat_ofNat_of_lt' (show number / 4096 % 64 + 128 < 256 by omega)
  have third := UInt8.toNat_ofNat_of_lt' (show number / 64 % 64 + 128 < 256 by omega)
  have fourth := UInt8.toNat_ofNat_of_lt' (show number % 64 + 128 < 256 by omega)
  rw [decodeBytes_four, assemble_eq]
  · simp only [List.foldl_cons, List.foldl_nil, first, second, third, fourth]
    omega
  · rw [startsFour_iff]
    omega
  · rw [isContinuation_iff]
    omega
  · rw [isContinuation_iff]
    omega

end Encoded

/-- The bytes of a character are read as that character. -/
theorem decodeBytes_utf8EncodeChar (character : Char) (rest : List UInt8) :
    decodeBytes (String.utf8EncodeChar character ++ rest) = some character :: decodeBytes rest := by
  have valid : character.val.toNat < 0xd800 ∨
      (0xdfff < character.val.toNat ∧ character.val.toNat < 0x110000) := character.valid
  have same : Char.ofNat character.val.toNat = character := Char.ofNat_toNat character
  unfold String.utf8EncodeChar
  dsimp only
  generalize character.val.toNat = number at valid same ⊢
  rw [← same]
  split
  · exact decodeBytes_below_80 rest (by omega)
  · split
    · exact decodeBytes_below_800 rest (by omega) (by omega)
    · split
      · exact decodeBytes_below_10000 rest (by omega) (by omega) (by omega)
      · exact decodeBytes_below_110000 rest (by omega) (by omega)

/-! ## Texts -/

theorem decodeBytes_flatMap_utf8EncodeChar (characters : List Char) :
    decodeBytes (characters.flatMap String.utf8EncodeChar) = characters.map some := by
  induction characters with
  | nil => rfl
  | cons character rest inductionHypothesis =>
      rw [List.flatMap_cons, decodeBytes_utf8EncodeChar, inductionHypothesis, List.map_cons]

theorem decode?_toUTF8 (text : String) : decode? text.toUTF8 = some text := by
  have bytes : text.toUTF8.data.toList = text.toList.flatMap String.utf8EncodeChar := by
    have encoded := String.toByteArray_ofList (l := text.toList)
    rw [String.ofList_toList] at encoded
    rw [String.toUTF8, encoded, List.utf8Encode]
    simp
  have complete : ∀ characters : List Char, (characters.map some).mapM id = some characters := by
    intro characters
    induction characters with
    | nil => rfl
    | cons first rest inductionHypothesis => simp [inductionHypothesis]
  rw [decode?, bytes, decodeBytes_flatMap_utf8EncodeChar, complete, Option.map_some,
    String.ofList_toList]

end CodeIndex.Text
