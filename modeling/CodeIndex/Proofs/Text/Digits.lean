import CodeIndex.Text.Digits

/-!
Contract: numbers are read back from their digits.

Owns:
- `Text.ofDigitsIn?_digitsIn`: the digits of a number in a base give the number again;
- `Text.ofHexDigits?_padLeft`: zeros before them do not count;
- `Text.length_digitsIn_le`: how many digits a number has;
- `Text.head?_digits_ne_zero`: only the digits of zero start with a zero.
-/

set_option autoImplicit false

namespace CodeIndex.Text

/-! ## One digit -/

theorem digitValue?_digitCharacter {base digit : Nat} (atMostSixteen : base ≤ 16)
    (below : digit < base) : digitValue? base (digitCharacter digit) = some digit := by
  have values : ∀ digit < 16, hexValue? (digitCharacter digit) = some digit := by decide
  rw [digitValue?, values digit (Nat.lt_of_lt_of_le below atMostSixteen)]
  exact if_pos below

/-! ## Rows of digits -/

theorem continueDigits?_append (base number : Nat) (front back : List Char) :
    continueDigits? base number (front ++ back) =
      (continueDigits? base number front).bind fun reached =>
        continueDigits? base reached back := by
  induction front generalizing number with
  | nil => rfl
  | cons character rest inductionHypothesis =>
      rw [List.cons_append, continueDigits?, continueDigits?]
      cases digitValue? base character with
      | none => rfl
      | some value => exact inductionHypothesis (number * base + value)

theorem continueDigits?_digitsIn {base : Nat} (atLeastTwo : 2 ≤ base) (atMostSixteen : base ≤ 16)
    (number : Nat) : continueDigits? base 0 (digitsIn base atLeastTwo number) = some number := by
  fun_induction digitsIn base atLeastTwo number with
  | case1 number below =>
      simp [continueDigits?, digitValue?_digitCharacter atMostSixteen below]
  | case2 number _ inductionHypothesis =>
      have last := digitValue?_digitCharacter atMostSixteen
        (Nat.mod_lt number (Nat.lt_of_lt_of_le Nat.two_pos atLeastTwo))
      rw [continueDigits?_append, inductionHypothesis, Option.bind_some, continueDigits?, last]
      exact congrArg some (Nat.div_add_mod' number base)

theorem digitsIn_ne_nil {base : Nat} (atLeastTwo : 2 ≤ base) (number : Nat) :
    ¬ digitsIn base atLeastTwo number = [] := by
  rw [digitsIn]
  split <;> simp

theorem ofDigitsIn?_digitsIn {base : Nat} (atLeastTwo : 2 ≤ base) (atMostSixteen : base ≤ 16)
    (number : Nat) : ofDigitsIn? base (digitsIn base atLeastTwo number) = some number := by
  rw [ofDigitsIn?, if_neg (mt List.isEmpty_iff.mp (digitsIn_ne_nil atLeastTwo number)),
    continueDigits?_digitsIn atLeastTwo atMostSixteen]

theorem ofDigits?_digits (number : Nat) : ofDigits? (digits number) = some number :=
  ofDigitsIn?_digitsIn (by decide) (by decide) number

theorem ofHexDigits?_hexDigits (number : Nat) : ofHexDigits? (hexDigits number) = some number :=
  ofDigitsIn?_digitsIn (by decide) (by decide) number

/-- Zeros before digits do not count. -/
theorem ofHexDigits?_padLeft (length : Nat) {characters : List Char} {number : Nat}
    (read : ofHexDigits? characters = some number) :
    ofHexDigits? (padLeft length '0' characters) = some number := by
  have zeros : ∀ count, continueDigits? 16 0 (List.replicate count '0') = some 0 := by
    intro count
    induction count with
    | zero => rfl
    | succ count inductionHypothesis => exact inductionHypothesis
  unfold ofHexDigits? ofDigitsIn? padLeft at *
  split at read
  · exact absurd read (by simp)
  · next some =>
      have padded : ¬ (List.replicate (length - characters.length) '0' ++ characters).isEmpty =
          true := by
        simpa using fun _ => by simpa using some
      rw [if_neg padded, continueDigits?_append, zeros, Option.bind_some, read]

/-! ## Decimal digits -/

theorem digits_ne_nil (number : Nat) : ¬ digits number = [] :=
  digitsIn_ne_nil (by decide) number

theorem digits_of_lt_ten {number : Nat} (below : number < 10) :
    digits number = [digitCharacter number] := by
  rw [digits, digitsIn, if_pos below]

theorem digits_of_ten_le {number : Nat} (reached : 10 ≤ number) :
    digits number = digits (number / 10) ++ [digitCharacter (number % 10)] := by
  rw [digits, digitsIn, if_neg (Nat.not_lt.mpr reached)]
  rfl

theorem mem_digitsIn {base number : Nat} (atLeastTwo : 2 ≤ base) {character : Char}
    (member : character ∈ digitsIn base atLeastTwo number) :
    ∃ digit < base, character = digitCharacter digit := by
  fun_induction digitsIn base atLeastTwo number with
  | case1 number below => exact ⟨number, below, List.mem_singleton.mp member⟩
  | case2 number _ inductionHypothesis =>
      rcases List.mem_append.mp member with front | last
      · exact inductionHypothesis front
      · exact ⟨number % base, Nat.mod_lt number (by omega), List.mem_singleton.mp last⟩

theorem mem_digits {number : Nat} {character : Char} (member : character ∈ digits number) :
    ∃ digit < 10, character = digitCharacter digit :=
  mem_digitsIn (by decide) member

/-- Only zero starts with a zero. -/
theorem head?_digits_ne_zero {number : Nat} (positive : 0 < number) :
    ¬ (digits number).head? = some '0' := by
  induction number using Nat.strongRecOn with
  | ind number inductionHypothesis =>
      by_cases below : number < 10
      · have others : ∀ digit < 10, 0 < digit → ¬ digitCharacter digit = '0' := by decide
        rw [digits_of_lt_ten below, List.head?_cons, Option.some.injEq]
        exact others number below positive
      · have shorter := inductionHypothesis (number / 10) (by omega) (by omega)
        rw [digits_of_ten_le (Nat.not_lt.mp below)]
        cases front : digits (number / 10) with
        | nil => exact absurd front (digits_ne_nil _)
        | cons first rest =>
            rw [front] at shorter
            exact shorter

/-! ## Width -/

theorem length_digitsIn_le {base : Nat} (atLeastTwo : 2 ≤ base) (count number : Nat)
    (below : number < base.pow (count + 1)) :
    (digitsIn base atLeastTwo number).length ≤ count + 1 := by
  induction count generalizing number with
  | zero =>
      have single : number < base := by simpa using below
      rw [digitsIn, if_pos single]
      simp
  | succ count inductionHypothesis =>
      rw [digitsIn]
      split
      · simp
      · have shorter : number / base < base.pow (count + 1) :=
          Nat.div_lt_of_lt_mul (Nat.mul_comm _ _ ▸ below)
        have shown := inductionHypothesis (number / base) shorter
        rw [List.length_append, List.length_singleton]
        omega

theorem length_padLeft {length : Nat} {characters : List Char} (filler : Char)
    (fits : characters.length ≤ length) : (padLeft length filler characters).length = length := by
  rw [padLeft, List.length_append, List.length_replicate]
  omega

end CodeIndex.Text
