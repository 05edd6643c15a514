import CodeIndex.Json.Decode
import CodeIndex.Proofs.Json.RoundTrip

/-!
Contract: typed values are read back from their JSON.

Owns:
- `Json.int64?_ofInt`, `Json.uint32?_ofNat`: numbers of a width;
- `Json.list?_map`, `Json.map?_record`: lists and maps, item by item;
- `Json.written`: the members of a record some of whose parts are left out;
- `Json.fields?_record_written`: all parts of such a record, whichever were left out;
- `Json.Whole` of what the constructors build.
-/

set_option autoImplicit false

namespace CodeIndex.Json

/-! ## Texts and numbers -/

@[simp]
theorem text?_ofText (text : String) : (ofText text).text? = some text := rfl

@[simp]
theorem caseName?_ofText (levels : Nat) (text : String) :
    (ofText text).caseName? levels = some text := rfl

theorem integer?_ofInt (number : Int) : (ofInt number).integer? = some number := by
  have digits := Text.ofDigits?_digits number.natAbs
  rw [ofInt, integer?, toList_ofInt]
  by_cases negative : number < 0
  · -- Minus zero is refused, but it is never written.
    have positive : ¬ number.natAbs = 0 := by omega
    simp only [if_pos negative, digits]
    have whole : -(number.natAbs : Int) = number := by omega
    rw [whole]
  · obtain ⟨first, more, written, digit⟩ := exists_digit number.natAbs
    rw [if_neg negative]
    split
    · next rest minus =>
        rw [written] at minus
        exact absurd (List.cons.inj minus).1 (ne_minus_of_digit digit)
    · rw [digits]
      exact congrArg some (Int.natAbs_of_nonneg (Int.not_lt.mp negative))

theorem ofNat_eq_ofInt (number : Nat) : ofNat number = ofInt number := by
  have natural : ¬ (number : Int) < 0 := by omega
  rw [ofNat, ofInt, Text.ofInt, if_neg natural, Int.natAbs_natCast]

@[simp]
theorem int64?_ofInt (number : Int64) : (ofInt number.toInt).int64? = some number := by
  have inRange : Int64.minValue.toInt ≤ number.toInt ∧ number.toInt ≤ Int64.maxValue.toInt :=
    ⟨number.minValue_le_toInt, number.toInt_le⟩
  simp only [int64?, integer?_ofInt, if_pos inRange, Int64.ofInt_toInt]

@[simp]
theorem uint32?_ofNat (number : UInt32) : (ofNat number.toNat).uint32? = some number := by
  have inRange : (0 : Int) ≤ number.toNat ∧ (number.toNat : Int) < UInt32.size :=
    ⟨Int.natCast_nonneg _, Int.ofNat_lt.mpr number.toNat_lt_size⟩
  simp only [uint32?, natBelow?, ofNat_eq_ofInt, integer?_ofInt, if_pos inRange, Int.toNat_natCast,
    Option.map_some, UInt32.ofNat_toNat]

/-! ## Lists and maps -/

theorem list?_map {α : Type} {encode : α → Json} {decode : Json → Option α} {values : List α}
    (readBack : ∀ value ∈ values, decode (encode value) = some value) :
    list? decode (.array (values.map encode)) = some values := by
  rw [list?]
  induction values with
  | nil => rfl
  | cons value rest inductionHypothesis =>
      have others := inductionHypothesis fun inner member =>
        readBack inner (List.mem_cons_of_mem _ member)
      rw [List.map_cons, decodeAll?, readBack value List.mem_cons_self, others]

theorem decodeMembers?_map {α : Type} {encode : α → Json} {decode : Json → Option α}
    (members : List (String × α)) (entries : Std.ExtTreeMap String α)
    (readBack : ∀ member ∈ members, decode (encode member.2) = some member.2) :
    decodeMembers? decode (members.map fun member => (some member.1, encode member.2)) entries =
      some (entries.insertMany members) := by
  induction members generalizing entries with
  | nil => simp [decodeMembers?]
  | cons member rest inductionHypothesis =>
      have others := inductionHypothesis (entries.insert member.1 member.2) fun inner inside =>
        readBack inner (List.mem_cons_of_mem _ inside)
      rw [List.map_cons, decodeMembers?, readBack member List.mem_cons_self]
      exact others.trans (congrArg some Std.ExtTreeMap.insertMany_cons.symm)

theorem insertMany_toList {α : Type} (entries : Std.ExtTreeMap String α) :
    (∅ : Std.ExtTreeMap String α).insertMany entries.toList = entries := by
  rw [← Std.ExtTreeMap.ofList_eq_insertMany_empty]
  apply Std.ExtTreeMap.ext_getElem?
  intro path
  cases found : entries[path]? with
  | some value =>
      exact Std.ExtTreeMap.getElem?_ofList_of_mem Std.ReflCmp.compare_self
        Std.ExtTreeMap.distinct_keys_toList
        (Std.ExtTreeMap.mem_toList_iff_getElem?_eq_some.mpr found)
  | none =>
      apply Std.ExtTreeMap.getElem?_ofList_of_contains_eq_false
      rw [Std.ExtTreeMap.map_fst_toList_eq_keys, Std.ExtTreeMap.contains_keys,
        Std.ExtTreeMap.contains_eq_isSome_getElem?, found, Option.isSome_none]

/-- A map is read back from the record of its entries. -/
theorem map?_record {α : Type} {encode : α → Json} {decode : Json → Option α}
    {entries : Std.ExtTreeMap String α}
    (readBack : ∀ entry ∈ entries.toList, decode (encode entry.2) = some entry.2) :
    map? decode (record (entries.toList.map fun entry => (entry.1, encode entry.2))) =
      some entries := by
  rw [record, map?, List.map_map]
  exact (decodeMembers?_map entries.toList ∅ readBack).trans
    (congrArg some (insertMany_toList entries))

/-! ## Records -/

/-- The members of a record, in the order of its parts; a part may be left out. -/
def written (parts : List (String × Option Json)) : List (String × Json) :=
  parts.filterMap fun part => part.2.map (part.1, ·)

@[simp]
theorem written_nil : written [] = [] := rfl

@[simp]
theorem written_cons (name : String) (value : Option Json)
    (rest : List (String × Option Json)) :
    written ((name, value) :: rest) = (value.map (name, ·)).toList ++ written rest := by
  cases value <;> rfl

/-- The members of a record as an object has them. -/
def named (members : List (String × Json)) : List (Option String × Json) :=
  members.map fun member => (some member.1, member.2)

theorem valuesOf_written_cons (part : String × Option Json) (rest : List (String × Option Json))
    (name : String) :
    valuesOf (named (written (part :: rest))) name =
      (if part.1 = name then part.2.toList else []) ++ valuesOf (named (written rest)) name := by
  obtain ⟨own, value⟩ := part
  cases value with
  | none => simp [written]
  | some value =>
      by_cases same : own = name
      · simp [valuesOf, named, written, same]
      · simp [valuesOf, named, written, same]

theorem valuesOf_written_of_not_mem {parts : List (String × Option Json)} {name : String}
    (unknown : name ∉ parts.map (·.1)) : valuesOf (named (written parts)) name = [] := by
  induction parts with
  | nil => rfl
  | cons part rest inductionHypothesis =>
      rw [List.map_cons, List.mem_cons, not_or] at unknown
      rw [valuesOf_written_cons, if_neg (Ne.symm unknown.1), inductionHypothesis unknown.2]
      rfl

theorem valuesOf_written_of_mem {parts : List (String × Option Json)}
    (distinct : (parts.map (·.1)).Nodup) {part : String × Option Json} (member : part ∈ parts) :
    valuesOf (named (written parts)) part.1 = part.2.toList := by
  induction parts with
  | nil => exact absurd member List.not_mem_nil
  | cons first rest inductionHypothesis =>
      rw [List.map_cons, List.nodup_cons] at distinct
      rw [valuesOf_written_cons]
      rcases List.mem_cons.mp member with rfl | later
      · rw [if_pos rfl, valuesOf_written_of_not_mem distinct.1, List.append_nil]
      · have other : ¬ first.1 = part.1 := by
          intro same
          exact distinct.1 (same ▸ List.mem_map_of_mem later)
        rw [if_neg other, inductionHypothesis distinct.2 later]
        rfl

theorem single?_eq_some {members : List (Option String × Json)} {name : String}
    {value : Option Json} (values : valuesOf members name = value.toList) :
    single? members name = some value := by
  rw [single?, values]
  cases value <;> rfl

/-- A record gives its parts back, those left out as such. -/
theorem fields?_record_written {parts : List (String × Option Json)}
    (distinct : (parts.map (·.1)).Nodup) :
    fields? (parts.map (·.1)) (record (written parts)) = some (parts.map (·.2)) := by
  have allNamed : (named (written parts)).all (fun member => member.1.isSome) = true := by
    simp [named]
  have single : ∀ part ∈ parts, single? (named (written parts)) part.1 = some part.2 :=
    fun part member => single?_eq_some (valuesOf_written_of_mem distinct member)
  have record_eq : record (written parts) = .object (named (written parts)) := rfl
  rw [record_eq, fields?, if_pos allNamed]
  generalize named (written parts) = members at single
  clear distinct allNamed record_eq
  induction parts with
  | nil => rfl
  | cons part rest inductionHypothesis =>
      have others := inductionHypothesis fun inner member =>
        single inner (List.mem_cons_of_mem _ member)
      rw [List.map_cons, List.mapM_cons, single part List.mem_cons_self, others]
      rfl

@[simp]
theorem fieldOr?_some {α : Type} (decode : Json → Option α) (absent : α) (value : Json) :
    fieldOr? decode absent (some value) = decode value := rfl

@[simp]
theorem within?_succ {α : Type} (levels : Nat) (decode : Nat → Json → Option α) (value : Json) :
    within? (levels + 1) decode value = decode levels value := rfl

theorem fieldOr?_optional (text : Option String) :
    fieldOr? (optional? text?) none (text.map ofText) = some text := by
  cases text <;> rfl

/-- A list as a part that is left out when it is empty. -/
def unlessEmpty (items : List Json) : Option Json :=
  if items.isEmpty then none else some (.array items)

theorem fieldOr?_unlessEmpty {α : Type} {encode : α → Json} {decode : Json → Option (List α)}
    {values : List α} (readBack : decode (.array (values.map encode)) = some values) :
    fieldOr? decode [] (unlessEmpty (values.map encode)) = some values := by
  cases values with
  | nil => rfl
  | cons value rest => exact readBack

/-! ## Whole values -/

theorem whole_ofText (text : String) : (ofText text).Whole :=
  .string (some text)

theorem whole_ofNat (number : Nat) : (ofNat number).Whole :=
  ofNat_eq_ofInt number ▸ .integer number

theorem whole_map {α : Type} {encode : α → Json} {values : List α}
    (whole : ∀ value ∈ values, (encode value).Whole) :
    (Json.array (values.map encode)).Whole := by
  apply Whole.array
  intro item member
  obtain ⟨value, inside, rfl⟩ := List.mem_map.mp member
  exact whole value inside

theorem whole_record {members : List (String × Json)}
    (whole : ∀ member ∈ members, member.2.Whole) : (record members).Whole := by
  apply Whole.object
  intro named inside
  obtain ⟨member, member_mem, rfl⟩ := List.mem_map.mp inside
  exact whole member member_mem

theorem whole_record_map {α : Type} {encode : α → Json} {entries : List (String × α)}
    (whole : ∀ entry ∈ entries, (encode entry.2).Whole) :
    (record (entries.map fun entry => (entry.1, encode entry.2))).Whole := by
  apply whole_record
  intro member inside
  obtain ⟨entry, listed, rfl⟩ := List.mem_map.mp inside
  exact whole entry listed

/-- A part that is left out, or whose value is whole. -/
def WholePart (part : Option Json) : Prop :=
  ∀ value ∈ part, value.Whole

theorem wholePart_some {value : Json} (whole : value.Whole) : WholePart (some value) := by
  intro inner found
  rwa [← Option.some.inj found]

theorem wholePart_optional (text : Option String) : WholePart (text.map ofText) := by
  intro value found
  obtain ⟨characters, _, rfl⟩ := Option.map_eq_some_iff.mp found
  exact whole_ofText characters

theorem wholePart_unlessEmpty {items : List Json} (whole : (Json.array items).Whole) :
    WholePart (unlessEmpty items) := by
  intro value found
  rw [unlessEmpty, Option.mem_def, Option.ite_none_left_eq_some, Option.some.injEq] at found
  rwa [← found.2]

theorem whole_record_written {parts : List (String × Option Json)}
    (whole : ∀ part ∈ parts, WholePart part.2) : (record (written parts)).Whole := by
  apply whole_record
  intro member inside
  obtain ⟨part, part_mem, isMember⟩ := List.mem_filterMap.mp inside
  obtain ⟨value, found, rfl⟩ := Option.map_eq_some_iff.mp isMember
  exact whole part part_mem value found

end CodeIndex.Json
