import CodeIndex.Proofs.Json.Decode
import CodeIndex.Proofs.Record.Flags

/-!
Contract: records are read back from their JSON.

Owns:
- `Symbol.Nested`: how deep the members of a symbol go;
- `ofJson?_toJson` of parameters, symbols, imports, exports and records;
- `whole_toJson` of each of them.

Each encoder is first brought into the form of a list of parts, some of them left out.
-/

set_option autoImplicit false

namespace CodeIndex

open Json (written unlessEmpty)

/-! ## Parameters -/

namespace Param

def parts (param : Param) : List (String × Option Json) :=
  [("name", some (.ofText param.name)), ("type_text", param.typeText.map Json.ofText)]

theorem toJson_eq (param : Param) : param.toJson = .record (written param.parts) := by
  obtain ⟨name, typeText⟩ := param
  cases typeText <;> rfl

theorem fields?_toJson (param : Param) :
    param.toJson.fields? ["name", "type_text"] = some (param.parts.map (·.2)) := by
  rw [toJson_eq]
  exact Json.fields?_record_written (by simp [parts])

theorem ofJson?_toJson (levels : Nat) (param : Param) :
    ofJson? (levels + 1) param.toJson = some param := by
  simp [ofJson?, fields?_toJson, parts, Json.fieldOr?_optional]

theorem whole_toJson (param : Param) : param.toJson.Whole := by
  rw [toJson_eq]
  apply Json.whole_record_written
  simp only [parts, List.forall_mem_cons]
  exact ⟨Json.wholePart_some (Json.whole_ofText _), Json.wholePart_optional _, by simp⟩

end Param

/-! ## Symbols -/

namespace Symbol

/-- The members of a symbol go at most so many levels down. -/
def Nested : Nat → Symbol → Prop
  | 0, symbol => symbol.methods = []
  | depth + 1, symbol => ∀ method ∈ symbol.methods, Nested depth method

theorem toJsons_eq_map (symbols : List Symbol) : toJsons symbols = symbols.map toJson := by
  induction symbols with
  | nil => rfl
  | cons symbol rest inductionHypothesis =>
      rw [toJsons, inductionHypothesis, List.map_cons]

theorem listMember_eq (name : String) (items : List Json) :
    listMember name items = ((unlessEmpty items).map (name, ·)).toList := by
  cases items <;> rfl

def parts (symbol : Symbol) : List (String × Option Json) :=
  [("name", some (.ofText symbol.name)),
    ("kind", some (.ofText symbol.kind.name)),
    ("line", some (.ofNat symbol.line.toNat)),
    ("endLine", some (.ofNat symbol.endLine.toNat)),
    ("params", unlessEmpty (symbol.params.map Param.toJson)),
    ("returnType", symbol.returnType.map Json.ofText),
    ("flags", some (.ofText symbol.flags.text)),
    ("methods", unlessEmpty (symbol.methods.map toJson)),
    ("calls", unlessEmpty (symbol.calls.map Json.ofText))]

theorem toJson_eq (symbol : Symbol) : symbol.toJson = .record (written symbol.parts) := by
  obtain ⟨name, kind, line, endLine, params, returnType, flags, methods, calls⟩ := symbol
  rw [toJson, toJsons_eq_map]
  simp [parts, listMember_eq, Function.comp_def]

theorem fields?_toJson (symbol : Symbol) :
    symbol.toJson.fields? ["name", "kind", "line", "endLine", "params", "returnType", "flags",
      "methods", "calls"] = some (symbol.parts.map (·.2)) := by
  rw [toJson_eq]
  exact Json.fields?_record_written (by simp [parts])

/-- A symbol is read back if its members are. Its parameters need an array and an object. -/
theorem ofJson?_of_methods {symbol : Symbol} {levels : Nat}
    (methods : ∀ method ∈ symbol.methods, ofJson? (levels + 1) method.toJson = some method) :
    ofJson? (levels + 3) symbol.toJson = some symbol := by
  have readParams : Json.fieldOr? (Json.within? (levels + 2) fun rest =>
      Json.list? (Param.ofJson? rest)) [] (unlessEmpty (symbol.params.map Param.toJson)) =
        some symbol.params :=
    Json.fieldOr?_unlessEmpty (Json.list?_map fun param _ => Param.ofJson?_toJson levels param)
  have readMethods : Json.fieldOr? (Json.list? (ofJson? (levels + 1))) []
      (unlessEmpty (symbol.methods.map toJson)) = some symbol.methods :=
    Json.fieldOr?_unlessEmpty (Json.list?_map methods)
  have readCalls : Json.fieldOr? (Json.within? (levels + 2) fun _ => Json.list? Json.text?) []
      (unlessEmpty (symbol.calls.map Json.ofText)) = some symbol.calls :=
    Json.fieldOr?_unlessEmpty (Json.list?_map fun call _ => Json.text?_ofText call)
  simp [ofJson?, fields?_toJson, parts, kindOfJson?, SymbolKind.ofName?_name, readParams,
    Json.fieldOr?_optional, Flags.ofText?_text, readMethods, readCalls]
  cases symbol
  rfl

theorem ofJson?_toJson {depth : Nat} {symbol : Symbol} (nested : symbol.Nested depth) {levels : Nat}
    (enough : 2 * depth + 3 ≤ levels) : ofJson? levels symbol.toJson = some symbol := by
  induction depth generalizing symbol levels with
  | zero =>
      obtain ⟨rest, rfl⟩ := Nat.exists_eq_add_of_le' enough
      apply ofJson?_of_methods
      intro method member
      rw [Nested] at nested
      exact absurd (nested ▸ member) List.not_mem_nil
  | succ depth inductionHypothesis =>
      obtain ⟨rest, rfl⟩ := Nat.exists_eq_add_of_le' (Nat.le_trans (Nat.le_add_left 3 _) enough)
      apply ofJson?_of_methods
      intro method member
      exact inductionHypothesis (nested method member) (by omega)

theorem whole_of_methods {symbol : Symbol}
    (methods : ∀ method ∈ symbol.methods, method.toJson.Whole) : symbol.toJson.Whole := by
  have params := Json.whole_map fun param (_ : param ∈ symbol.params) => param.whole_toJson
  have calls := Json.whole_map fun call (_ : call ∈ symbol.calls) => Json.whole_ofText call
  rw [toJson_eq]
  apply Json.whole_record_written
  simp only [parts, List.forall_mem_cons]
  exact ⟨Json.wholePart_some (Json.whole_ofText _), Json.wholePart_some (Json.whole_ofText _),
    Json.wholePart_some (Json.whole_ofNat _), Json.wholePart_some (Json.whole_ofNat _),
    Json.wholePart_unlessEmpty params, Json.wholePart_optional _,
    Json.wholePart_some (Json.whole_ofText _),
    Json.wholePart_unlessEmpty (Json.whole_map methods), Json.wholePart_unlessEmpty calls, by simp⟩

theorem whole_toJson (symbol : Symbol) : symbol.toJson.Whole :=
  whole_of_methods fun method _ => method.whole_toJson
termination_by sizeOf symbol
decreasing_by
  rename_i inside
  have smaller := List.sizeOf_lt_of_mem inside
  cases symbol
  simp only [Symbol.mk.sizeOf_spec] at smaller ⊢
  omega

end Symbol

/-! ## Imports -/

namespace Import

/-- The aliases as a part that is left out when there are none. -/
def aliasesPart (statement : Import) : Option Json :=
  if statement.aliases.isEmpty then
    none
  else
    some (.record (statement.aliases.toList.map fun entry => (entry.1, Json.ofText entry.2)))

def parts (statement : Import) : List (String × Option Json) :=
  [("source", some (.ofText statement.source)),
    ("names", some (.ofTexts statement.names)),
    ("typeOnly", some (.bool statement.typeOnly)),
    ("line", some (.ofNat statement.line.toNat)),
    ("aliases", statement.aliasesPart)]

theorem toJson_eq (statement : Import) :
    statement.toJson = .record (written statement.parts) := by
  unfold toJson parts aliasesPart
  split <;> rfl

theorem fieldOr?_aliasesPart (statement : Import) :
    Json.fieldOr? (Json.map? Json.text?) ∅ statement.aliasesPart = some statement.aliases := by
  unfold aliasesPart
  split
  · next isEmpty =>
      rw [Std.ExtTreeMap.isEmpty_iff.mp isEmpty]
      rfl
  · exact Json.map?_record fun entry _ => Json.text?_ofText entry.2

theorem wholePart_aliasesPart (statement : Import) : Json.WholePart statement.aliasesPart := by
  intro value found
  rw [aliasesPart, Option.mem_def, Option.ite_none_left_eq_some, Option.some.injEq] at found
  rw [← found.2]
  exact Json.whole_record_map fun entry _ => Json.whole_ofText entry.2

theorem fields?_toJson (statement : Import) :
    statement.toJson.fields? ["source", "names", "typeOnly", "line", "aliases"] =
      some (statement.parts.map (·.2)) := by
  rw [toJson_eq]
  exact Json.fields?_record_written (by simp [parts])

theorem ofJson?_toJson (levels : Nat) (statement : Import) :
    ofJson? (levels + 2) statement.toJson = some statement := by
  have readNames : Json.list? Json.text? (.ofTexts statement.names) = some statement.names :=
    Json.list?_map fun name _ => Json.text?_ofText name
  have readAliases : Json.fieldOr? (Json.within? (levels + 1) fun _ => Json.map? Json.text?) ∅
      statement.aliasesPart = some statement.aliases := fieldOr?_aliasesPart statement
  simp [ofJson?, fields?_toJson, parts, Json.bool?, readNames, readAliases]

theorem whole_toJson (statement : Import) : statement.toJson.Whole := by
  have names := Json.whole_map fun name (_ : name ∈ statement.names) => Json.whole_ofText name
  rw [toJson_eq]
  apply Json.whole_record_written
  simp only [parts, List.forall_mem_cons]
  exact ⟨Json.wholePart_some (Json.whole_ofText _), Json.wholePart_some names,
    Json.wholePart_some (.bool _), Json.wholePart_some (Json.whole_ofNat _),
    wholePart_aliasesPart statement, by simp⟩

end Import

/-! ## Exports -/

namespace Export

def parts (entry : Export) : List (String × Option Json) :=
  [("name", some (.ofText entry.name)),
    ("kind", some (.ofText entry.kind.name)),
    ("line", some (.ofNat entry.line.toNat)),
    ("source", entry.source.map Json.ofText)]

theorem toJson_eq (entry : Export) : entry.toJson = .record (written entry.parts) := by
  simp [toJson, parts, Function.comp_def]

theorem fields?_toJson (entry : Export) :
    entry.toJson.fields? ["name", "kind", "line", "source"] = some (entry.parts.map (·.2)) := by
  rw [toJson_eq]
  exact Json.fields?_record_written (by simp [parts])

theorem ofJson?_toJson (levels : Nat) (entry : Export) :
    ofJson? (levels + 1) entry.toJson = some entry := by
  simp [ofJson?, fields?_toJson, parts, kindOfJson?, ExportKind.ofName?_name,
    Json.fieldOr?_optional]

theorem whole_toJson (entry : Export) : entry.toJson.Whole := by
  rw [toJson_eq]
  apply Json.whole_record_written
  simp only [parts, List.forall_mem_cons]
  exact ⟨Json.wholePart_some (Json.whole_ofText _), Json.wholePart_some (Json.whole_ofText _),
    Json.wholePart_some (Json.whole_ofNat _), Json.wholePart_optional _, by simp⟩

end Export

/-! ## Records -/

namespace Record

def parts (record : Record) : List (String × Option Json) :=
  [("path", some (.ofText record.path)),
    ("fingerprint", some (.ofText record.fingerprint)),
    ("lastIndexed", some (.ofInt record.lastIndexed.toInt)),
    ("symbols", some (.array (record.symbols.map Symbol.toJson))),
    ("imports", some (.array (record.imports.map Import.toJson))),
    ("exports", some (.array (record.exports.map Export.toJson))),
    ("skeleton", some (.ofText record.skeleton))]

theorem toJson_eq (record : Record) : record.toJson = .record (written record.parts) := by
  rw [toJson, Symbol.toJsons_eq_map]
  rfl

theorem fields?_toJson (record : Record) :
    record.toJson.fields? ["path", "fingerprint", "lastIndexed", "symbols", "imports", "exports",
      "skeleton"] = some (record.parts.map (·.2)) := by
  rw [toJson_eq]
  exact Json.fields?_record_written (by simp [parts])

theorem ofJson?_toJson {depth : Nat} {record : Record}
    (nested : ∀ symbol ∈ record.symbols, symbol.Nested depth) {levels : Nat}
    (enough : 2 * depth + 5 ≤ levels) : ofJson? levels record.toJson = some record := by
  obtain ⟨rest, rfl⟩ := Nat.exists_eq_add_of_le' (Nat.le_trans (Nat.le_add_left 5 _) enough)
  have readSymbols : Json.list? (Symbol.ofJson? (rest + 3))
      (.array (record.symbols.map Symbol.toJson)) = some record.symbols :=
    Json.list?_map fun symbol member => Symbol.ofJson?_toJson (nested symbol member) (by omega)
  have readImports : Json.list? (Import.ofJson? (rest + 3))
      (.array (record.imports.map Import.toJson)) = some record.imports :=
    Json.list?_map fun statement _ => Import.ofJson?_toJson (rest + 1) statement
  have readExports : Json.list? (Export.ofJson? (rest + 3))
      (.array (record.exports.map Export.toJson)) = some record.exports :=
    Json.list?_map fun entry _ => Export.ofJson?_toJson (rest + 2) entry
  simp [ofJson?, fields?_toJson, parts, readSymbols, readImports, readExports]

theorem whole_toJson (record : Record) : record.toJson.Whole := by
  have symbols := Json.whole_map fun symbol (_ : symbol ∈ record.symbols) => symbol.whole_toJson
  have imports := Json.whole_map fun statement (_ : statement ∈ record.imports) =>
    statement.whole_toJson
  have exports := Json.whole_map fun entry (_ : entry ∈ record.exports) => entry.whole_toJson
  rw [toJson_eq]
  apply Json.whole_record_written
  simp only [parts, List.forall_mem_cons]
  exact ⟨Json.wholePart_some (Json.whole_ofText _), Json.wholePart_some (Json.whole_ofText _),
    Json.wholePart_some (.integer _), Json.wholePart_some symbols, Json.wholePart_some imports,
    Json.wholePart_some exports, Json.wholePart_some (Json.whole_ofText _), by simp⟩

end Record

end CodeIndex
