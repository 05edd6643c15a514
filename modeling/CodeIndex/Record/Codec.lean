import CodeIndex.Json.Decode
import CodeIndex.Record.Basic
import CodeIndex.Text.Blank
import CodeIndex.Text.Split

/-!
Contract: records as JSON.

Owns:
- `Flags.text`, `Flags.ofText?`: marks as names, further bits as one hexadecimal number;
- `toJson` and `ofJson?` of parameters, symbols, imports, exports and records.

Lists that are empty and texts that are missing are left out of symbols; the other parts are
always written. A decoder's first argument is the number of levels that arrays and objects may be
nested.
-/

set_option autoImplicit false

namespace CodeIndex

namespace Flags

/-- The marks with a name, in the order in which they are written. -/
def named : List (Flags × String) :=
  [(exported, "EXPORTED"), (async, "ASYNC"), (static, "STATIC")]

/-- The bits without a name. -/
def unnamedBits (flags : Flags) : UInt8 :=
  flags.bits &&& 0xf8

/-- Names of the marks, then the other bits as a number. -/
def text (flags : Flags) : String :=
  let names := named.filterMap fun entry => if flags.contains entry.1 then some entry.2 else none
  let others :=
    if flags.unnamedBits = 0 then
      []
    else
      [String.ofList ('0' :: 'x' :: Text.hexDigits flags.unnamedBits.toNat)]
  Text.join " | " (names ++ others)

/-- A hexadecimal number below 256, with a plus sign before it or not. -/
def hexBits? (characters : List Char) : Option Flags :=
  let magnitude :=
    match characters with
    | '+' :: rest => rest
    | _ => characters
  match Text.ofHexDigits? magnitude with
  | some value => if value < 256 then some ⟨UInt8.ofNat value⟩ else none
  | none => none

/-- One name, or a number after `0x`. -/
def ofPart? (part : String) : Option Flags :=
  match part.toList with
  | '0' :: 'x' :: rest => hexBits? rest
  | _ => (named.find? fun entry => entry.2 == part).map (·.1)

/-- All parts between bars, each without blanks around it. -/
def ofParts? : List String → Option Flags
  | [] => some empty
  | part :: rest =>
      match ofPart? (Text.trim part), ofParts? rest with
      | some flags, some others => some (flags.union others)
      | _, _ => none

def ofText? (text : String) : Option Flags :=
  if (Text.trim text).isEmpty then some empty else ofParts? (Text.split '|' text)

end Flags

namespace Param

def toJson (param : Param) : Json :=
  .record ([("name", .ofText param.name)] ++
    (param.typeText.map fun written => ("type_text", Json.ofText written)).toList)

def ofJson? (levels : Nat) (value : Json) : Option Param :=
  Json.within? levels
    (fun _ value =>
      match value.fields? ["name", "type_text"] with
      | some [some name, typeText] => do
          return {
            name := ← name.text?
            typeText := ← Json.fieldOr? (Json.optional? Json.text?) none typeText }
      | _ => none)
    value

end Param

namespace Symbol

/-- A member, unless the list is empty. -/
def listMember (name : String) (items : List Json) : List (String × Json) :=
  if items.isEmpty then [] else [(name, .array items)]

mutual

def toJson : Symbol → Json
  | ⟨name, kind, line, endLine, params, returnType, flags, methods, calls⟩ =>
      .record (
        [("name", .ofText name),
          ("kind", .ofText kind.name),
          ("line", .ofNat line.toNat),
          ("endLine", .ofNat endLine.toNat)] ++
        listMember "params" (params.map Param.toJson) ++
        (returnType.map fun written => ("returnType", Json.ofText written)).toList ++
        [("flags", .ofText flags.text)] ++
        listMember "methods" (toJsons methods) ++
        listMember "calls" (calls.map Json.ofText))

def toJsons : List Symbol → List Json
  | [] => []
  | symbol :: rest => toJson symbol :: toJsons rest

end

/-- A kind by its name. -/
def kindOfJson? (levels : Nat) (value : Json) : Option SymbolKind :=
  (value.caseName? levels).bind SymbolKind.ofName?

def ofJson? : Nat → Json → Option Symbol
  | 0, _ => none
  | levels + 1, value =>
      match value.fields? ["name", "kind", "line", "endLine", "params", "returnType", "flags",
          "methods", "calls"] with
      | some [some name, some kind, some line, some endLine, params, returnType, flags, methods,
            calls] => do
          let methods ←
            match levels with
            | 0 => Json.fieldOr? (fun _ => none) [] methods
            | rest + 1 => Json.fieldOr? (Json.list? (ofJson? rest)) [] methods
          return {
            name := ← name.text?
            kind := ← kindOfJson? levels kind
            line := ← line.uint32?
            endLine := ← endLine.uint32?
            params :=
              ← Json.fieldOr?
                (Json.within? levels fun rest => Json.list? (Param.ofJson? rest)) [] params
            returnType := ← Json.fieldOr? (Json.optional? Json.text?) none returnType
            flags :=
              ← Json.fieldOr? (fun value => value.text?.bind Flags.ofText?) Flags.empty flags
            methods := methods
            calls :=
              ← Json.fieldOr? (Json.within? levels fun _ => Json.list? Json.text?) [] calls }
      | _ => none

end Symbol

namespace Import

def toJson (statement : Import) : Json :=
  .record (
    [("source", .ofText statement.source),
      ("names", .ofTexts statement.names),
      ("typeOnly", .bool statement.typeOnly),
      ("line", .ofNat statement.line.toNat)] ++
    (if statement.aliases.isEmpty then
      []
    else
      [("aliases", .record (statement.aliases.toList.map fun entry =>
        (entry.1, Json.ofText entry.2)))]))

def ofJson? (levels : Nat) (value : Json) : Option Import :=
  Json.within? levels
    (fun levels value =>
      match value.fields? ["source", "names", "typeOnly", "line", "aliases"] with
      | some [some source, some names, typeOnly, some line, aliases] => do
          return {
            source := ← source.text?
            names := ← Json.within? levels (fun _ => Json.list? Json.text?) names
            typeOnly := ← Json.fieldOr? Json.bool? false typeOnly
            line := ← line.uint32?
            aliases :=
              ← Json.fieldOr? (Json.within? levels fun _ => Json.map? Json.text?) ∅ aliases }
      | _ => none)
    value

end Import

namespace Export

def toJson (entry : Export) : Json :=
  .record (
    [("name", .ofText entry.name),
      ("kind", .ofText entry.kind.name),
      ("line", .ofNat entry.line.toNat)] ++
    (entry.source.map fun source => ("source", Json.ofText source)).toList)

/-- A kind by its name. -/
def kindOfJson? (levels : Nat) (value : Json) : Option ExportKind :=
  (value.caseName? levels).bind ExportKind.ofName?

def ofJson? (levels : Nat) (value : Json) : Option Export :=
  Json.within? levels
    (fun levels value =>
      match value.fields? ["name", "kind", "line", "source"] with
      | some [some name, some kind, some line, source] => do
          return {
            name := ← name.text?
            kind := ← kindOfJson? levels kind
            line := ← line.uint32?
            source := ← Json.fieldOr? (Json.optional? Json.text?) none source }
      | _ => none)
    value

end Export

namespace Record

def toJson (record : Record) : Json :=
  .record
    [("path", .ofText record.path),
      ("fingerprint", .ofText record.fingerprint),
      ("lastIndexed", .ofInt record.lastIndexed.toInt),
      ("symbols", .array (Symbol.toJsons record.symbols)),
      ("imports", .array (record.imports.map Import.toJson)),
      ("exports", .array (record.exports.map Export.toJson)),
      ("skeleton", .ofText record.skeleton)]

def ofJson? (levels : Nat) (value : Json) : Option Record :=
  Json.within? levels
    (fun levels value =>
      match value.fields? ["path", "fingerprint", "lastIndexed", "symbols", "imports", "exports",
          "skeleton"] with
      | some [some path, some fingerprint, some lastIndexed, symbols, imports, exports,
            skeleton] => do
          return {
            path := ← path.text?
            fingerprint := ← fingerprint.text?
            lastIndexed := ← lastIndexed.int64?
            symbols :=
              ← Json.fieldOr?
                (Json.within? levels fun rest => Json.list? (Symbol.ofJson? rest)) [] symbols
            imports :=
              ← Json.fieldOr?
                (Json.within? levels fun rest => Json.list? (Import.ofJson? rest)) [] imports
            exports :=
              ← Json.fieldOr?
                (Json.within? levels fun rest => Json.list? (Export.ofJson? rest)) [] exports
            skeleton := ← Json.fieldOr? Json.text? "" skeleton }
      | _ => none)
    value

end Record

end CodeIndex
