import CodeIndex.Error
import CodeIndex.FileTree
import CodeIndex.Fingerprint.Basic
import CodeIndex.Text.Utf8
import CodeIndex.Toml.Read

/-!
Contract: settings and where they are kept.

Owns:
- `Config`: the settings with their defaults;
- `Config.ofToml?`: settings from a TOML document;
- `Config.load`: the settings of a home directory;
- `Config.home?`, `Config.path`, `Config.stateDirectory`: where settings and the state of a project
  are kept.

Settings that are not known are passed over. A section may be given as a table, or as an array with
its settings in order.
-/

set_option autoImplicit false

namespace CodeIndex

structure IndexSettings where
  /-- How many files are indexed before the run may be cancelled. -/
  batchSize : Nat := 25
  /-- The size in bytes up to which files are indexed. -/
  maxFileSize : Nat := 1048576
  /-- Patterns of which a file must match one. -/
  includes : List String := ["**/*"]
  /-- Patterns of which a file must match none. -/
  excludes : List String :=
    ["**/node_modules/**", "**/dist/**", "**/build/**", "**/.git/**", "**/*.min.js"]

structure GraphSettings where
  /-- Up to how many symbols of a name a call without a better target may mean. -/
  fallbackCandidates : Nat := 3
  /-- How many symbols a search gives. -/
  defaultLimit : Nat := 20

structure SearchSettings where
  stopWordWeight : Float := 0.1
  /-- How many chunks a search gives. -/
  defaultLimit : Nat := 10

structure WatchSettings where
  /-- How many milliseconds must pass without an event before a batch is complete. -/
  quietTime : Nat := 100

/-- All settings. -/
structure Config where
  index : IndexSettings := {}
  graph : GraphSettings := {}
  search : SearchSettings := {}
  watch : WatchSettings := {}

namespace Config

/-! ## Values -/

private def natural? : Toml → Option Nat
  | .integer value => if 0 ≤ value then some value.toNat else none
  | _ => none

private def weight? : Toml → Option Float
  | .float value => some value
  | .integer value => some (Float.ofInt value)
  | _ => none

private def texts? : Toml → Option (List String)
  | .array items => items.mapM fun item =>
      match item with
      | .string text => some text
      | _ => none
  | _ => none

/-- A setting that may be left out. -/
private def settingOr? {α : Type} (decode : Toml → Option α) (absent : α) :
    Option Toml → Option α
  | some value => decode value
  | none => some absent

/-- The settings of a section by name, or by place. A date counts as a table without a known
setting. -/
private def settings? (names : List String) : Option Toml → Option (String → Option Toml)
  | none => some fun _ => none
  | some (.table members) => some fun name => members.lookup name
  | some (.array items) => some fun name => (names.zip items).lookup name
  | some (.moment _) => some fun _ => none
  | some _ => none

/-! ## Sections -/

private def indexSettings? (given : Option Toml) : Option IndexSettings := do
  let absent : IndexSettings := {}
  let setting ← settings? ["batch_size", "max_file_size", "include", "exclude"] given
  return {
    batchSize := ← settingOr? natural? absent.batchSize (setting "batch_size")
    maxFileSize := ← settingOr? natural? absent.maxFileSize (setting "max_file_size")
    includes := ← settingOr? texts? absent.includes (setting "include")
    excludes := ← settingOr? texts? absent.excludes (setting "exclude") }

private def graphSettings? (given : Option Toml) : Option GraphSettings := do
  let absent : GraphSettings := {}
  let setting ← settings? ["fallback_max_candidates", "default_limit"] given
  return {
    fallbackCandidates :=
      ← settingOr? natural? absent.fallbackCandidates (setting "fallback_max_candidates")
    defaultLimit := ← settingOr? natural? absent.defaultLimit (setting "default_limit") }

private def searchSettings? (given : Option Toml) : Option SearchSettings := do
  let absent : SearchSettings := {}
  let setting ← settings? ["stop_word_weight", "default_top_k"] given
  return {
    stopWordWeight := ← settingOr? weight? absent.stopWordWeight (setting "stop_word_weight")
    defaultLimit := ← settingOr? natural? absent.defaultLimit (setting "default_top_k") }

private def watchSettings? (given : Option Toml) : Option WatchSettings := do
  let absent : WatchSettings := {}
  let setting ← settings? ["debounce_ms"] given
  return { quietTime := ← settingOr? natural? absent.quietTime (setting "debounce_ms") }

/-- The settings of a document. -/
def ofToml? (document : Toml) : Option Config := do
  let setting ← settings? ["index", "graph", "search", "watch"] (some document)
  return {
    index := ← indexSettings? (setting "index")
    graph := ← graphSettings? (setting "graph")
    search := ← searchSettings? (setting "search")
    watch := ← watchSettings? (setting "watch") }

/-- The settings of the text of a document. -/
def ofText? (text : String) : Option Config :=
  (Toml.read? text).bind ofToml?

/-! ## Places -/

/-- The home directory: the one that is named for this purpose, or one among the data of the
user. -/
def home? (named userData userHome : Option String) : Option String :=
  match named, userData, userHome with
  | some home, _, _ => some home
  | none, some directory, _ => some (directory ++ "/codeatlas")
  | none, none, some directory => some (directory ++ "/.local/share/codeatlas")
  | none, none, none => none

/-- Where a home directory keeps the settings. -/
def path (home : String) : String :=
  home ++ "/config.toml"

/-- Where a home directory keeps the state of a project. -/
def stateDirectory (home root : String) : String :=
  home ++ "/projects/" ++ fingerprint root.toUTF8

/-- The settings of a home directory: the defaults, unless there is a file. -/
def load (tree : FileTree) (home : String) : Except Error Config :=
  match tree.find (path home) with
  | .file _ file =>
      match Text.decode? file.bytes with
      | some text =>
          match ofText? text with
          | some config => .ok config
          | none => .error .configuration
      | none => .error (.io "stream did not contain valid UTF-8")
  | .directory _ => .error (.io "Is a directory")
  | _ => .ok {}

end Config

end CodeIndex
