import CodeIndex.Language
import CodeIndex.Text.Blank
import CodeIndex.Text.Split

/-!
Contract: module specifiers and the files they lead to.

Owns:
- `Specifier.isRelative`, `Specifier.normalize`;
- `Specifier.stem?`: the place a relative specifier leads to, without a source extension;
- `Specifier.fileStems`: the stems that lead to a file.

A specifier and a file belong together when the specifier's stem is one of the file's. This needs
no knowledge of which files exist.
-/

set_option autoImplicit false

namespace CodeIndex.Specifier

/-- Whether a specifier is read from the directory of the importing file. -/
def isRelative (specifier : String) : Bool :=
  specifier == "." || specifier == ".." ||
    Text.startsWith "./" specifier || Text.startsWith "../" specifier

/-- Adds a segment to the segments so far, the last one first. A step up cancels a step down. -/
def collapseStep (above : List String) (segment : String) : List String :=
  if segment = "" ∨ segment = "." then
    above
  else if segment = ".." then
    match above with
    | last :: rest => if last = ".." then ".." :: above else rest
    | [] => [".."]
  else
    segment :: above

/-- Segments without empty ones, without `.`, and with `..` only in front. -/
def collapse (segments : List String) : List String :=
  (segments.foldl collapseStep []).reverse

/-- The specifier of collapsed segments. -/
def ofSegments : List String → String
  | [] => "."
  | first :: rest =>
      if first = ".." then
        Text.join "/" (first :: rest)
      else
        "./" ++ Text.join "/" (first :: rest)

/-- Without slashes at the end, unless the text is a single character. -/
def dropTrailingSlashes (specifier : String) : String :=
  if specifier.utf8ByteSize > 1 then
    String.ofList (Text.trimEndWhile (· == '/') specifier.toList)
  else
    specifier

/-- Blanks around and slashes at the end are dropped; the segments of a relative specifier are
collapsed. -/
def normalize (raw : String) : String :=
  let specifier := Text.trim raw
  let trimmed := dropTrailingSlashes specifier
  if trimmed.isEmpty then
    specifier
  else if isRelative trimmed then
    ofSegments (collapse (Text.split '/' trimmed))
  else
    trimmed

/-- A path without its extension, if that is one a specifier may leave out. -/
def stripSourceExtension (path : String) : String :=
  match Text.splitLast? '.' path with
  | some (base, extension) =>
      if !base.isEmpty && sourceExtensions.contains extension then base else path
  | none => path

/-- Follows one segment from a directory, given by its segments with the last one first. Nothing
lies above the workspace. -/
def follow? (directory : List String) (segment : String) : Option (List String) :=
  if segment = "" ∨ segment = "." then
    some directory
  else if segment = ".." then
    match directory with
    | _ :: parent => some parent
    | [] => none
  else
    some (segment :: directory)

/-- The segments of the directory that holds a file, the last one first. -/
def directoryOf (path : String) : List String :=
  (Text.split '/' path).reverse.drop 1

/-- The place a relative specifier leads to from a file, without a source extension. -/
def stem? (importer specifier : String) : Option String :=
  if isRelative specifier then
    match (Text.split '/' specifier).foldlM follow? (directoryOf importer) with
    | some [] => none
    | some place => some (stripSourceExtension (Text.join "/" place.reverse))
    | none => none
  else
    none

/-- The name of the file that stands for its directory, with the slash before it. -/
private def indexSuffix : String := "/index"

/-- The stems that lead to a file: its own, and its directory's if it stands for that. -/
def fileStems (path : String) : List String :=
  let stem := stripSourceExtension path
  match Text.stripEnd? indexSuffix stem with
  | some directory => [stem, directory]
  | none => [stem]

end CodeIndex.Specifier
