import CodeIndex.FileTree
import CodeIndex.Glob.Match
import CodeIndex.Glob.Read
import CodeIndex.Text.Blank
import CodeIndex.Text.Utf8

/-!
Contract: files that a workspace asks to leave alone.

Owns:
- `Ignore.Rule`, `Ignore.ruleOfLine?`: a rule and the line it is written in;
- `Ignore.verdict?`: what the rules of one file say about a path;
- `Ignore.skips`: whether an entry of a directory is passed over.

A directory may hold `.ignore`, `.gitignore` and `.git/info/exclude`. The rules in a directory hold
for everything below it; the innermost directory with an opinion decides, and so does the last
matching rule in a file. The three kinds of files are asked in the order given. A name that starts
with a dot is passed over unless a rule keeps it. The user's own excludes file, which is asked last
of all and for every workspace, is left out: no rule comes from outside of the tree around a
workspace.
-/

set_option autoImplicit false

namespace CodeIndex.Ignore

/-- What a rule says about a path. -/
inductive Verdict where
  | skip
  | keep
  deriving DecidableEq, Repr

/-- A rule about the paths that a pattern matches. -/
structure Rule where
  glob : Glob
  verdict : Verdict
  onlyDirectories : Bool

/-! ## Lines -/

/-- A pattern that may stand at any depth, unless it says so itself. -/
private def atAnyDepth (pattern : String) : String :=
  if pattern == "**" || Text.startsWith "**/" pattern then pattern else "**/" ++ pattern

/-- Two stars at the end stand for what is in a directory, not for the directory. -/
private def insideOnly (pattern : String) : String :=
  match Text.stripEnd? "/**" pattern with
  | some _ => pattern ++ "/*"
  | none => pattern

/-- The rule of a pattern without its marks. -/
private def ruleOfPattern? (verdict : Verdict) (anchored : Bool) (pattern : String) :
    Option Rule :=
  let (onlyDirectories, name) :=
    match Text.stripEnd? "/" pattern with
    | some before => (true, (Text.stripEnd? "\\" before).getD before)
    | none => (false, pattern)
  let placed := if anchored || name.toList.contains '/' then name else atAnyDepth name
  let dialect : Glob.Dialect := { stopsAtSlash := true, allowsOpenBracket := true }
  (Glob.ofText? (insideOnly placed) dialect).map fun glob =>
    { glob := glob, verdict := verdict, onlyDirectories := onlyDirectories }

/-- The pattern of a line without blanks at its end. A backslash keeps one blank. -/
private def trimLine (line : String) : String :=
  match Text.stripEnd? "\\ " line with
  | some _ => line
  | none => String.ofList (Text.trimEndWhile Text.isBlank line.toList)

/-- The rule of a line. Empty lines, comments and malformed patterns have none. -/
def ruleOfLine? (line : String) : Option Rule :=
  if Text.startsWith "#" line then
    none
  else
    let trimmed := trimLine line
    if trimmed.isEmpty then
      none
    else if Text.startsWith "\\!" trimmed || Text.startsWith "\\#" trimmed then
      ruleOfPattern? .skip false ((Text.stripStart? "\\" trimmed).getD trimmed)
    else
      let (verdict, marked) :=
        match Text.stripStart? "!" trimmed with
        | some rest => (Verdict.keep, rest)
        | none => (Verdict.skip, trimmed)
      match Text.stripStart? "/" marked with
      | some rest => ruleOfPattern? verdict true rest
      | none => ruleOfPattern? verdict false marked

/-- The lines of a file up to the first one that is no text. A mark of byte order at the beginning
is passed over. -/
private def linesOf (bytes : ByteArray) : List String :=
  let decoded := Text.decodeBytes bytes.data.toList
  let known := (decoded.takeWhile Option.isSome).filterMap id
  let whole :=
    if known.length = decoded.length then known else Text.trimEndWhile (· != '\n') known
  Text.lines (String.ofList (whole.dropWhile (· == '\uFEFF')))

/-- The rules of a file. -/
def rulesOf (bytes : ByteArray) : List Rule :=
  (linesOf bytes).filterMap ruleOfLine?

/-! ## Verdicts -/

/-- What the rules of a file say about a path, given from the directory of the file. -/
def verdict? (rules : List Rule) (path : String) (isDirectory : Bool) : Option Verdict :=
  let fitting := rules.filter fun rule =>
    rule.glob.matchesPath path && (!rule.onlyDirectories || isDirectory)
  fitting.getLast?.map (·.verdict)

/-- What the innermost file of a name with an opinion says. The directory has its last step first,
the path leads from there. -/
def innermost? (tree : FileTree) (fileName : String) (isDirectory : Bool) :
    List String → List String → Option Verdict
  | directory, path =>
      let rules :=
        match tree.read? (FileTree.pathOf directory ++ "/" ++ fileName) with
        | some bytes => rulesOf bytes
        | none => []
      match verdict? rules (Text.join "/" path) isDirectory with
      | some verdict => some verdict
      | none =>
          match directory with
          | [] => none
          | step :: above => innermost? tree fileName isDirectory above (step :: path)

/-- The files that hold rules, in the order in which they are asked. -/
def ruleFiles : List String := [".ignore", ".gitignore", ".git/info/exclude"]

/-- Whether an entry of a directory is passed over. The directory has its last step first. -/
def skips (tree : FileTree) (directory : List String) (name : String) (isDirectory : Bool) :
    Bool :=
  match ruleFiles.findSome? fun file => innermost? tree file isDirectory directory [name] with
  | some verdict => verdict == .skip
  | none => Text.startsWith "." name

/-- Whether a file is reached from a directory: nothing on the way to it is passed over. -/
def reaches (tree : FileTree) (directory : List String) : List String → Bool
  | [] => false
  | [name] => !skips tree directory name false
  | name :: rest => !skips tree directory name true && reaches tree (name :: directory) rest

end CodeIndex.Ignore
