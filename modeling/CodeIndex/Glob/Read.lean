import CodeIndex.Glob.Basic

/-!
Contract: patterns from their text.

Owns:
- `Glob.Dialect`: what a text may hold;
- `Glob.Draft`: a pattern under construction;
- `Glob.ofText?`: the pattern of a text, if it is well formed.

`?` and `*` are wildcards, `[…]` is a set of characters, `{a,b}` offers alternatives and a backslash
takes the next character as it is. `**` stands for whole directories, but only between slashes or
at either end; elsewhere it is two wildcards.
-/

set_option autoImplicit false

namespace CodeIndex.Glob

/-- How a text is read. -/
structure Dialect where
  stopsAtSlash : Bool := false
  /-- Whether a bracket that is never closed stands for itself. -/
  allowsOpenBracket : Bool := false

/-- Alternatives that are not closed yet. -/
structure Group where
  /-- The branch around the alternatives, the last token first. -/
  outer : List Token
  /-- The finished alternatives, the last one first. -/
  finished : List (List Token) := []

/-- A pattern under construction. -/
structure Draft where
  /-- The current branch, the last token first. -/
  branch : List Token := []
  /-- The alternatives around it, the innermost first. -/
  groups : List Group := []
  /-- The character read last. -/
  previous : Option Char := none
  /-- Whether a bracket was found that is never closed. -/
  openBracket : Bool := false

namespace Draft

def add (draft : Draft) (token : Token) : Draft :=
  { draft with branch := token :: draft.branch }

def sawCharacter (draft : Draft) (character : Char) : Draft :=
  { draft with previous := some character }

/-- Opens alternatives. -/
def openGroup (draft : Draft) : Draft :=
  { draft with branch := [], groups := { outer := draft.branch } :: draft.groups }

/-- Closes the innermost alternatives. -/
def closeGroup? (draft : Draft) : Option Draft :=
  match draft.groups with
  | group :: rest =>
      let branches := (draft.branch.reverse :: group.finished).reverse
      some { draft with branch := .alternates branches :: group.outer, groups := rest }
  | [] => none

/-- A comma starts the next alternative; outside of alternatives it stands for itself. -/
def comma (draft : Draft) : Draft :=
  match draft.groups with
  | group :: rest =>
      let closed := { group with finished := draft.branch.reverse :: group.finished }
      { draft with branch := [], groups := closed :: rest }
  | [] => draft.add (.literal ',')

/-- Two stars that do not stand for directories. -/
def plainStars (draft : Draft) : Draft :=
  (draft.add .many).add .many

/-- Puts directories in place of the slash before two stars. -/
def directories (draft : Draft) (token : Token) : Draft :=
  match draft.branch with
  | .leading :: _ => draft
  | .trailing :: _ => draft
  | _ :: rest => { draft with branch := token :: rest }
  | [] => draft.add token

/-- Whether two stars may stand for directories, by what precedes them. -/
def startsComponent (draft : Draft) : Bool :=
  match draft.previous with
  | some '/' => true
  | some ',' => !draft.groups.isEmpty
  | some '\x7b' => !draft.groups.isEmpty
  | _ => false

/-- Adds two stars, and gives the characters that remain after them. -/
def stars (draft : Draft) (rest : List Char) : Draft × List Char :=
  let after := draft.sawCharacter '*'
  if draft.branch.isEmpty then
    match rest with
    | [] => (after.add .leading, [])
    | '/' :: more => ((after.add .leading).sawCharacter '/', more)
    | _ => (after.plainStars, rest)
  else if draft.startsComponent then
    match rest with
    | [] => (after.directories .trailing, [])
    | '/' :: more => ((after.directories .between).sawCharacter '/', more)
    | ',' :: _ =>
        if draft.groups.isEmpty then (after.plainStars, rest)
        else (after.directories .trailing, rest)
    | '\x7d' :: _ =>
        if draft.groups.isEmpty then (after.plainStars, rest)
        else (after.directories .trailing, rest)
    | _ => (after.plainStars, rest)
  else
    (after.plainStars, rest)

end Draft

/-! ## Sets of characters -/

/-- What comes of the text after an opening bracket. -/
inductive SetRead where
  | closed (ranges : List (Char × Char)) (rest : List Char)
  | unclosed
  | malformed

/-- Extends the last range up to a character. -/
private def extendRange? (ranges : List (Char × Char)) (character : Char) :
    Option (List (Char × Char)) :=
  match ranges with
  | (low, _) :: rest => if character < low then none else some ((low, character) :: rest)
  | [] => none

/-- Reads a set up to its closing bracket. The ranges so far have the last one first; `inRange` says
that a hyphen waits for the end of its range. -/
def readSet (ranges : List (Char × Char)) (first inRange : Bool) : List Char → SetRead
  | [] => .unclosed
  | character :: rest =>
      if character = ']' ∧ !first then
        .closed ((if inRange then ('-', '-') :: ranges else ranges).reverse) rest
      else if inRange then
        match extendRange? ranges character with
        | some extended => readSet extended false false rest
        | none => .malformed
      else if character = '-' ∧ !first then
        readSet ranges false true rest
      else
        readSet ((character, character) :: ranges) false false rest

/-- Reads a set with the mark that negates it. -/
def readNegatedSet (characters : List Char) : Bool × SetRead :=
  match characters with
  | '!' :: rest => (true, readSet [] true false rest)
  | '^' :: rest => (true, readSet [] true false rest)
  | _ => (false, readSet [] true false characters)

/-! ## The whole text -/

/-- Reads characters into a draft. Every step takes at least one character, so that their number
bounds the steps. -/
def readTokens (dialect : Dialect) : Nat → Draft → List Char → Option Draft
  | _, draft, [] => some draft
  | 0, _, _ :: _ => none
  | steps + 1, draft, character :: rest =>
      let after := draft.sawCharacter character
      match character with
      | '?' => readTokens dialect steps (after.add .one) rest
      | '*' =>
          match rest with
          | '*' :: more =>
              let (next, remaining) := draft.stars more
              readTokens dialect steps next remaining
          | _ => readTokens dialect steps (after.add .many) rest
      | '[' =>
          if draft.openBracket then
            readTokens dialect steps (after.add (.literal '[')) rest
          else
            match readNegatedSet rest with
            | (negated, .closed ranges remaining) =>
                let next := (after.add (.oneOf negated ranges)).sawCharacter ']'
                readTokens dialect steps next remaining
            | (_, .unclosed) =>
                if dialect.allowsOpenBracket then
                  let next := { after.add (.literal '[') with openBracket := true }
                  readTokens dialect steps next rest
                else
                  none
            | (_, .malformed) => none
      | '\x7b' => readTokens dialect steps after.openGroup rest
      | '\x7d' =>
          match after.closeGroup? with
          | some closed => readTokens dialect steps closed rest
          | none => none
      | ',' => readTokens dialect steps after.comma rest
      | '\x5c' =>
          match rest with
          | escaped :: more =>
              readTokens dialect steps ((draft.add (.literal escaped)).sawCharacter escaped) more
          | [] => none
      | other => readTokens dialect steps (after.add (.literal other)) rest

/-- The pattern of a text, unless a bracket, brace or backslash in it lacks its partner or a range
runs backward. -/
def ofText? (text : String) (dialect : Dialect := {}) : Option Glob :=
  let characters := text.toList
  match readTokens dialect characters.length {} characters with
  | some draft =>
      if draft.groups.isEmpty then
        some { tokens := draft.branch.reverse, stopsAtSlash := dialect.stopsAtSlash }
      else
        none
  | none => none

end CodeIndex.Glob
