import CodeIndex.Command.Basic
import CodeIndex.Text.Digits
import CodeIndex.Text.Split

/-!
Contract: requests from the words of a command line.

Owns:
- `UsageError`: why words are no request, or what else they ask for;
- `Switch`: the options;
- `Line`: what has been read of a line;
- `Invocation.parse`: the request of a line.

Words are read from left to right, and the first fault counts. The value of an option and what a
command is about are checked late: when the next option begins, or at the end of the line.
-/

set_option autoImplicit false

namespace CodeIndex

/-- Why words are no request, or what else they ask for. -/
inductive UsageError where
  | invalidSubcommand
  | unknownArgument
  | missingRequiredArgument
  /-- An option has no value, or an empty one where that is none. -/
  | invalidValue
  /-- A value is of the wrong form. -/
  | valueValidation
  /-- An option is given twice. -/
  | argumentConflict
  /-- An option that takes no value has one. -/
  | tooManyValues
  | missingSubcommand
  | displayHelp
  /-- Nothing is asked for. -/
  | displayHelpOnMissing
  | displayVersion
  deriving DecidableEq, Repr

/-- An option. -/
inductive Switch where
  | project
  | json
  | force
  | limit
  | help
  | version
  deriving DecidableEq, Repr

namespace Switch

def takesValue : Switch → Bool
  | .project => true
  | .limit => true
  | _ => false

/-- The long names of options. -/
def longNames : List (String × Switch) :=
  [("project", .project), ("json", .json), ("force", .force), ("limit", .limit), ("help", .help),
    ("version", .version)]

/-- The letters of options. -/
def letters : List (Char × Switch) :=
  [('p', .project), ('f', .force), ('l', .limit), ('h', .help), ('V', .version)]

/-- Whether an option may be given: after a command, or before one. -/
def isKnown (verb : Option Verb) (switch : Switch) : Bool :=
  match switch, verb with
  | .force, some verb => verb.hasForce
  | .limit, some verb => verb.hasLimit
  | .force, none => false
  | .limit, none => false
  | _, _ => true

def ofLong? (verb : Option Verb) (name : String) : Option Switch :=
  (longNames.lookup name).filter (isKnown verb)

def ofLetter? (verb : Option Verb) (letter : Char) : Option Switch :=
  (letters.lookup letter).filter (isKnown verb)

end Switch

/-- Something that was read and is not checked yet. -/
inductive Pending where
  /-- An option that waits for its value. -/
  | awaiting (switch : Switch)
  | value (switch : Switch) (value : String)
  | operand (value : String)
  deriving DecidableEq, Repr

/-- What has been read of a line, before a command or after it. -/
structure Line where
  /-- The command that the words belong to. -/
  verb : Option Verb
  project : Option String := none
  json : Bool := false
  force : Bool := false
  limit : Option Nat := none
  operand : Option String := none
  pending : Option Pending := none
  /-- Whether what the command is about has been read. -/
  hasOperand : Bool := false

namespace Line

/-- The number of a text: digits, with a plus sign or not, within 64 bits. -/
def limit? (text : String) : Option Nat :=
  let digits :=
    match text.toList with
    | '+' :: rest => rest
    | characters => characters
  match Text.ofDigits? digits with
  | some value => if value < UInt64.size then some value else none
  | none => none

/-- Takes the value of an option. -/
def setValue (line : Line) (switch : Switch) (value : String) : Except UsageError Line :=
  match switch with
  | .project =>
      if line.project.isSome then .error .argumentConflict
      else if value.isEmpty then .error .invalidValue
      else .ok { line with project := some value }
  | .limit =>
      if line.limit.isSome then
        .error .argumentConflict
      else
        match limit? value with
        | some number => .ok { line with limit := some number }
        | none => .error .valueValidation
  | _ => .error .tooManyValues

/-- Takes what the command is about. A path is not empty. -/
def setOperand (line : Line) (value : String) : Except UsageError Line :=
  if line.verb.map Verb.operand = some .path ∧ value.isEmpty then
    .error .invalidValue
  else
    .ok { line with operand := some value }

/-- Checks what was read last. -/
def settle (line : Line) : Except UsageError Line :=
  let settled := { line with pending := none }
  match line.pending with
  | none => .ok settled
  | some (.awaiting _) => .error .invalidValue
  | some (.value switch value) => settled.setValue switch value
  | some (.operand value) => settled.setOperand value

def isAwaiting (line : Line) : Bool :=
  match line.pending with
  | some (.awaiting _) => true
  | _ => false

/-! ## Options -/

/-- Takes an option without a value. -/
def setFlag (line : Line) (switch : Switch) : Except UsageError Line := do
  let settled ← line.settle
  match switch with
  | .json => if settled.json then .error .argumentConflict else .ok { settled with json := true }
  | .force =>
      if settled.force then .error .argumentConflict else .ok { settled with force := true }
  | .help => .error .displayHelp
  | .version => .error .displayVersion
  | _ => .error .invalidValue

/-- Takes an option that has a value, attached or not. -/
def openValue (line : Line) (switch : Switch) (attached : Option String) :
    Except UsageError Line := do
  let settled ← line.settle
  match attached with
  | some value => settled.setValue switch value
  | none => .ok { settled with pending := some (.awaiting switch) }

/-- The parts of a long option before and after the first equals sign. -/
private def splitEquals (characters : List Char) : String × Option String :=
  let name := String.ofList (characters.takeWhile (· != '='))
  match characters.dropWhile (· != '=') with
  | _ :: value => (name, some (String.ofList value))
  | [] => (name, none)

/-- Takes an option by its long name, after the hyphens. -/
def takeLong (line : Line) (characters : List Char) : Except UsageError Line :=
  let (name, attached) := splitEquals characters
  match Switch.ofLong? line.verb name with
  | none => .error .unknownArgument
  | some switch =>
      if switch.takesValue then
        line.openValue switch attached
      else if attached.isSome then
        .error .tooManyValues
      else
        line.setFlag switch

/-- The value that is attached to a letter. -/
private def attachedValue (characters : List Char) : Option String :=
  match characters with
  | [] => none
  | '=' :: value => some (String.ofList value)
  | value => some (String.ofList value)

/-- Takes options by their letters, after the hyphen. -/
def takeLetters (line : Line) : List Char → Except UsageError Line
  | [] => .ok line
  | letter :: rest =>
      match Switch.ofLetter? line.verb letter with
      | none => .error .unknownArgument
      | some switch =>
          if switch.takesValue then
            line.openValue switch (attachedValue rest)
          else
            match line.setFlag switch with
            | .ok next => next.takeLetters rest
            | .error error => .error error

/-- Takes an option, if a word is one. -/
def takeOption? (line : Line) (word : String) : Option (Except UsageError Line) :=
  match word.toList with
  | '-' :: '-' :: characters => some (line.takeLong characters)
  | '-' :: first :: characters => some (line.takeLetters (first :: characters))
  | _ => none

/-! ## Words after a command -/

/-- Takes what the command is about, once. -/
def takeOperand (verb : Verb) (line : Line) (word : String) : Except UsageError Line :=
  if verb.operand = .nothing ∨ line.hasOperand then
    .error .unknownArgument
  else
    match line.settle with
    | .ok settled =>
        .ok { settled with pending := some (.operand word), hasOperand := true }
    | .error error => .error error

/-- Takes a word that is no option. -/
def takeWord (verb : Verb) (line : Line) (word : String) : Except UsageError Line :=
  match line.pending with
  | some (.awaiting switch) => .ok { line with pending := some (.value switch word) }
  | _ => takeOperand verb line word

/-- Takes all words after a command. After two hyphens no word is an option. -/
def takeWords (verb : Verb) (plain : Bool) (line : Line) : List String → Except UsageError Line
  | [] => line.settle
  | word :: rest =>
      if plain then
        match takeOperand verb line word with
        | .ok next => takeWords verb true next rest
        | .error error => .error error
      else if word = "--" then
        takeWords verb true line rest
      else
        match (line.takeOption? word).getD (takeWord verb line word) with
        | .ok next => takeWords verb false next rest
        | .error error => .error error

end Line

/-! ## Whole lines -/

/-- The word that asks for help. -/
def helpWord : String := "help"

/-- Whether a word may stand for a command. -/
def isCommandWord (word : String) : Bool :=
  word == helpWord || (Verb.ofWord? word).isSome

/-- What the words after a request for help ask for. -/
def helpFor : List String → UsageError
  | [] => .displayHelp
  | [word] => if isCommandWord word then .displayHelp else .invalidSubcommand
  | _ => .invalidSubcommand

/-- The request of a command and the words around it. Options before the command are checked after
those that follow it; where both give a directory, the latter counts. -/
def finishLine (before : Line) (verb : Verb) (words : List String) :
    Except UsageError Invocation := do
  let after ← Line.takeWords verb false { verb := some verb } words
  if verb.operand ≠ .nothing ∧ after.operand.isNone then
    .error .missingRequiredArgument
  else
    let settled ← before.settle
    return {
      command := verb.toCommand after.force (after.operand.getD "") after.limit
      project := after.project <|> settled.project
      json := after.json || settled.json }

/-- What a line without a command asks for. -/
def withoutCommand (line : Line) : UsageError :=
  match line.settle with
  | .error error => error
  | .ok settled =>
      if settled.project.isNone ∧ settled.json = false then .displayHelpOnMissing
      else .missingSubcommand

/-- Reads the words before the command and goes on with those after it. -/
def parseWords (plain : Bool) (line : Line) : List String → Except UsageError Invocation
  | [] => .error (withoutCommand line)
  | word :: rest =>
      if plain then
        .error (if isCommandWord word then .unknownArgument else .invalidSubcommand)
      else if line.isAwaiting = false ∧ word = helpWord then
        .error (helpFor rest)
      else
        match if line.isAwaiting then none else Verb.ofWord? word with
        | some verb => finishLine line verb rest
        | none =>
            if word = "--" then
              parseWords true line rest
            else
              match line.takeOption? word with
              | some (.ok next) => parseWords false next rest
              | some (.error error) => .error error
              | none =>
                  match line.pending with
                  | some (.awaiting switch) =>
                      parseWords false { line with pending := some (.value switch word) } rest
                  | _ => .error .invalidSubcommand

/-- The request of the words of a command line. -/
def Invocation.parse (words : List String) : Except UsageError Invocation :=
  parseWords false { verb := none } words

end CodeIndex
