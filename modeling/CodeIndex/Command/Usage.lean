import CodeIndex.Command.Parse

/-!
Contract: what is said to someone whose words are no request.

Owns:
- `UsageError.isFault`: whether words are wrong, or ask for help;
- `UsageError.message`: the wording.
-/

set_option autoImplicit false

namespace CodeIndex.UsageError

/-- Whether words are wrong. Otherwise they ask for something that is no request. -/
def isFault : UsageError → Bool
  | .displayHelp => false
  | .displayVersion => false
  | _ => true

/-- What a command is given, as shown in the help. -/
private def usageOf (verb : Verb) : String :=
  let operand :=
    match verb.operand with
    | .nothing => ""
    | .text => if verb.hasLimit then " <QUERY>" else " <NAME>"
    | .path => " <FILE>"
  let limit := if verb.hasLimit then " [--limit <LIMIT>]" else ""
  let force := if verb.hasForce then " [--force]" else ""
  "    " ++ verb.name ++ operand ++ limit ++ force ++ "\n"

/-- The commands and the options that hold for every command. -/
def help : String :=
  "Incremental code intelligence: skeletons, symbol graph and search\n\n" ++
    "Commands:\n" ++ String.join (Verb.all.map usageOf) ++
    "\nOptions:\n" ++
    "    -p, --project <PROJECT>\n" ++
    "        --json\n" ++
    "    -h, --help\n" ++
    "    -V, --version\n"

def message : UsageError → String
  | .invalidSubcommand => "error: unrecognized subcommand\n"
  | .unknownArgument => "error: unexpected argument\n"
  | .missingRequiredArgument => "error: a required argument was not provided\n"
  | .invalidValue => "error: a value is required\n"
  | .valueValidation => "error: invalid value\n"
  | .argumentConflict => "error: an argument cannot be used multiple times\n"
  | .tooManyValues => "error: unexpected value\n"
  | .missingSubcommand => "error: a subcommand is required\n"
  | .displayHelp => help
  | .displayHelpOnMissing => help
  | .displayVersion => "0.3.0\n"

end CodeIndex.UsageError
