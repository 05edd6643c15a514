import CodeIndex.Source.Grammar.Basic

/-!
Contract: template texts with values set into them.

Owns: `template`, the rule for a template whose parts are read by a given rule.
-/

set_option autoImplicit false

namespace CodeIndex.Source.Reader

/-- Passes over template text. The result says whether the template ends there, and where. -/
private def templateText (place : Position) : List Char → Option (Bool × Position × List Char)
  | [] => none
  | '\\' :: character :: rest => templateText ((place.step '\\').step character) rest
  | '$' :: '\x7b' :: rest => some (false, (place.step '$').step '\x7b', rest)
  | character :: rest =>
      if character = Character.backquote then
        some (true, place.step character, rest)
      else
        templateText (place.step character) rest

private def templateParts (part : Reader Tree) :
    Nat → Position → List Char → Reader (List Tree)
  | 0, _, _ => failure
  | bound + 1, place, text => do
      match templateText place text with
      | none => failure
      | some (ended, next, rest) =>
          moveTo next rest
          if ended then
            return []
          let value ← part
          let close ← current
          require (close.isMark "\x7d")
          return value :: (← templateParts part bound close.span.stop close.rest)

/-- A template; `part` reads each value set into it. -/
def template (part : Reader Tree) : Reader Tree :=
  node .other do
    let open_ ← current
    require (open_.isMark "\x60")
    templateParts part ((← get).size + 1) open_.span.stop open_.rest

end CodeIndex.Source.Reader
