import CodeIndex.Answer.Encode
import CodeIndex.Answer.Human
import CodeIndex.Command.Usage
import CodeIndex.Disk
import CodeIndex.Watch

/-!
Contract: the command line.

Owns:
- `main`: reads a request, has it answered and shows the answer.

Does not own: what requests mean.
-/

set_option autoImplicit false

namespace CodeIndex

/-- Shows an answer, with the time since the clock showed `start`. -/
private def present (json : Bool) (found : Answer) (start : Nat) : IO Unit := do
  let elapsed := Float.ofNat ((← IO.monoNanosNow) - start) / 1000000.0
  IO.print (if json then found.json elapsed else found.human elapsed)
  (← IO.getStdout).flush

private def fail (error : Error) : IO UInt32 := do
  IO.eprintln error.message
  return 1

/-- Has a request answered, keeps what it leaves behind and shows the answer. -/
private def answer (session : Session) (invocation : Invocation) : IO UInt32 := do
  let start ← IO.monoNanosNow
  let (result, after) := Command.run session invocation.project invocation.command
  Disk.store session after
  match result with
  | .ok found =>
      present invocation.json found start
      return 0
  | .error error => fail error

/-- Looks at a workspace again and again until something has happened to its files, and then until
nothing more happens between two looks. Gives all events and the last look. -/
private partial def nextEvents (look : IO Session) (model : Model) (seen : Session)
    (events : List Event) : IO (List Event × Session) := do
  IO.sleep (UInt32.ofNat model.config.watch.quietTime)
  let session ← look
  let more := (seen.tree.notices session.tree).flatMap (model.workspace.translate session.tree)
  if more.isEmpty && !events.isEmpty then
    return (events, session)
  else
    nextEvents look model session (events ++ more)

/-- Follows the files of a workspace with a running model, one batch of events after the other. The
state is kept after each of them, so that nothing is left to do when the program is stopped. -/
private partial def watch (look : IO Session) (json : Bool) (seen : Session)
    (opened : OpenModel) : IO UInt32 := do
  let (events, session) ← nextEvents look opened.model seen []
  let mut running := opened
  for batch in Event.batches events do
    let start ← IO.monoNanosNow
    let ready ← Disk.addKnown session running.model batch
    let (result, after) := ready.follow running batch
    Disk.store ready after
    match result with
    | .ok (found, updated) =>
        present json found start
        running := updated
    | .error error => return ← fail error
  watch look json session running

/-- Answers a request that is made in a directory. -/
private def serve (home directory : String) (invocation : Invocation) : IO UInt32 := do
  let look := Disk.load home directory invocation
  let start ← IO.monoNanosNow
  let session ← look
  match invocation.command with
  | .watch =>
      let (result, after) := session.openFresh invocation.project
      Disk.store session after
      match result with
      | .ok opened =>
          if !invocation.json then
            present false (Command.watching opened.model) start
          watch look invocation.json session opened
      | .error error => fail error
  | _ => answer session invocation

end CodeIndex

open CodeIndex in
/-- Answers the request that the given words make. -/
def main (words : List String) : IO UInt32 := do
  match Invocation.parse words with
  | .error error =>
      if error.isFault then
        IO.eprint error.message
        return 2
      else
        IO.print error.message
        return 0
  | .ok invocation =>
      let directory ← IO.currentDir
      let named ← IO.getEnv "CODEATLAS_HOME"
      let userData ← IO.getEnv "XDG_DATA_HOME"
      let userHome ← IO.getEnv "HOME"
      match Config.home? named userData userHome with
      | some home => serve (Path.resolve directory.toString home) directory.toString invocation
      | none =>
          IO.eprintln "Configuration error: Could not determine codeatlas home directory"
          return 1
