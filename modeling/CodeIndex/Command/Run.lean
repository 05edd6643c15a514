import CodeIndex.Answer.Basic
import CodeIndex.Command.Basic
import CodeIndex.Event
import CodeIndex.Project

/-!
Contract: what requests do and what they are answered with.

Owns:
- `Session`: the files and the place that a request is made in;
- `Session.locate`: the workspace that a request is about;
- `Session.follow`: what a running model does with a batch of events;
- `Command.run`: the answer to a request, and the files after it.

Every request brings the index up to date first and keeps its state in the home directory. A model
that goes on running keeps it after every batch.
-/

set_option autoImplicit false

namespace CodeIndex

/-- The files and the place that a request is made in. -/
structure Session where
  tree : FileTree
  /-- The directory that settings and state are kept in. -/
  home : String
  /-- The directory that the request is made in. -/
  directory : String
  now : Timestamp

/-- A model and the directory that its state is kept in. -/
structure OpenModel where
  model : Model
  stateDirectory : String

namespace Session

/-- The path of a text that is given in the session's directory. -/
def resolve (session : Session) (path : String) : String :=
  Path.resolve session.directory path

/-- The settings and the workspace of a project, or of the project around the session's
directory. -/
def locate (session : Session) (project : Option String) : Except Error (Config × Workspace) := do
  let project ←
    match project with
    | some path => Project.ofPath session.tree (session.resolve path)
    | none => Project.detect session.tree session.directory
  let config ← Config.load session.tree session.home
  let workspace ← Workspace.make session.tree project.root config.index
  return (config, workspace)

/-- Where the state of a workspace is kept. -/
def stateDirectory (session : Session) (workspace : Workspace) : String :=
  Config.stateDirectory session.home workspace.root

/-- The model of a project, or of the project around the session's directory. -/
def openModel (session : Session) (project : Option String) : Except Error OpenModel := do
  let (config, workspace) ← session.locate project
  let directory := session.stateDirectory workspace
  let state := State.load session.tree directory
  return {
    model := Model.ofState workspace config state session.tree
    stateDirectory := directory }

/-- Keeps the state of a model. -/
def save (session : Session) (opened : OpenModel) : Except Error Unit × Session :=
  match opened.model.state.save session.tree opened.stateDirectory session.now with
  | (.complete, tree) => (.ok (), { session with tree := tree })
  | (.failed, tree) => (.error (.io "state cannot be written"), { session with tree := tree })

/-- Brings a model up to date and keeps its state. -/
def update (session : Session) (opened : OpenModel) :
    Except Error (Model.Report × OpenModel) × Session :=
  let (report, model) :=
    opened.model.reindex { tree := session.tree, now := session.now }
  let updated := { opened with model := model }
  match session.save updated with
  | (.ok _, saved) => (.ok (report, updated), saved)
  | (.error error, saved) => (.error error, saved)

/-- Applies a batch of events to a running model, brings it up to date and keeps its state. -/
def follow (session : Session) (opened : OpenModel) (batch : List Event) :
    Except Error (Answer × OpenModel) × Session :=
  let noted := { opened with model := batch.foldl Model.apply opened.model }
  match session.update noted with
  | (.ok (report, updated), saved) => (.ok (.index report updated.model.stats, updated), saved)
  | (.error error, saved) => (.error error, saved)

/-- The model of a project, brought up to date. -/
def openFresh (session : Session) (project : Option String) : Except Error OpenModel × Session :=
  match session.openModel project with
  | .error error => (.error error, session)
  | .ok opened =>
      match session.update opened with
      | (.ok (_, updated), saved) => (.ok updated, saved)
      | (.error error, saved) => (.error error, saved)

/-- Answers with a model that is up to date. -/
def withFresh (session : Session) (project : Option String)
    (answer : Session → Model → Except Error Answer) : Except Error Answer × Session :=
  match session.openFresh project with
  | (.ok opened, saved) => (answer saved opened.model, saved)
  | (.error error, saved) => (.error error, saved)

/-- Answers about a file with a model that is up to date. -/
def withFile (session : Session) (project : Option String) (file : String)
    (answer : Session → Model → String → Except Error Answer) : Except Error Answer × Session :=
  session.withFresh project fun saved model => do
    let path ← model.workspace.requireRelative saved.tree saved.directory file
    answer saved model path

end Session

namespace Command

/-- What is said before a workspace is watched. -/
def watching (model : Model) : Answer :=
  .watching model.workspace.root model.stats.records

/-- Brings the index up to date, from nothing if that is asked for. -/
private def runIndex (session : Session) (project : Option String) (force : Bool) :
    Except Error Answer × Session :=
  match session.openModel project with
  | .error error => (.error error, session)
  | .ok opened =>
      let start :=
        if force then { opened with model := (opened.model.reset.reconcile session.tree).2 }
        else opened
      match session.update start with
      | (.ok (report, updated), saved) => (.ok (.index report updated.model.stats), saved)
      | (.error error, saved) => (.error error, saved)

/-- The skeleton of a file that has a record. -/
private def skeletonOf (session : Session) (model : Model) (path : String) :
    Except Error Answer :=
  match (model.skeleton session.tree path session.now).1 with
  | some text => .ok (.skeleton path text)
  | none => .error (.notIndexed path)

/-- The exports of a file that has a record. -/
private def exportsOf (model : Model) (path : String) : Except Error Answer :=
  match model.catalog.record? path with
  | some record => .ok (.exports path record.exports)
  | none => .error (.notIndexed path)

/-- The imports of a file with the files that they lead to. -/
private def importsOf (model : Model) (path : String) : Answer :=
  .imports path ((model.graph.importsOf path).map fun statement =>
    (statement, model.graph.resolveImportedFile? path statement.source))

/-- The answer to a request, and the session after it. -/
def run (session : Session) (project : Option String) (command : Command) :
    Except Error Answer × Session :=
  match command with
  | .index force => runIndex session project force
  | .stats => session.withFresh project fun _ model => .ok (.stats model.stats)
  | .skeleton file => session.withFile project file skeletonOf
  | .symbol name =>
      session.withFresh project fun _ model => .ok (.symbols name (model.graph.symbol name))
  | .symbols query limit =>
      session.withFresh project fun _ model =>
        let count := limit.getD model.config.graph.defaultLimit
        .ok (.symbols query (model.graph.searchSymbols query count))
  | .callers name =>
      session.withFresh project fun _ model => .ok (.symbols name (model.graph.callersOf name))
  | .callees name =>
      session.withFresh project fun _ model => .ok (.symbols name (model.graph.calleesOf name))
  | .references name =>
      session.withFresh project fun _ model =>
        .ok (.references name (model.graph.references name))
  | .imports file =>
      session.withFile project file fun _ model path => .ok (importsOf model path)
  | .importers file =>
      session.withFile project file fun _ model path =>
        .ok (.importers path (model.graph.importersOf path))
  | .exports file => session.withFile project file fun _ model path => exportsOf model path
  | .search query limit =>
      session.withFresh project fun _ model =>
        let count := limit.getD model.config.search.defaultLimit
        .ok (.search query (model.search.search query count))
  | .watch =>
      session.withFresh project fun _ model => .ok (watching model)

end Command

end CodeIndex
