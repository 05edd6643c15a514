import Std.Data.ExtTreeMap

/-!
Contract: changes of files as they are reported.

Owns:
- `Event`: a file was created, changed or deleted;
- `PendingEvents`: reports that are held back until nothing more is reported;
- `Event.coalesce`: many reports as one batch with at most one event for each file.
-/

set_option autoImplicit false

namespace CodeIndex

inductive EventKind where
  | created
  | changed
  | deleted
  deriving DecidableEq, Repr

/-- What happened to a file. -/
structure Event where
  kind : EventKind
  path : String
  deriving DecidableEq, Repr

namespace EventKind

def name : EventKind → String
  | .created => "created"
  | .changed => "changed"
  | .deleted => "deleted"

def ofName? (name : String) : Option EventKind :=
  [EventKind.created, .changed, .deleted].find? fun kind => kind.name == name

/-- What two events of one file come to: a file that is changed right after it was created is a
new file, otherwise the later event counts. -/
def followedBy : EventKind → EventKind → EventKind
  | .created, .changed => .created
  | _, later => later

end EventKind

/-- Reports that are held back: the files in the order in which they were first reported, and for
each of them the event that its reports come to. -/
structure PendingEvents where
  order : List String := []
  latest : Std.ExtTreeMap String Event := ∅

namespace PendingEvents

/-- Merges an event with the pending one of the same file. A file without one is added to the
order. -/
def push (pending : PendingEvents) (event : Event) : PendingEvents :=
  match pending.latest[event.path]? with
  | some earlier =>
      let merged : Event := { event with kind := earlier.kind.followedBy event.kind }
      { pending with latest := pending.latest.insert event.path merged }
  | none =>
      { order := pending.order ++ [event.path]
        latest := pending.latest.insert event.path event }

/-- Takes the events of files out of a map, one file after the other. -/
def drain (latest : Std.ExtTreeMap String Event) : List String → List Event
  | [] => []
  | path :: rest =>
      match latest[path]? with
      | some event => event :: drain (latest.erase path) rest
      | none => drain latest rest

/-- The pending events in the order of their files. -/
def batch (pending : PendingEvents) : List Event :=
  drain pending.latest pending.order

end PendingEvents

namespace Event

/-- One event for each file, in the order in which the files were first reported. -/
def coalesce (events : List Event) : List Event :=
  (events.foldl PendingEvents.push {}).batch

/-- The batches that come of a burst of events: one, unless nothing was reported. -/
def batches : List Event → List (List Event)
  | [] => []
  | first :: rest => [coalesce (first :: rest)]

end Event

end CodeIndex
