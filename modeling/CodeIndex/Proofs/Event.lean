import CodeIndex.Event
import CodeIndex.Proofs.Ordered

/-!
Contract: what a batch tells of the events that it is made of.

Owns:
- `EventKind.outcome`: what the events of one file come to, read off the last ones;
- `Event.kindsOf`: what was reported of one file, in order;
- `Event.summary`: the batch by definition, from the whole history of each file;
- `PendingEvents.Holds`: what is pending, in the order and in the map, after reports;
- `PendingEvents.Holds.push`, `PendingEvents.holds_foldl_push`: what one more report and all
  reports leave pending;
- `PendingEvents.in_step`: the order and the map have the same files, whatever was reported;
- `Event.coalesce_eq_summary`: events that are pushed one by one make this batch;
- `Event.batch_tells_outcomes`: one event for each file, in the order of the first reports.

The kind of a pending event depends on all that was reported of its file, since a creation outlives
the changes after it. The first report of a file needs no rule of its own: no reports come to
`changed`, and after that any event counts as it is.
-/

set_option autoImplicit false

namespace CodeIndex

/-! ## Histories of one file -/

namespace EventKind

/-- What the events of one file come to. A file is gone if that is what was reported last. It is new
if it was created, and only changed after that. -/
def outcome (kinds : List EventKind) : EventKind :=
  if kinds.getLast? = some .deleted then .deleted
  else if (kinds.filter (· != .changed)).getLast? = some .created then .created
  else .changed

theorem outcome_append_changed (kinds : List EventKind) :
    outcome (kinds ++ [.changed]) = if outcome kinds = .created then .created else .changed := by
  have notLast : ¬ (kinds ++ [changed]).getLast? = some deleted := by
    rw [List.getLast?_concat]
    decide
  have sameFilter : (kinds ++ [changed]).filter (· != .changed) = kinds.filter (· != .changed) := by
    simp
  unfold outcome
  rw [if_neg notLast, sameFilter]
  by_cases gone : kinds.getLast? = some .deleted
  · -- A deletion that comes last is also the last event that is no change.
    obtain ⟨earlier, rfl⟩ := List.getLast?_eq_some_iff.mp gone
    simp
  · rw [if_neg gone]
    split
    · rfl
    · rfl

/-- One more event is merged with what the earlier ones came to. -/
theorem outcome_append (kinds : List EventKind) (kind : EventKind) :
    outcome (kinds ++ [kind]) = (outcome kinds).followedBy kind := by
  cases kind with
  | created =>
      have isNew : outcome (kinds ++ [.created]) = .created := by simp [outcome]
      rw [isNew]
      cases outcome kinds <;> rfl
  | changed =>
      rw [outcome_append_changed]
      cases outcome kinds <;> rfl
  | deleted =>
      have isGone : outcome (kinds ++ [.deleted]) = .deleted := by simp [outcome]
      rw [isGone]
      cases outcome kinds <;> rfl

theorem outcome_ne_deleted {kinds : List EventKind} {last : EventKind}
    (isLast : kinds.getLast? = some last) : (outcome kinds != .deleted) = (last != .deleted) := by
  unfold outcome
  rw [isLast]
  cases last with
  | deleted => rfl
  | created => simp only [reduceCtorEq, if_false, Option.some.injEq]; split <;> rfl
  | changed => simp only [reduceCtorEq, if_false, Option.some.injEq]; split <;> rfl

theorem outcome_singleton (kind : EventKind) : outcome [kind] = kind := by
  cases kind <;> rfl

end EventKind

namespace Event

open EventKind

/-- What was reported of one file, from the first report to the last. -/
def kindsOf (events : List Event) (path : String) : List EventKind :=
  (events.filter fun event => event.path = path).map (·.kind)

theorem kindsOf_append (earlier later : List Event) (path : String) :
    kindsOf (earlier ++ later) path = kindsOf earlier path ++ kindsOf later path := by
  rw [kindsOf, List.filter_append, List.map_append]
  rfl

theorem kindsOf_eq_nil {events : List Event} {path : String}
    (unnamed : path ∉ events.map (·.path)) : kindsOf events path = [] := by
  rw [kindsOf, List.map_eq_nil_iff, List.filter_eq_nil_iff]
  intro event member same
  exact unnamed (List.mem_map.mpr ⟨event, member, of_decide_eq_true same⟩)

theorem exists_getLast?_kindsOf {events : List Event} {path : String}
    (named : path ∈ events.map (·.path)) : ∃ last, (kindsOf events path).getLast? = some last := by
  obtain ⟨event, member, same⟩ := List.mem_map.mp named
  have reported : event.kind ∈ kindsOf events path :=
    List.mem_map_of_mem (List.mem_filter.mpr ⟨member, decide_eq_true same⟩)
  exact ⟨_, List.getLast?_eq_some_getLast (List.ne_nil_of_mem reported)⟩

/-! ## Batches -/

/-- One event for each file of a list, of a kind that is given for it. -/
def onePerFile (kindAt : String → EventKind) (paths : List String) : List Event :=
  paths.map fun path => { kind := kindAt path, path := path }

theorem onePerFile_cons (kindAt : String → EventKind) (path : String) (rest : List String) :
    onePerFile kindAt (path :: rest) =
      { kind := kindAt path, path := path } :: onePerFile kindAt rest := rfl

theorem paths_onePerFile (kindAt : String → EventKind) (paths : List String) :
    (onePerFile kindAt paths).map (·.path) = paths := by
  simp [onePerFile, Function.comp_def]

theorem onePerFile_congr {kindAt otherKindAt : String → EventKind} {paths : List String}
    (same : ∀ path ∈ paths, kindAt path = otherKindAt path) :
    onePerFile kindAt paths = onePerFile otherKindAt paths := by
  apply List.map_congr_left
  intro path member
  rw [same path member]

theorem kindsOf_onePerFile (kindAt : String → EventKind) {paths : List String}
    (distinct : paths.Nodup) (path : String) :
    kindsOf (onePerFile kindAt paths) path = if path ∈ paths then [kindAt path] else [] := by
  have own : paths.filter (fun other => decide (other = path)) =
      List.replicate (if path ∈ paths then 1 else 0) path := by
    rw [← List.Nodup.count distinct]
    exact List.filter_beq path
  rw [kindsOf, onePerFile, List.filter_map, List.map_map]
  show (paths.filter fun other => decide (other = path)).map kindAt = _
  rw [own]
  split <;> rfl

/-- The batch that events come to: the files in the order in which they were first reported, with
what all reports of each come to. -/
def summary (events : List Event) : List Event :=
  onePerFile (fun path => outcome (kindsOf events path)) (events.map (·.path)).eraseDups

end Event

/-! ## Pending events -/

namespace PendingEvents

open EventKind Event

/-- What is pending after reports: the order has each file once, where it was first reported, and
what is kept under a path is what all reports of that file come to. -/
structure Holds (events : List Event) (pending : PendingEvents) : Prop where
  order : pending.order = (events.map (·.path)).eraseDups
  latest : ∀ path, pending.latest[path]? =
    if path ∈ events.map (·.path) then some ⟨outcome (kindsOf events path), path⟩ else none

/-- What was reported comes to what the earlier reports came to, merged with the last one. -/
theorem outcome_concat (events : List Event) (event : Event) :
    outcome (kindsOf (events ++ [event]) event.path) =
      (outcome (kindsOf events event.path)).followedBy event.kind := by
  have own : kindsOf [event] event.path = [event.kind] := by simp [kindsOf]
  rw [kindsOf_append, own, outcome_append]

theorem kindsOf_concat_of_ne (events : List Event) {event : Event} {path : String}
    (other : ¬ event.path = path) : kindsOf (events ++ [event]) path = kindsOf events path := by
  have foreign : kindsOf [event] path = [] := by simp [kindsOf, other]
  rw [kindsOf_append, foreign, List.append_nil]

/-- Only the first report of a file adds it to the order. -/
theorem Holds.order_concat {events : List Event} {pending : PendingEvents}
    (holds : Holds events pending) (event : Event) :
    ((events ++ [event]).map (·.path)).eraseDups =
      if event.path ∈ events.map (·.path) then pending.order
      else pending.order ++ [event.path] := by
  rw [List.map_append, List.map_singleton, Ordered.eraseDups_append_singleton, ← holds.order,
    Ordered.addNew]
  simp only [List.contains_iff_mem, holds.order, List.mem_eraseDups]

/-- A step: one more event brings what is pending after the earlier ones to what is pending after
all. -/
theorem Holds.push {events : List Event} {pending : PendingEvents} (holds : Holds events pending)
    (event : Event) : Holds (events ++ [event]) (pending.push event) := by
  have inserted (merged : Event)
      (isMerged : merged = ⟨outcome (kindsOf (events ++ [event]) event.path), event.path⟩)
      (path : String) :
      (pending.latest.insert event.path merged)[path]? =
        if path ∈ (events ++ [event]).map (·.path) then
          some ⟨outcome (kindsOf (events ++ [event]) path), path⟩
        else none := by
    rw [Std.ExtTreeMap.getElem?_insert]
    by_cases same : event.path = path
    · subst same
      simp [isMerged]
    · have different : ¬ path = event.path := fun equal => same equal.symm
      rw [if_neg (by simpa using same), holds.latest, kindsOf_concat_of_ne events same]
      simp [different]
  by_cases named : event.path ∈ events.map (·.path)
  · have found := (holds.latest event.path).trans (if_pos named)
    have pushed : pending.push event = { pending with
        latest := pending.latest.insert event.path
          ⟨(outcome (kindsOf events event.path)).followedBy event.kind, event.path⟩ } := by
      rw [PendingEvents.push, found]
    rw [pushed]
    refine ⟨?_, inserted _ (by rw [outcome_concat])⟩
    show pending.order = _
    rw [holds.order_concat, if_pos named]
  · have found := (holds.latest event.path).trans (if_neg named)
    -- No reports come to a change, so the first one counts as it is.
    have first : outcome (kindsOf (events ++ [event]) event.path) = event.kind := by
      rw [outcome_concat, kindsOf_eq_nil named]
      rfl
    have pushed : pending.push event =
        { order := pending.order ++ [event.path]
          latest := pending.latest.insert event.path event } := by
      rw [PendingEvents.push, found]
    rw [pushed]
    refine ⟨?_, inserted _ (by rw [first])⟩
    show pending.order ++ [event.path] = _
    rw [holds.order_concat, if_neg named]

/-- A run: after all reports, what they come to is pending. -/
theorem holds_foldl_push (events : List Event) : Holds events (events.foldl push {}) := by
  have continued (earlier later : List Event) (pending : PendingEvents)
      (holds : Holds earlier pending) :
      Holds (earlier ++ later) (later.foldl PendingEvents.push pending) := by
    induction later generalizing earlier pending with
    | nil => rwa [List.append_nil]
    | cons event rest inductionHypothesis =>
        have pushed := inductionHypothesis (earlier ++ [event]) (pending.push event)
          (holds.push event)
        rwa [List.append_assoc, List.singleton_append] at pushed
  have start : Holds [] {} := ⟨rfl, fun path => by simp⟩
  exact continued [] events {} start

theorem Holds.nodup_order {events : List Event} {pending : PendingEvents}
    (holds : Holds events pending) : pending.order.Nodup := by
  rw [holds.order]
  exact Ordered.nodup_eraseDups _

/-- Whatever was reported, the order has each file of the map once, and no other. -/
theorem in_step (events : List Event) :
    (events.foldl push {}).order.Nodup ∧
      ∀ path, path ∈ (events.foldl push {}).order ↔ path ∈ (events.foldl push {}).latest := by
  have holds := holds_foldl_push events
  refine ⟨holds.nodup_order, fun path => ?_⟩
  rw [Std.ExtTreeMap.mem_iff_isSome_getElem?, holds.latest, holds.order, List.mem_eraseDups]
  split
  · next named => simpa using named
  · next unnamed => simpa using unnamed

/-- The events of distinct files are all found, though each is taken out of the map on the way. -/
theorem drain_eq_onePerFile {kindAt : String → EventKind} {paths : List String}
    {latest : Std.ExtTreeMap String Event} (distinct : paths.Nodup)
    (kept : ∀ path ∈ paths, latest[path]? = some (Event.mk (kindAt path) path)) :
    drain latest paths = onePerFile kindAt paths := by
  induction paths generalizing latest with
  | nil => rfl
  | cons path rest inductionHypothesis =>
      obtain ⟨notLater, distinctRest⟩ := List.nodup_cons.mp distinct
      have found := kept path List.mem_cons_self
      have keptRest : ∀ other ∈ rest,
          (latest.erase path)[other]? = some (Event.mk (kindAt other) other) := by
        intro other member
        have different : ¬ path = other := fun same => notLater (same ▸ member)
        rw [Std.ExtTreeMap.getElem?_erase, if_neg (by simpa using different)]
        exact kept other (List.mem_cons_of_mem path member)
      rw [drain, found, onePerFile_cons]
      exact congrArg _ (inductionHypothesis distinctRest keptRest)

theorem Holds.batch_eq {events : List Event} {pending : PendingEvents}
    (holds : Holds events pending) : pending.batch = summary events := by
  have kept : ∀ path ∈ pending.order,
      pending.latest[path]? = some ⟨outcome (kindsOf events path), path⟩ := by
    intro path member
    rw [holds.order, List.mem_eraseDups] at member
    rw [holds.latest, if_pos member]
  rw [batch, drain_eq_onePerFile holds.nodup_order kept, holds.order, summary]

end PendingEvents

namespace Event

open EventKind

/-- Events that are pushed one by one make the batch that their files' histories come to. -/
theorem coalesce_eq_summary (events : List Event) : coalesce events = summary events :=
  (PendingEvents.holds_foldl_push events).batch_eq

theorem paths_coalesce (events : List Event) :
    (coalesce events).map (·.path) = (events.map (·.path)).eraseDups := by
  rw [coalesce_eq_summary, summary, paths_onePerFile]

/-- The batch holds one report of a file, which says what all reports of it came to. -/
theorem kindsOf_coalesce (events : List Event) (path : String) :
    kindsOf (coalesce events) path =
      if path ∈ events.map (·.path) then [outcome (kindsOf events path)] else [] := by
  rw [coalesce_eq_summary, summary, kindsOf_onePerFile _ (Ordered.nodup_eraseDups _)]
  simp only [List.mem_eraseDups]

/-- A batch that is put together again stays as it is. -/
theorem coalesce_coalesce (events : List Event) : coalesce (coalesce events) = coalesce events := by
  have told (path : String) (member : path ∈ (events.map (·.path)).eraseDups) :
      outcome (kindsOf (coalesce events) path) = outcome (kindsOf events path) := by
    rw [kindsOf_coalesce, if_pos (List.mem_eraseDups.mp member), outcome_singleton]
  calc coalesce (coalesce events)
    _ = summary (coalesce events) := coalesce_eq_summary _
    _ = onePerFile (fun path => outcome (kindsOf (coalesce events) path))
          (events.map (·.path)).eraseDups := by
        rw [summary, paths_coalesce, Ordered.eraseDups_eq_self (Ordered.nodup_eraseDups _)]
    _ = summary events := onePerFile_congr told
    _ = coalesce events := (coalesce_eq_summary events).symm

theorem coalesce_ne_nil {events : List Event} (reported : events ≠ []) : coalesce events ≠ [] := by
  obtain ⟨event, member⟩ := List.exists_mem_of_ne_nil events reported
  have named : event.path ∈ (coalesce events).map (·.path) := by
    rw [paths_coalesce, List.mem_eraseDups]
    exact List.mem_map_of_mem member
  intro nothing
  rw [nothing] at named
  exact List.not_mem_nil named

theorem batches_eq {events : List Event} (reported : events ≠ []) :
    batches events = [coalesce events] := by
  cases events with
  | nil => exact absurd rfl reported
  | cons first rest => rfl

/-- A burst of events makes one batch. It has one event for each file that was reported, in the
order of the first reports, and its kind is what all reports of the file come to. Reporting the
batch again makes the same batch. -/
theorem batch_tells_outcomes {events : List Event} (reported : events ≠ []) :
    ∃ batch, batches events = [batch] ∧
      batch.map (·.path) = (events.map (·.path)).eraseDups ∧
      (batch.map (·.path)).Nodup ∧
      (∀ event ∈ batch, event.kind = outcome (kindsOf events event.path)) ∧
      batches batch = [batch] := by
  refine ⟨coalesce events, ?_, paths_coalesce events, ?_, ?_, ?_⟩
  · exact batches_eq reported
  · rw [paths_coalesce]
    exact Ordered.nodup_eraseDups _
  · intro event member
    rw [coalesce_eq_summary, summary, onePerFile] at member
    obtain ⟨path, _, rfl⟩ := List.mem_map.mp member
    rfl
  · rw [batches_eq (coalesce_ne_nil reported), coalesce_coalesce]

/-- Four files: a new one that is changed, one that comes back as a change, one that is made anew
after it was deleted, and one that does not last. -/
def interleavedReports : List Event :=
  [⟨.created, "a.ts"⟩, ⟨.deleted, "b.ts"⟩, ⟨.changed, "c.ts"⟩, ⟨.changed, "a.ts"⟩,
    ⟨.deleted, "c.ts"⟩, ⟨.changed, "b.ts"⟩, ⟨.created, "d.ts"⟩, ⟨.created, "c.ts"⟩,
    ⟨.changed, "c.ts"⟩, ⟨.deleted, "d.ts"⟩]

theorem interleavedReports_told :
    interleavedReports ≠ [] ∧
      ∃ batch, batches interleavedReports = [batch] ∧
        batch.map (·.path) = ["a.ts", "b.ts", "c.ts", "d.ts"] ∧
        (∀ event ∈ batch, event.kind = outcome (kindsOf interleavedReports event.path)) ∧
        ["a.ts", "b.ts", "c.ts", "d.ts"].map (fun path => outcome (kindsOf interleavedReports path)) =
          [.created, .changed, .created, .deleted] ∧
        batches batch = [batch] := by
  have reported : interleavedReports ≠ [] := by decide
  obtain ⟨batch, made, paths, _, kinds, again⟩ := batch_tells_outcomes reported
  exact ⟨reported, batch, made, paths.trans (by decide), kinds, by decide, again⟩

end Event

end CodeIndex
