import SpinFleet.Api.Resource
import SpinFleet.Pass
/-!
# Publishing events

The first event of its kind is created; one that was published before is counted up instead, and
keeps the note of the first.  Two events are of one kind if everything but their notes is the
same.  That an event could not be published matters to nobody.
-/
namespace SpinFleet.Api

structure Reporter where
  controller : String
  pod : Option String
deriving DecidableEq, Repr

/-- An event as it was published: the kind of event, its note and its time, its name, and how often
it has been seen since the first time. -/
structure Published where
  event : Event
  name : String
  time : Instant
  /-- How often it was seen, and when the last time, if more than once. -/
  series : Option (Nat × Instant)
deriving DecidableEq, Repr

def sameKind (a b : Event) : Bool :=
  a.regarding = b.regarding && a.type = b.type && a.reason = b.reason && a.action = b.action

/-- The nanoseconds since 1970, or the seconds where these are too many. -/
def stamp (t : Instant) : Int :=
  let n := t.seconds * 1000000000 + t.nanos
  if -9223372036854775808 ≤ n ∧ n ≤ 9223372036854775807 then n else t.seconds

def eventName (r : Reporter) (e : Event) (now : Instant) : String :=
  e.regarding.name.getD r.controller ++ "." ++ toString (stamp now)

def eventNs (e : Event) : String := e.regarding.ns.getD "default"

def eventBody (r : Reporter) (p : Published) : Json :=
  let e := p.event
  let micro (t : Instant) : Json := .string t.textMicros
  .ofGroups [
    Json.always "apiVersion" (.string "events.k8s.io/v1"),
    Json.always "kind" (.string "Event"),
    Json.always "action" (.string e.action),
    Json.always "eventTime" (micro p.time),
    Json.always "metadata" (.ofGroups [
      Json.always "name" (.string p.name), Json.optional "namespace" e.regarding.ns .string]),
    Json.optional "note" e.note .string,
    Json.always "reason" (.string e.reason),
    Json.always "regarding" (ObjectReference.codec.encode e.regarding),
    Json.always "reportingController" (.string r.controller),
    Json.always "reportingInstance" (.string (r.pod.getD r.controller)),
    Json.optional "series" p.series fun s =>
      .object [("count", .int s.1), ("lastObservedTime", micro s.2)],
    Json.always "type" (.string e.type.text)]

def eventRecord : Record Carried where
  name := "Event"
  start := .empty
  fields := [.fixed "apiVersion" "events.k8s.io/v1", .fixed "kind" "Event"]
    ++ Field.carriedAll id (fun a _ => a) [
      ("action", .text), ("deprecatedCount", .int32), ("deprecatedFirstTimestamp", .time),
      ("deprecatedLastTimestamp", .time),
      ("deprecatedSource", .record "EventSource" [] [("component", .text), ("host", .text)]),
      ("eventTime", .time), ("metadata", ObjectMeta.shape), ("note", .text), ("reason", .text),
      ("regarding", .ofCodec .null ObjectReference.codec),
      ("related", .ofCodec .null ObjectReference.codec), ("reportingController", .text),
      ("reportingInstance", .text),
      ("series", .record "EventSeries" [("count", .int32), ("lastObservedTime", .time)] []),
      ("type", .text)]

def events : Resource Carried := ⟨"/apis/events.k8s.io/v1", "events", eventRecord.lenient⟩

/-- The event to be published now, given those that were: one of the same kind counted up, or a new
one. -/
def nextEvent (r : Reporter) (now : Instant) (before : List Published) (e : Event) : Published :=
  match before.find? fun p => sameKind p.event e with
  | some p => { p with series := some ((p.series.map Prod.fst).getD 1 + 1, now) }
  | none => ⟨e, eventName r e now, now, none⟩

/-- Publishes an event and gives the events published so far, among them this one if the server
took it. -/
def publish (r : Reporter) (now : Instant) (before : List Published) (e : Event) :
    Exchange (List Published) := do
  let p := nextEvent r now before e
  let body := eventBody r p
  let ns := eventNs e
  let sent : Talk Carried :=
    if p.series.isSome then events.merge ns p.name body else events.create ns body
  match ← sent.run with
  | .ok _ => return p :: before.filter fun q => !sameKind q.event e
  | .error _ => return before

end SpinFleet.Api
