import SpinFleet.Simulation.World
import SpinFleet.RuntimeConfig.Resolve
/-!
# Looking up several objects at once

Up to ten look-ups are under way at the same time.  They begin in order; each one waits for its
delay and then acts.  Whenever one has acted, the next of those that have not begun takes its
place.  The first failure ends the whole look-up, and those still under way are dropped.
-/
namespace SpinFleet.Simulation

def lookup : Reference → Call
  | .secret k => .getSecret k.ns k.name
  | .configMap k => .getConfigMap k.ns k.name

/-- The object that was looked up; one that is not there is a failure. -/
def demand {α : Type} (kind : String) (k : ObjectKey) : Except Error (Option α) → Except Error α
  | .error e => .error e
  | .ok (some a) => .ok a
  | .ok none => .error (.missingDependency kind k.ns k.name)

def enter (resolved : Resolved) :
    (ref : Reference) → Except Error (lookup ref).Answer → Except Error Resolved
  | .secret k, answer => do
    let s ← demand "secret" k (answer : Except Error (Option Secret))
    return resolved.addSecret k s
  | .configMap k, answer => do
    let c ← demand "configmap" k (answer : Except Error (Option ConfigMap))
    return resolved.addConfigMap k c

structure Waiting where
  ref : Reference
  entry : Nat
  cue : Option Cue
  wake : Nat

inductive Job
  /-- It has not begun. -/
  | fresh (ref : Reference)
  /-- Its delay is over. -/
  | woken (job : Waiting)

structure Fetch where
  world : World
  /-- References that are not under way yet. -/
  queue : List Reference
  /-- Look-ups that can go on, in the order in which they do. -/
  ready : List Job
  /-- Look-ups that wait, in the order in which they began. -/
  sleeping : List Waiting
  resolved : Resolved

inductive Ending
  | finished (world : World) (result : Except Error Resolved)
  /-- The deadline was reached. -/
  | timedOut (world : World)

namespace Fetch

def refill (f : Fetch) : Fetch :=
  let room := maxLookups - (f.ready.length + f.sleeping.length)
  { f with ready := f.ready ++ (f.queue.take room).map .fresh, queue := f.queue.drop room }

/-- How many of the look-ups that can go on have begun. -/
def begun (f : Fetch) : Nat := (f.ready.filter fun | .woken _ => true | .fresh _ => false).length

def complete (f : Fetch) (ref : Reference) (entry : Nat) (cue : Option Cue) :
    World × Except Error Resolved :=
  let (world, answer) := f.world.act ⟨lookup ref, entry, cue⟩
  (world, enter f.resolved ref answer)

def proceed (f : Fetch) (r : World × Except Error Resolved) : Fetch ⊕ Ending :=
  match r.2 with
  | .error e => .inr (.finished r.1 (.error e))
  | .ok resolved => .inl (refill { f with world := r.1, resolved := resolved })

def start (f : Fetch) (ref : Reference) : Fetch ⊕ Ending :=
  let (world, b) := f.world.begin (lookup ref)
  let inFlight := f.begun + f.sleeping.length + 1
  let f := { f with world := { world with maxInFlight := max world.maxInFlight inFlight } }
  if b.delay = 0 then f.proceed (f.complete ref b.entry b.cue)
  else .inl { f with sleeping := f.sleeping ++ [⟨ref, b.entry, b.cue, world.clock + b.delay⟩] }

def earliest : List Waiting → Option Nat
  | [] => none
  | w :: ws =>
    match earliest ws with
    | none => some w.wake
    | some t => some (min w.wake t)

/-- Lets time pass until a look-up wakes, or until the deadline. -/
def wait (deadline : Option Nat) (f : Fetch) (wake : Nat) : Fetch ⊕ Ending :=
  match deadline with
  | some limit =>
    if limit < wake then .inr (.timedOut { f.world with clock := max limit f.world.clock })
    else .inl (wakeUp f wake)
  | none => .inl (wakeUp f wake)
where
  wakeUp (f : Fetch) (wake : Nat) : Fetch :=
    { f with
      world := { f.world with clock := wake }
      ready := f.ready ++ (f.sleeping.filter fun w => w.wake == wake).map .woken
      sleeping := f.sleeping.filter fun w => w.wake != wake }

def step (deadline : Option Nat) (f : Fetch) : Fetch ⊕ Ending :=
  match f.ready with
  | .fresh ref :: rest => start { f with ready := rest } ref
  | .woken w :: rest =>
    let f := { f with ready := rest }
    f.proceed (f.complete w.ref w.entry w.cue)
  | [] =>
    match earliest f.sleeping with
    | some wake => wait deadline f wake
    | none => .inr (.finished f.world (.ok f.resolved))

/-- Steps until the end.  Each reference takes three steps at most, so the fuel does not run
out. -/
def run (deadline : Option Nat) : Nat → Fetch → Ending
  | 0, f => .finished f.world (.ok f.resolved)
  | fuel + 1, f =>
    match f.step deadline with
    | .inl f => run deadline fuel f
    | .inr e => e

def ofReferences (w : World) (refs : List Reference) : Fetch :=
  refill ⟨w, refs, [], [], .empty⟩

end Fetch

def fetch (deadline : Option Nat) (w : World) (refs : List Reference) : Ending :=
  (Fetch.ofReferences w refs).run deadline (3 * refs.length + 1)

end SpinFleet.Simulation
