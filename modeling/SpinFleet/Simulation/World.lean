import SpinFleet.Cluster.Basic
import SpinFleet.Pass
/-!
# Worlds

A world is a cluster in memory together with what a script does to the calls that reach it: a call
may be delayed, may fail instead of acting, and may be followed by the edits of other writers.
Time is virtual and passes only while calls are delayed.  Everything that happens is written down
in a trace, in the order in which it began.
-/
namespace SpinFleet

/-! ## Edits by other writers -/

inductive Kind
  | app
  | executor
  | deployment
  | service
  | secret
  | configMap
deriving DecidableEq, Repr

inductive Edit
  | putApp (a : App)
  | putExecutor (e : Executor)
  | putDeployment (d : Deployment)
  | putService (s : Service)
  | putSecret (s : Secret)
  | putConfigMap (c : ConfigMap)
  | delete (kind : Kind) (key : ObjectKey)

namespace Cluster

def edit (w : Cluster) : Edit → Cluster
  | .putApp a => { w with apps := w.apps.insert a.metadata.key a }
  | .putExecutor e => { w with executors := w.executors.insert e.metadata.key e }
  | .putDeployment d => { w with deployments := w.deployments.insert d.metadata.key d }
  | .putService s => { w with services := w.services.insert s.metadata.key s }
  | .putSecret s => { w with secrets := w.secrets.insert s.metadata.key s }
  | .putConfigMap c => { w with configMaps := w.configMaps.insert c.metadata.key c }
  | .delete .app k => { w with apps := w.apps.erase k }
  | .delete .executor k => { w with executors := w.executors.erase k }
  | .delete .deployment k => { w with deployments := w.deployments.erase k }
  | .delete .service k => { w with services := w.services.erase k }
  | .delete .secret k => { w with secrets := w.secrets.erase k }
  | .delete .configMap k => { w with configMaps := w.configMaps.erase k }

def has (w : Cluster) (kind : Kind) (k : ObjectKey) : Bool :=
  match kind with
  | .app => w.apps.contains k
  | .executor => w.executors.contains k
  | .deployment => w.deployments.contains k
  | .service => w.services.contains k
  | .secret => w.secrets.contains k
  | .configMap => w.configMaps.contains k

end Cluster

/-! ## Scripts -/

structure Cue where
  verb : String
  /-- Only the call of this count, counted from one for each verb. -/
  nth : Option Nat
  /-- Only calls about an object of this name. -/
  name : Option String
  /-- The milliseconds before the call acts. -/
  delay : Nat
  /-- A failure in place of the call's effect. -/
  error : Option Error
  /-- What other writers do right after the call. -/
  edits : List Edit

def Call.nameArgument : Call → Option String
  | .listApps _ | .listExecutors _ => none
  | c => some c.subject.name

/-- Whether a cue is meant for the `n`-th call of its verb. -/
def Cue.matches (q : Cue) (c : Call) (n : Nat) : Bool :=
  q.verb == c.verb && (q.nth.all (· == n)) && (q.name.all fun m => c.nameArgument == some m)

/-! ## Traces -/

inductive Happening
  /-- A call, and how it went once that is known. -/
  | call (c : Call) (outcome : Outcome)
  | event (e : Event)
  | measurement (m : Measurement)

structure World where
  cluster : Cluster
  script : List Cue
  /-- The milliseconds that have passed. -/
  clock : Nat
  /-- How many calls of each verb there were. -/
  counts : Dict String Nat
  /-- What happened, the latest first. -/
  trace : List Happening
  /-- The most look-ups that were under way at the same time. -/
  maxInFlight : Nat

namespace World

def ofCluster (cluster : Cluster) (script : List Cue) : World := ⟨cluster, script, 0, .empty, [], 0⟩

def note (w : World) (h : Happening) : World := { w with trace := h :: w.trace }

/-- A call that was begun: the place of its entry in the trace, counted from the first, and the cue
that is meant for it. -/
structure Begun where
  call : Call
  entry : Nat
  cue : Option Cue

def Begun.delay (b : Begun) : Nat := (b.cue.map Cue.delay).getD 0

/-- Begins a call.  Until it has acted, it counts as one that nobody waited for. -/
def begin (w : World) (c : Call) : World × Begun :=
  let n := (w.counts.get? c.verb).getD 0 + 1
  let cue := w.script.find? fun q => q.matches c n
  ({ w with counts := w.counts.insert c.verb n }.note (.call c .dropped), ⟨c, w.trace.length, cue⟩)

def settle (w : World) (b : Begun) (o : Outcome) : World :=
  { w with trace := w.trace.set (w.trace.length - 1 - b.entry) (.call b.call o) }

/-- Lets a call act, or fail, and then other writers edit. -/
def act (w : World) (b : Begun) : World × Except Error b.call.Answer :=
  let edits := (b.cue.map Cue.edits).getD []
  match b.cue >>= Cue.error with
  | some e =>
    ({ w with cluster := edits.foldl Cluster.edit w.cluster }.settle b (.failed e), .error e)
  | none =>
    let r := w.cluster.perform b.call
    ({ w with cluster := edits.foldl Cluster.edit r.cluster }.settle b r.outcome, r.answer)

end World

end SpinFleet
