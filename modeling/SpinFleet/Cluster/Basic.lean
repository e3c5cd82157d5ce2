import SpinFleet.Cluster.Call
import SpinFleet.Child.Secret
/-!
# A cluster in memory

The objects that the operator knows, by namespace and name, and what every call does to them.
`Cluster.perform` is the meaning of calls: which objects change, and what the caller is answered.
-/
namespace SpinFleet

structure Cluster where
  apps : Dict ObjectKey App
  executors : Dict ObjectKey Executor
  deployments : Dict ObjectKey Deployment
  services : Dict ObjectKey Service
  secrets : Dict ObjectKey Secret
  configMaps : Dict ObjectKey ConfigMap

/-- How a call went, as seen from outside. -/
inductive Outcome
  | found
  | absent
  | counted (n : Nat)
  | done
  | created
  | exists
  | pruned (names : List String)
  | released
  | failed (e : Error)
  /-- Nobody waited for the answer. -/
  | dropped
deriving DecidableEq, Repr

structure Reply (c : Call) where
  cluster : Cluster
  answer : Except Error c.Answer
  outcome : Outcome

namespace Cluster

def empty : Cluster := ⟨.empty, .empty, .empty, .empty, .empty, .empty⟩

instance : Inhabited Cluster := ⟨empty⟩

def within {α : Type} (ns : String) (d : Dict ObjectKey α) : List α :=
  (d.filter fun k _ => k.ns == ns).values

def lookupOutcome {α : Type} (o : Option α) : Outcome := if o.isSome then .found else .absent

/-- The version after another one.  A version that is no number starts anew. -/
def nextVersion (version : String) : String :=
  let digits := match version.toList with
    | '+' :: ds => ds
    | ds => ds
  let n := digits.foldl (fun n c => n * 10 + (c.toNat - 48)) 0
  if !digits.isEmpty && digits.all Char.isDigit && n < 18446744073709551616 then toString (n + 1)
  else "1"

def appNotFound (name : String) : Error :=
  .kube (.refused ⟨"Failure", "spinapps \"" ++ name ++ "\" not found", "NotFound", 404⟩)

def versionConflict : Error :=
  .kube (.refused ⟨"Failure", "the object has been modified", "Conflict", 409⟩)

def withStatus (a : App) (status : AppStatus) : App :=
  { a with
    metadata := { a.metadata with resourceVersion := some (nextVersion a.metadata.version) }
    status := some status }

/-- Stores a `Deployment`, which keeps the status that the cluster reported. -/
def putDeployment (w : Cluster) (d : Deployment) : Cluster :=
  let status := w.deployments.get? d.metadata.key >>= Deployment.status
  { w with deployments := w.deployments.insert d.metadata.key { d with status := status } }

def labelledSecrets (w : Cluster) (app ns : String) : List Secret :=
  (within ns w.secrets).filter fun s =>
    (s.metadata.labels >>= fun l => l.get? nameLabel) == some app

def deleteSecrets (w : Cluster) (ns : String) (names : List String) : Cluster :=
  { w with secrets := w.secrets.filter fun k _ => !(k.ns == ns && names.contains k.name) }

def withFinalizers (e : Executor) (fs : List String) : Executor :=
  { e with metadata := { e.metadata with finalizers := some fs } }

/-- Lets an executor go: without finalizers it disappears if it is being deleted. -/
def release (w : Cluster) (key : ObjectKey) (e : Executor) : Cluster × Outcome :=
  let left := e.metadata.finalizerList.filter (· != Executor.finalizer)
  if left.isEmpty && e.metadata.isDeleting then
    ({ w with executors := w.executors.erase key }, .released)
  else ({ w with executors := w.executors.insert key (withFinalizers e left) }, .done)

def answered (w : Cluster) {c : Call} (a : c.Answer) (o : Outcome) : Reply c := ⟨w, .ok a, o⟩

def perform (w : Cluster) : (c : Call) → Reply c
  | .getApp n ns =>
    let o := w.apps.get? ⟨ns, n⟩
    w.answered (c := .getApp n ns) o (lookupOutcome o)
  | .listApps ns =>
    let xs := within ns w.apps
    w.answered (c := .listApps ns) xs (.counted xs.length)
  | .getExecutor n ns =>
    let o := w.executors.get? ⟨ns, n⟩
    w.answered (c := .getExecutor n ns) o (lookupOutcome o)
  | .listExecutors ns =>
    let xs := within ns w.executors
    w.answered (c := .listExecutors ns) xs (.counted xs.length)
  | .patchAppStatus n ns version status =>
    match w.apps.get? ⟨ns, n⟩ with
    | none => ⟨w, .error (appNotFound n), .failed (appNotFound n)⟩
    | some a =>
      if a.metadata.version = version then
        ⟨{ w with apps := w.apps.insert ⟨ns, n⟩ (withStatus a status) }, .ok (), .done⟩
      else ⟨w, .error versionConflict, .failed versionConflict⟩
  | .getDeployment n ns =>
    let o := w.deployments.get? ⟨ns, n⟩
    w.answered (c := .getDeployment n ns) o (lookupOutcome o)
  | .applyDeployment d => ⟨w.putDeployment d, .ok (), .done⟩
  | .deleteDeployment n ns =>
    ⟨{ w with deployments := w.deployments.erase ⟨ns, n⟩ }, .ok (), .done⟩
  | .applyService s => ⟨{ w with services := w.services.insert s.metadata.key s }, .ok (), .done⟩
  | .createSecret s =>
    if w.secrets.contains s.metadata.key then ⟨w, .ok (), .exists⟩
    else ⟨{ w with secrets := w.secrets.insert s.metadata.key s }, .ok (), .created⟩
  | .pruneSecrets app ns keep =>
    let names := staleSecrets app (w.labelledSecrets app ns) keep
    ⟨w.deleteSecrets ns names, .ok (), .pruned names⟩
  | .addFinalizer n ns =>
    match w.executors.get? ⟨ns, n⟩ with
    | none => ⟨w, .ok (), .absent⟩
    | some e =>
      let e := withFinalizers e (e.metadata.finalizerList ++ [Executor.finalizer])
      ⟨{ w with executors := w.executors.insert ⟨ns, n⟩ e }, .ok (), .done⟩
  | .removeFinalizer n ns =>
    match w.executors.get? ⟨ns, n⟩ with
    | none => ⟨w, .ok (), .absent⟩
    | some e =>
      let (w, o) := w.release ⟨ns, n⟩ e
      ⟨w, .ok (), o⟩
  | .getSecret ns n =>
    let o := w.secrets.get? ⟨ns, n⟩
    w.answered (c := .getSecret ns n) o (lookupOutcome o)
  | .getConfigMap ns n =>
    let o := w.configMaps.get? ⟨ns, n⟩
    w.answered (c := .getConfigMap ns n) o (lookupOutcome o)

end Cluster

end SpinFleet
