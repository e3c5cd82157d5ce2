import SpinFleet.Api.Resource
import SpinFleet.Cluster.Call
import SpinFleet.Child.Secret
/-!
# Calls as requests

What each call of the operator sends to the server, and what it makes of the answers.  Most calls
are one request; taking a finalizer away or adding it is a read and a write, and pruning is a list
and a deletion for each `Secret` that nobody mounts any more.
-/
namespace SpinFleet.Api

/-! ## The kinds of objects -/

def apps : Resource App := ⟨"/apis/core.spinoperator.dev/v1alpha1", "spinapps", App.codec⟩

def executors : Resource Executor :=
  ⟨"/apis/core.spinoperator.dev/v1alpha1", "spinappexecutors", Executor.codec⟩

def deployments : Resource Deployment := ⟨"/apis/apps/v1", "deployments", Deployment.codec⟩

def services : Resource Service := ⟨"/api/v1", "services", Service.codec⟩

def secrets : Resource Secret := ⟨"/api/v1", "secrets", Secret.codec⟩

def configMaps : Resource ConfigMap := ⟨"/api/v1", "configmaps", ConfigMap.codec⟩

/-! ## Writing -/

/-- The patch that writes the status of an app, and that the server refuses if the app has another
version by now. -/
def statusPatch (version : String) (status : AppStatus) : Json := .object [
  ("metadata", .object [("resourceVersion", .string version)]),
  ("status", AppStatus.codec.encode status)]

def finalizersPatch (fs : List String) : Json :=
  .object [("metadata", .object [("finalizers", .array (fs.map .string))])]

def orNull {α : Type} (c : Codec α) : Option α → Json
  | some a => c.encode a
  | none => .null

/-- What is applied of a `Deployment`: neither its status nor who manages its fields. -/
def deploymentBody (d : Deployment) : Json :=
  let metadata := { d.metadata with carried := d.metadata.carried.erase "managedFields" }
  .object [("apiVersion", .string "apps/v1"), ("kind", .string "Deployment"),
    ("metadata", ObjectMeta.codec.encode metadata), ("spec", orNull DeploymentSpec.codec d.spec)]

def serviceBody (s : Service) : Json :=
  .object [("apiVersion", .string "v1"), ("kind", .string "Service"),
    ("metadata", ObjectMeta.codec.encode s.metadata), ("spec", orNull ServiceSpec.codec s.spec)]

def createSecret (s : Secret) : Talk Unit := do
  try
    let _ ← secrets.create s.metadata.nsOrEmpty (Secret.codec.encode s)
    return ()
  catch e => if e.isConflict then return () else throw e

def deleteSecrets (ns : String) : List String → Talk Unit
  | [] => return ()
  | name :: names => do
    secrets.delete? ns name
    deleteSecrets ns names

def addFinalizer (ns name : String) : Talk Unit := do
  match ← executors.get? ns name with
  | none => return ()
  | some e =>
    if e.hasFinalizer then return ()
    let _ ← executors.merge ns name
      (finalizersPatch (e.metadata.finalizerList ++ [Executor.finalizer]))
    return ()

def removeFinalizer (ns name : String) : Talk Unit := do
  match ← executors.get? ns name with
  | none => return ()
  | some e =>
    let _ ← executors.merge ns name
      (finalizersPatch (e.metadata.finalizerList.filter (· != Executor.finalizer)))
    return ()

/-! ## Calls -/

def done {α : Type} (t : Talk α) : Talk Unit := do
  let _ ← t
  return ()

def talk : (c : Call) → Talk c.Answer
  | .getApp n ns => apps.get? ns n
  | .listApps ns => apps.list ns none
  | .getExecutor n ns => executors.get? ns n
  | .listExecutors ns => executors.list ns none
  | .patchAppStatus n ns version status => done (apps.mergeStatus ns n (statusPatch version status))
  | .getDeployment n ns => deployments.get? ns n
  | .applyDeployment d =>
    done (deployments.apply d.metadata.nsOrEmpty d.metadata.anyName (deploymentBody d))
  | .deleteDeployment n ns => deployments.delete? ns n
  | .applyService s => done (services.apply s.metadata.nsOrEmpty s.metadata.anyName (serviceBody s))
  | .createSecret s => createSecret s
  | .pruneSecrets app ns keep => do
    let found ← secrets.list ns (some (nameLabel, app))
    deleteSecrets ns (staleSecrets app found keep)
  | .addFinalizer n ns => addFinalizer ns n
  | .removeFinalizer n ns => removeFinalizer ns n
  | .getSecret ns n => secrets.get? ns n
  | .getConfigMap ns n => configMaps.get? ns n

def perform (c : Call) : Exchange (Except Error c.Answer) := do
  match ← (talk c).run with
  | .ok a => return .ok a
  | .error e => return .error (.kube e)

end SpinFleet.Api
