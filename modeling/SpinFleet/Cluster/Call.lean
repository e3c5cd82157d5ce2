import SpinFleet.Executor
import SpinFleet.Error
import SpinFleet.Kube.Config
import SpinFleet.Kube.Deployment
import SpinFleet.Kube.Service
/-!
# Calls to the cluster

Everything the operator asks of the cluster, or tells it, is one of these calls, and a call says
in its type what it answers.  Passes are made of calls (`SpinFleet.Pass`); what a call does is
said twice, once for a cluster in memory (`SpinFleet.Cluster`) and once as the requests that a real
one is sent (`SpinFleet.Api`).
-/
namespace SpinFleet

inductive Call
  | getApp (name ns : String)
  | listApps (ns : String)
  | getExecutor (name ns : String)
  | listExecutors (ns : String)
  /-- Writes the status of an app, unless the app has another version by now. -/
  | patchAppStatus (name ns version : String) (status : AppStatus)
  | getDeployment (name ns : String)
  | applyDeployment (d : Deployment)
  | deleteDeployment (name ns : String)
  | applyService (s : Service)
  /-- Creates a `Secret`, unless there is one of its name. -/
  | createSecret (s : Secret)
  /-- Deletes the generated `Secret`s of an app other than the one to keep. -/
  | pruneSecrets (app ns : String) (keep : Option String)
  /-- Holds back the deletion of an executor. -/
  | addFinalizer (name ns : String)
  /-- Lets an executor go. -/
  | removeFinalizer (name ns : String)
  | getSecret (ns name : String)
  | getConfigMap (ns name : String)

namespace Call

@[reducible] def Answer : Call → Type
  | getApp .. => Option App
  | listApps _ => List App
  | getExecutor .. => Option Executor
  | listExecutors _ => List Executor
  | getDeployment .. => Option Deployment
  | getSecret .. => Option Secret
  | getConfigMap .. => Option ConfigMap
  | patchAppStatus .. | applyDeployment _ | deleteDeployment .. | applyService _ | createSecret _
  | pruneSecrets .. | addFinalizer .. | removeFinalizer .. => Unit

def verb : Call → String
  | getApp .. => "get_app"
  | listApps _ => "list_apps"
  | getExecutor .. => "get_executor"
  | listExecutors _ => "list_executors"
  | patchAppStatus .. => "patch_app_status"
  | getDeployment .. => "get_deployment"
  | applyDeployment _ => "apply_deployment"
  | deleteDeployment .. => "delete_deployment"
  | applyService _ => "apply_service"
  | createSecret _ => "create_secret_if_absent"
  | pruneSecrets .. => "prune_runtime_config_secrets"
  | addFinalizer .. => "add_executor_finalizer"
  | removeFinalizer .. => "remove_executor_finalizer"
  | getSecret .. => "get_secret"
  | getConfigMap .. => "get_config_map"

/-- The object that a call is about; of a list only the namespace is known, and pruning is about an
app. -/
def subject : Call → ObjectKey
  | getApp n ns | getExecutor n ns | getDeployment n ns | deleteDeployment n ns
  | addFinalizer n ns | removeFinalizer n ns | patchAppStatus n ns _ _ => ⟨ns, n⟩
  | getSecret ns n | getConfigMap ns n => ⟨ns, n⟩
  | listApps ns | listExecutors ns => ⟨ns, ""⟩
  | applyDeployment d => d.metadata.key
  | applyService s => s.metadata.key
  | createSecret s => s.metadata.key
  | pruneSecrets app ns _ => ⟨ns, app⟩

end Call

end SpinFleet
