import SpinFleet.App.Basic
import SpinFleet.Kube.Deployment
/-!
# Observing an app

The status of an app follows the `Deployment` that runs it: two of its conditions, and how many
replicas are ready.  A condition keeps its time for as long as its status stays the same.
-/
namespace SpinFleet

/-- The types of conditions that an app takes over from its `Deployment`, in the order in which
they are reported when there is none. -/
def followedTypes : List String := ["Available", "Progressing"]

def missingCondition (now : Instant) (type : String) : Condition :=
  ⟨type, .unknown, "DeploymentNotFound", "Deployment not found", now⟩

def DeploymentCondition.toCondition (now : Instant) (c : DeploymentCondition) : Condition :=
  ⟨c.type, .observed c.status, c.reason.getD "", c.message.getD "", c.lastTransitionTime.getD now⟩

def observedConditions (now : Instant) (d : Option Deployment) : List Condition :=
  match d with
  | none => followedTypes.map (missingCondition now)
  | some d =>
    (((d.status.map DeploymentStatus.conditionList).getD []).filter
      fun c => followedTypes.contains c.type).map (DeploymentCondition.toCondition now)

def observedReplicas (d : Option Deployment) : Int :=
  ((d >>= Deployment.status) >>= DeploymentStatus.readyReplicas).getD 0

def AppStatus.observe (now : Instant) (executor : String) (d : Option Deployment) (s : AppStatus) :
    AppStatus where
  conditions := (observedConditions now d).foldl (fun cs c => Condition.set c cs) s.conditions
  activeScheduler := some executor
  readyReplicas := observedReplicas d

end SpinFleet
