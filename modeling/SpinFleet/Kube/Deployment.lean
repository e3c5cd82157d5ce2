import SpinFleet.Kube.Pod
/-!
# Deployments

The object that keeps the pods of an app running, and the conditions it reports about them.
-/
namespace SpinFleet

structure DeploymentSpec where
  replicas : Option Int
  selector : LabelSelector
  template : PodTemplate
  carried : Carried

namespace DeploymentSpec

def strategy : Shape := .record "DeploymentStrategy" []
  [("rollingUpdate", .record "RollingUpdateDeployment" []
     [("maxSurge", .intOrString), ("maxUnavailable", .intOrString)]),
   ("type", .text)]

def record : Record DeploymentSpec where
  name := "DeploymentSpec"
  start := ⟨none, ⟨none, .empty⟩, .empty, .empty⟩
  fields := [
    .optional "replicas" .int32 replicas fun a x => { x with replicas := a },
    .plain "selector" LabelSelector.codec ⟨none, .empty⟩ selector
      fun a x => { x with selector := a },
    .plain "template" PodTemplate.codec .empty template fun a x => { x with template := a }]
    ++ Field.carriedAll carried (fun a x => { x with carried := a })
      [("minReadySeconds", .int32), ("paused", .boolean), ("progressDeadlineSeconds", .int32),
       ("revisionHistoryLimit", .int32), ("strategy", strategy)]

def codec : Codec DeploymentSpec := record.lenient

end DeploymentSpec

structure DeploymentCondition where
  type : String
  status : String
  reason : Option String
  message : Option String
  lastTransitionTime : Option Instant
  carried : Carried

namespace DeploymentCondition

def record : Record DeploymentCondition where
  name := "DeploymentCondition"
  start := ⟨"", "", none, none, none, .empty⟩
  fields := [
    .optional "lastTransitionTime" (.time Instant.textSeconds) lastTransitionTime
      fun a x => { x with lastTransitionTime := a },
    .optional "message" .string message fun a x => { x with message := a },
    .optional "reason" .string reason fun a x => { x with reason := a },
    .plain "status" .string "" status fun a x => { x with status := a },
    .plain "type" .string "" type fun a x => { x with type := a }]
    ++ Field.carriedAll carried (fun a x => { x with carried := a }) [("lastUpdateTime", .time)]

def codec : Codec DeploymentCondition := record.lenient

end DeploymentCondition

structure DeploymentStatus where
  conditions : Option (List DeploymentCondition)
  readyReplicas : Option Int
  carried : Carried

namespace DeploymentStatus

def record : Record DeploymentStatus where
  name := "DeploymentStatus"
  start := ⟨none, none, .empty⟩
  fields := [
    .optional "conditions" (.list DeploymentCondition.codec) conditions
      fun a x => { x with conditions := a },
    .optional "readyReplicas" .int32 readyReplicas fun a x => { x with readyReplicas := a }]
    ++ Field.carriedAll carried (fun a x => { x with carried := a })
      [("availableReplicas", .int32), ("collisionCount", .int32), ("observedGeneration", .int64),
       ("replicas", .int32), ("unavailableReplicas", .int32), ("updatedReplicas", .int32)]

def codec : Codec DeploymentStatus := record.lenient

def conditionList (s : DeploymentStatus) : List DeploymentCondition := s.conditions.getD []

end DeploymentStatus

structure Deployment where
  metadata : ObjectMeta
  spec : Option DeploymentSpec
  status : Option DeploymentStatus

namespace Deployment

def record : Record Deployment where
  name := "Deployment"
  start := ⟨.empty, none, none⟩
  fields := [
    .fixed "apiVersion" "apps/v1",
    .fixed "kind" "Deployment",
    .plain "metadata" ObjectMeta.codec .empty metadata fun a x => { x with metadata := a },
    .optional "spec" DeploymentSpec.codec spec fun a x => { x with spec := a },
    .optional "status" DeploymentStatus.codec status fun a x => { x with status := a }]

def codec : Codec Deployment := record.lenient

def volumes (d : Deployment) : List Volume :=
  ((d.spec >>= fun s => s.template.spec) >>= PodSpec.volumes).getD []

end Deployment

end SpinFleet
