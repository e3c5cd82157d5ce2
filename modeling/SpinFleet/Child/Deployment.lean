import SpinFleet.Child.Container
import SpinFleet.Kube.Deployment
/-!
# The `Deployment` of an app

A pure function of the app, the configuration of its executor, and the names of the `Secret`s
that were prepared for it.  Labels of the app's author never replace the operator's own.
-/
namespace SpinFleet

/-- Adds labels to others, winning over those of the same key. -/
def withLabels (base more : Labels) : Labels := base.insertMany more.toList

def App.container (a : App) (profile : Profile) (otel : Option OtelConfig)
    (mounts : List VolumeMount) (probes : Probes) : Container :=
  { Container.named a.name with
    image := some (profile.containerImage a.spec.image)
    imagePullPolicy := a.spec.imagePullPolicy
    command := profile.command
    args := profile.args a.spec.image (mounts.any fun m => m.mountPath == Storage.configPath)
    ports := some [⟨some portName, portNumber, some "TCP", .empty⟩]
    env := some (a.environment otel)
    volumeMounts := some mounts
    resources := some ⟨a.spec.resources.limits, a.spec.resources.requests, .empty⟩
    readinessProbe := probes.readiness
    livenessProbe := probes.liveness }

def App.podTemplate (a : App) (profile : Profile) (container : Container) (volumes : List Volume) :
    PodTemplate where
  metadata := some { ObjectMeta.empty with
    labels := some (withLabels a.spec.podLabels (readyLabels a.name))
    annotations := annotationsOrNone a.spec.podAnnotations }
  spec := some {
    runtimeClassName := profile.className
    containers := [container]
    imagePullSecrets :=
      if a.spec.imagePullSecrets.isEmpty then none else some a.spec.imagePullSecrets
    volumes := some volumes
    carried := .empty }

def App.deploymentSpec (a : App) (template : PodTemplate) : DeploymentSpec where
  replicas := a.spec.desiredReplicas
  selector := ⟨some (readyLabels a.name), .empty⟩
  template := template
  carried := .empty

/-- The `Deployment` of an app.  Of several faults the first in this order is reported: the way of
running, the volumes, the probes, the owner. -/
def App.deployment (a : App) (config : DeploymentConfig) (generated ca : Option String) :
    Except Error Deployment := do
  let profile ← config.profile
  let storage ← Storage.ofApp a generated ca
  let probes ← a.spec.checks.toProbes
  let owner ← a.owner
  let container := a.container profile config.otel storage.mounts probes
  return {
    metadata := a.childMeta a.spec.deploymentAnnotations owner
    spec := some (a.deploymentSpec (a.podTemplate profile container storage.volumes))
    status := none }

end SpinFleet
