import SpinFleet.Child.Deployment
import SpinFleet.Child.Secret
/-!
# Children — what the objects made for an app look like

The parts of a child that the cluster goes by: where it is stored, how it is labelled, what it mounts and holds.
-/
namespace SpinFleet

/-- The `Secret` that the pods of a `Deployment` take their configuration from, if the first of their volumes is the one
with the configuration. -/
def Deployment.configSecret? (d : Deployment) : Option String :=
  match d.volumes with
  | v :: _ => if v.name = Storage.configVolume then v.secret >>= SecretVolumeSource.secretName else none
  | [] => none

namespace App

variable {a : App} {c : DeploymentConfig} {generated ca : Option String}

theorem configSecret_ok {name text : String} {x : Secret} (h : a.configSecret name text = .ok x) :
    x.metadata.name = some name ∧ x.metadata.key = ⟨a.ns, name⟩ ∧ x.metadata.labels = some (appLabels a.name) ∧
      x.bytes? runtimeConfigKey = some (Utf8.encode text) := by
  unfold App.configSecret at h
  cases ho : a.owner with
  | error e =>
    rw [ho] at h
    cases h
  | ok o =>
    rw [ho] at h
    cases h
    exact ⟨rfl, rfl, rfl, by simp [Secret.bytes?, Dict.ofList, Dict.insertMany]⟩

theorem deployment_parts {d : Deployment} (h : a.deployment c generated ca = .ok d) :
    ∃ profile config probes owner, c.profile = .ok profile ∧ Storage.configSecret a generated = .ok config ∧
      a.owner = .ok owner ∧
      let storage := Storage.plan a (config.map Storage.configFile) (ca.map Storage.caFile)
      let container := a.container profile c.otel storage.mounts probes
      d = { metadata := a.childMeta a.spec.deploymentAnnotations owner
            spec := some (a.deploymentSpec (a.podTemplate profile container storage.volumes))
            status := none } := by
  unfold App.deployment Storage.ofApp at h
  cases hp : c.profile with
  | error e => rw [hp] at h; cases h
  | ok profile =>
  cases hs : Storage.configSecret a generated with
  | error e => rw [hp, hs] at h; cases h
  | ok config =>
  cases hb : a.spec.checks.toProbes with
  | error e => rw [hp, hs, hb] at h; cases h
  | ok probes =>
  cases ho : a.owner with
  | error e => rw [hp, hs, hb, ho] at h; cases h
  | ok owner =>
    rw [hp, hs, hb, ho] at h
    cases h
    exact ⟨profile, config, probes, owner, rfl, rfl, rfl, rfl⟩

/-- **The `Deployment` of an app** is stored under the app's own key, reports nothing yet, and mounts the plan. -/
theorem deployment_ok {d : Deployment} (h : a.deployment c generated ca = .ok d) :
    d.metadata.key = ⟨a.ns, a.name⟩ ∧ d.status = none ∧ ∃ config, Storage.configSecret a generated = .ok config ∧
      d.volumes = (Storage.plan a (config.map Storage.configFile) (ca.map Storage.caFile)).volumes := by
  obtain ⟨profile, config, probes, owner, -, hconfig, -, rfl⟩ := deployment_parts h
  exact ⟨rfl, rfl, config, hconfig, rfl⟩

theorem deployment_generated {d : Deployment} {n : String} (h : a.deployment c (some n) ca = .ok d) :
    d.configSecret? = some n := by
  obtain ⟨-, -, config, hconfig, hv⟩ := deployment_ok h
  obtain rfl : config = some n := by
    unfold Storage.configSecret at hconfig
    cases hver : a.spec.runtimeConfig.verbatimSecret with
    | some s => rw [hver] at hconfig; cases hconfig
    | none => rw [hver] at hconfig; cases hconfig; rfl
  unfold Deployment.configSecret?
  rw [hv]
  rfl

theorem deployment_verbatim {d : Deployment} {n : String} (h : a.deployment c generated ca = .ok d)
    (hv : a.spec.runtimeConfig.verbatimSecret = some n) : d.configSecret? = some n := by
  obtain ⟨-, -, config, hconfig, hvol⟩ := deployment_ok h
  obtain rfl : config = some n := by
    unfold Storage.configSecret at hconfig
    rw [hv] at hconfig
    cases generated with
    | some g => cases hconfig
    | none => cases hconfig; rfl
  unfold Deployment.configSecret?
  rw [hvol]
  rfl

end App

end SpinFleet
