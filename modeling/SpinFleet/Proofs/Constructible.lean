import SpinFleet.Proofs.Refusals
import SpinFleet.Proofs.Snapshots
/-!
# Constructible — what was let through can be built

An executor and an app are checked when they are stored, and again when the `Deployment` of the app is built, by other
functions.  The checks agree: an executor is refused for exactly that for which no `Deployment` could be built under it
(`ExecutorSpec.errors_cases`), and under an executor that was not refused the `Deployment` of an app that was not
refused is held up by its probes alone (`App.admitted_constructible`), which nobody looks at before.

Where the app brings its own configuration the pass generates none, so that the two never meet.
-/
namespace SpinFleet

/-! ## The way of running -/

/-- **Executors are refused for what cannot be built**, in the same words. -/
theorem ExecutorSpec.errors_cases (o : Option DeploymentConfig) :
    let s : ExecutorSpec := ⟨true, o⟩
    (s.errors = [] ∧ ∃ p, s.config.profile = .ok p) ∨
    ∃ x, s.errors = [x] ∧ s.config.profile = .error (.construct "deployment" x.detail) := by
  intro s
  unfold errors DeploymentConfig.profile
  rw [show s.createDeployment = true from rfl, if_neg (by decide)]
  cases s.config.runtimeClass <;> cases s.config.image
  · exact .inr ⟨_, rfl, rfl⟩
  · exact .inl ⟨rfl, _, rfl⟩
  · exact .inl ⟨rfl, _, rfl⟩
  · exact .inr ⟨_, rfl, rfl⟩

/-! ## The probes -/

/-- A check that is there, but not as a request. -/
def HealthProbe.Unknown (p : Option HealthProbe) : Prop := ∃ x ∈ p, x.httpGet = none

namespace HealthChecks

variable {c : HealthChecks}

def unknownProbe (kind : String) : Error :=
  .construct kind "probe exists but with unknown configuration, expected httpGet"

theorem toProbe?_cases (p : Option HealthProbe) (what : String) :
    (HealthProbe.Unknown p ∧ HealthProbe.toProbe? p what = .error (unknownProbe (what ++ " probe"))) ∨
    ¬ HealthProbe.Unknown p ∧ ∃ x, HealthProbe.toProbe? p what = .ok x := by
  cases p with
  | none => exact .inr ⟨by rintro ⟨x, ⟨⟩, -⟩, none, rfl⟩
  | some p =>
    unfold HealthProbe.toProbe? HealthProbe.toProbe HealthProbe.Unknown
    dsimp only
    cases h : p.httpGet with
    | none => exact .inl ⟨⟨p, rfl, h⟩, rfl⟩
    | some http =>
      refine .inr ⟨?_, _, rfl⟩
      rintro ⟨x, hx, hnone⟩
      cases hx
      rw [h] at hnone
      cases hnone

theorem toProbes_cases (c : HealthChecks) :
    (HealthProbe.Unknown c.readiness ∧ c.toProbes = .error (unknownProbe "readiness probe")) ∨
    (¬ HealthProbe.Unknown c.readiness ∧ HealthProbe.Unknown c.liveness ∧
      c.toProbes = .error (unknownProbe "liveness probe")) ∨
    ¬ HealthProbe.Unknown c.readiness ∧ ¬ HealthProbe.Unknown c.liveness ∧ ∃ probes, c.toProbes = .ok probes := by
  unfold toProbes
  rcases toProbe?_cases c.readiness "readiness" with ⟨hr, h⟩ | ⟨hr, r, h⟩
  · exact .inl ⟨hr, by rw [h]; rfl⟩
  · rcases toProbe?_cases c.liveness "liveness" with ⟨hl, h'⟩ | ⟨hl, l, h'⟩
    · exact .inr (.inl ⟨hr, hl, by rw [h, h']; rfl⟩)
    · exact .inr (.inr ⟨hr, hl, ⟨r, l⟩, by rw [h, h']; rfl⟩)

end HealthChecks

namespace App

variable {a : App} {c : DeploymentConfig} {generated ca : Option String} {err : Error}

/-! ## Building -/

theorem deployment_of_profile (h : c.profile = .error err) (a : App) (generated ca : Option String) :
    a.deployment c generated ca = .error err := by
  unfold App.deployment
  rw [h]
  rfl

theorem owner_of_named {name uid : String} (hname : a.metadata.name = some name) (huid : a.metadata.uid = some uid) :
    ∃ o, a.owner = .ok o := by
  unfold App.owner
  rw [hname, huid]
  exact ⟨_, rfl⟩

theorem deployment_error {p : Profile} (hp : c.profile = .ok p) (h : a.deployment c generated ca = .error err) :
    Storage.configSecret a generated = .error err ∨ a.spec.checks.toProbes = .error err ∨ a.owner = .error err := by
  unfold App.deployment Storage.ofApp at h
  cases hs : Storage.configSecret a generated with
  | error e => rw [hp, hs] at h; cases h; exact .inl rfl
  | ok config =>
  cases hb : a.spec.checks.toProbes with
  | error e => rw [hp, hs, hb] at h; cases h; exact .inr (.inl rfl)
  | ok probes =>
  cases ho : a.owner with
  | error e => rw [hp, hs, hb, ho] at h; cases h; exact .inr (.inr rfl)
  | ok owner =>
    rw [hp, hs, hb, ho] at h
    cases h

theorem deployment_ne_construct {p : Profile} (hp : c.profile = .ok p) (detail : String) :
    a.deployment c generated ca ≠ .error (.construct "deployment" detail) := by
  have hkind {kind text : String} (hne : kind ≠ "deployment") :
      Error.construct kind text ≠ .construct "deployment" detail := fun h => hne (Error.construct.inj h).1
  intro h
  rcases deployment_error hp h with h | h | h
  · unfold Storage.configSecret at h
    split at h
    · exact hkind (by decide) (Except.error.inj h)
    · cases h
    · cases h
  · rcases a.spec.checks.toProbes_cases with ⟨-, h'⟩ | ⟨-, -, h'⟩ | ⟨-, -, probes, h'⟩
    · exact hkind (by decide) (Except.error.inj (h'.symm.trans h))
    · exact hkind (by decide) (Except.error.inj (h'.symm.trans h))
    · cases h'.symm.trans h
  · unfold App.owner at h
    split at h
    · cases h
    · exact hkind (by decide) (Except.error.inj h)

theorem deployment_of_probes {p : Profile} {config : Option String} {o : OwnerReference} (hp : c.profile = .ok p)
    (hs : Storage.configSecret a generated = .ok config) (ho : a.owner = .ok o) (ca : Option String) :
    let r := a.deployment c generated ca
    (HealthProbe.Unknown a.spec.checks.readiness ∧ r = .error (HealthChecks.unknownProbe "readiness probe")) ∨
    (¬ HealthProbe.Unknown a.spec.checks.readiness ∧ HealthProbe.Unknown a.spec.checks.liveness ∧
      r = .error (HealthChecks.unknownProbe "liveness probe")) ∨
    ¬ HealthProbe.Unknown a.spec.checks.readiness ∧ ¬ HealthProbe.Unknown a.spec.checks.liveness ∧
      ∃ d, r = .ok d := by
  intro r
  have hr : r = a.spec.checks.toProbes >>= fun probes => do
      let storage := Storage.plan a (config.map Storage.configFile) (ca.map Storage.caFile)
      let container := a.container p c.otel storage.mounts probes
      return {
        metadata := a.childMeta a.spec.deploymentAnnotations o
        spec := some (a.deploymentSpec (a.podTemplate p container storage.volumes))
        status := none } := by
    unfold r App.deployment Storage.ofApp
    rw [hp, hs, ho]
    rfl
  rcases a.spec.checks.toProbes_cases with ⟨hready, h⟩ | ⟨hready, hlive, h⟩ | ⟨hready, hlive, probes, h⟩
  · exact .inl ⟨hready, by rw [hr, h]; rfl⟩
  · exact .inr (.inl ⟨hready, hlive, by rw [hr, h]; rfl⟩)
  · exact .inr (.inr ⟨hready, hlive, _, by rw [hr, h]; rfl⟩)

/-! ## Up to where it is built -/

variable {A : Edit → Prop} {s : Settings} {w w' : Cluster} {t : List Move}

/-- The pass has come to where the `Deployment` is built: the `Secret`s that its pods mount are there. -/
def Prepares (A : Edit → Prop) (s : Settings) (a : App) (c : DeploymentConfig) (w : Cluster) (t : List Move)
    (w' : Cluster) (generated ca : Option String) : Prop :=
  ∃ t₁ w₁ t₂, t = t₁ ++ t₂ ∧ Pass.Run A a.ensureConfigSecret.run w t₁ w₁ (some (.ok generated)) ∧
    Pass.Run A (a.ensureCaSecret s c).run w₁ t₂ w' (some (.ok ca))

/-- **No configuration is generated for an app that brings its own**, so the two never meet. -/
theorem Prepares.configSecret (h : a.Prepares A s c w t w' generated ca) :
    ∃ config, Storage.configSecret a generated = .ok config := by
  obtain ⟨t₁, w₁, t₂, -, h₁, -⟩ := h
  rcases ensureConfigSecret_run h₁ with ⟨-, hno⟩ | ⟨g, hg, -, hv⟩
  · exact (hno _ rfl).elim
  · obtain rfl := hv _ rfl
    unfold Storage.configSecret
    cases hg with
    | verbatim hverbatim =>
      obtain ⟨n, hn⟩ := Option.isSome_iff_exists.1 hverbatim
      rw [hn]
      exact ⟨_, rfl⟩
    | generated hverbatim =>
      rw [hverbatim]
      exact ⟨_, rfl⟩

/-! ## Admitted apps -/

/-- What becomes of the `Deployment` and of the `Service` of an app that only its probes hold up. -/
structure Constructs (a : App) (c : DeploymentConfig) (generated ca : Option String) : Prop where
  fails : (∃ e, a.deployment c generated ca = .error e) ↔
    HealthProbe.Unknown a.spec.checks.readiness ∨ HealthProbe.Unknown a.spec.checks.liveness
  readiness : HealthProbe.Unknown a.spec.checks.readiness →
    a.deployment c generated ca = .error (.construct "readiness probe"
      "probe exists but with unknown configuration, expected httpGet")
  liveness : ¬ HealthProbe.Unknown a.spec.checks.readiness → HealthProbe.Unknown a.spec.checks.liveness →
    a.deployment c generated ca = .error (.construct "liveness probe"
      "probe exists but with unknown configuration, expected httpGet")
  configuration : (∃ config, Storage.configSecret a generated = .ok config) ∧
    a.deployment c generated ca ≠ .error (.construct "volumes"
      "cannot specify both a user-provided runtime secret and a generated one")
  service : ∃ x, a.service = .ok x
  replicas : ∀ d, a.deployment c generated ca = .ok d → ∃ x, d.spec = some x ∧
    (x.replicas = none ↔ a.spec.enableAutoscaling = true) ∧
    (a.spec.enableAutoscaling = false → x.replicas = a.spec.replicas ∧ ∃ n, a.spec.replicas = some n ∧ 1 ≤ n)

theorem replicas_of_keeps {e : Executor} (h : a.spec.Keeps e) :
    (a.spec.desiredReplicas = none ↔ a.spec.enableAutoscaling = true) ∧
    (a.spec.enableAutoscaling = false →
      a.spec.desiredReplicas = a.spec.replicas ∧ ∃ n, a.spec.replicas = some n ∧ 1 ≤ n) := by
  have hreplicas := h.replicas
  unfold AppSpec.desiredReplicas
  cases ha : a.spec.enableAutoscaling with
  | true => simp
  | false =>
    rw [ha, if_neg Bool.false_ne_true] at hreplicas
    cases hn : a.spec.replicas with
    | none =>
      rw [hn] at hreplicas
      exact absurd hreplicas (by decide)
    | some n =>
      rw [hn] at hreplicas
      exact ⟨by simp, fun _ => ⟨rfl, n, rfl, hreplicas⟩⟩

theorem constructs_of_keeps {e : Executor} {p : Profile} {name uid : String} (hp : c.profile = .ok p)
    (hs : ∃ config, Storage.configSecret a generated = .ok config) (hname : a.metadata.name = some name)
    (huid : a.metadata.uid = some uid) (h : a.spec.Keeps e) : a.Constructs c generated ca := by
  obtain ⟨config, hconfig⟩ := hs
  obtain ⟨o, ho⟩ := owner_of_named hname huid
  have hservice : ∃ x, a.service = .ok x := by
    unfold App.service
    rw [ho]
    exact ⟨_, rfl⟩
  have hreplicas : ∀ d, a.deployment c generated ca = .ok d → ∃ x, d.spec = some x ∧
      (x.replicas = none ↔ a.spec.enableAutoscaling = true) ∧ (a.spec.enableAutoscaling = false →
        x.replicas = a.spec.replicas ∧ ∃ n, a.spec.replicas = some n ∧ 1 ≤ n) := by
    intro d hd
    obtain ⟨x, hx, hreplicas⟩ := Option.map_eq_some_iff.1 (deployment_replicas hd)
    exact ⟨x, hx, by rw [hreplicas]; exact replicas_of_keeps h⟩
  have hkind {kind detail kind' detail' : String} (hne : kind ≠ kind')
      (hd : a.deployment c generated ca = .error (.construct kind detail)) :
      a.deployment c generated ca ≠ .error (.construct kind' detail') :=
    fun h => hne (Error.construct.inj (Except.error.inj (hd.symm.trans h))).1
  rcases deployment_of_probes hp hconfig ho ca with ⟨hr, hd⟩ | ⟨hr, hl, hd⟩ | ⟨hr, hl, d, hd⟩
  · exact {
      fails := iff_of_true ⟨_, hd⟩ (.inl hr)
      readiness := fun _ => hd
      liveness := fun hno => (hno hr).elim
      configuration := ⟨⟨config, hconfig⟩, hkind (by decide) hd⟩
      service := hservice
      replicas := hreplicas }
  · exact {
      fails := iff_of_true ⟨_, hd⟩ (.inr hl)
      readiness := fun hready => (hr hready).elim
      liveness := fun _ _ => hd
      configuration := ⟨⟨config, hconfig⟩, hkind (by decide) hd⟩
      service := hservice
      replicas := hreplicas }
  · have hbuilt (err : Error) : a.deployment c generated ca ≠ .error err := fun h => by cases hd.symm.trans h
    exact {
      fails := iff_of_false (fun ⟨err, h⟩ => hbuilt err h) (not_or.2 ⟨hr, hl⟩)
      readiness := fun hready => (hr hready).elim
      liveness := fun _ hlive => (hl hlive).elim
      configuration := ⟨⟨config, hconfig⟩, hbuilt _⟩
      service := hservice
      replicas := hreplicas }

/-- **What was let through can be built.**  An executor that makes `Deployment`s is refused exactly if no `Deployment`
could be made under it, whatever the app.  Under one that is not refused, once a pass has come to building the
`Deployment` of an app that keeps the rules, only the probes of the app can hold it up. -/
theorem admitted_constructible :
    (∀ (o : Option DeploymentConfig) (a : App) (generated ca : Option String),
      let s : ExecutorSpec := ⟨true, o⟩
      (s.errors = [] ↔ ∀ detail, a.deployment s.config generated ca ≠ .error (.construct "deployment" detail)) ∧
      ∀ x ∈ s.errors, a.deployment s.config generated ca = .error (.construct "deployment" x.detail)) ∧
    ∀ (A : Edit → Prop) (s : Settings) (a : App) (e : Executor) (w w' : Cluster) (t : List Move)
      (generated ca : Option String),
      a.metadata.name.isSome = true → a.metadata.uid.isSome = true → a.spec.errors (some e) = [] →
      e.spec.createDeployment = true → e.spec.errors = [] → a.Prepares A s e.spec.config w t w' generated ca →
      a.Constructs e.spec.config generated ca := by
  refine ⟨fun o a generated ca => ?_, fun A s a e w w' t generated ca hname huid ha hcreate he h => ?_⟩
  · rcases ExecutorSpec.errors_cases o with ⟨hnil, p, hp⟩ | ⟨x, hx, hp⟩
    · refine ⟨iff_of_true hnil (deployment_ne_construct hp), fun x hx => ?_⟩
      rw [hnil] at hx
      cases hx
    · have hd := deployment_of_profile hp a generated ca
      refine ⟨iff_of_false (by simp [hx]) fun hno => hno _ hd, fun y hy => ?_⟩
      rw [hx] at hy
      obtain rfl := List.mem_singleton.1 hy
      exact hd
  · obtain ⟨name, hname⟩ := Option.isSome_iff_exists.1 hname
    obtain ⟨uid, huid⟩ := Option.isSome_iff_exists.1 huid
    have hspec : e.spec = ⟨true, e.spec.deploymentConfig⟩ := by rw [← hcreate]
    obtain ⟨p, hp⟩ : ∃ p, e.spec.config.profile = .ok p := by
      rcases ExecutorSpec.errors_cases e.spec.deploymentConfig with ⟨-, hp⟩ | ⟨x, hx, -⟩
      · rwa [← hspec] at hp
      · rw [← hspec, he] at hx
        cases hx
    rw [AppSpec.errors_eq, List.map_eq_nil_iff] at ha
    obtain ⟨_, -, hkeeps⟩ := AppSpec.broken_eq_nil.1 ha
    exact constructs_of_keeps hp h.configSecret hname huid hkeeps

end App

/-! ## An app with a check that is no request -/

namespace Sample

/-- The app brings its configuration, and has a check for liveness that says nothing. -/
def probed : App :=
  let a := app (readyMade "settings")
  { a with spec := { a.spec with replicas := some 2, checks := ⟨none, some ⟨none, 10, 1, 10, 1, 3⟩⟩ } }

/-- The app is let through, and held up by its probe. -/
theorem probed_fails : probed.spec.errors (some (executor .empty)) = [] ∧ (executor .empty).spec.errors = [] ∧
    probed.Prepares undisturbed settings (executor .empty).spec.config .empty [] .empty none none ∧
    probed.deployment (executor .empty).spec.config none none = .error (.construct "liveness probe"
      "probe exists but with unknown configuration, expected httpGet") ∧ ∃ x, probed.service = .ok x := by
  have hprepares :
      probed.Prepares undisturbed settings (executor .empty).spec.config .empty [] .empty none none :=
    ⟨[], .empty, [], rfl, App.ensureConfigSecret_readyMade rfl, App.ensureCaSecret_unasked rfl rfl⟩
  have h := App.admitted_constructible.2 undisturbed settings probed (executor .empty) .empty .empty [] none none
    rfl rfl rfl rfl rfl hprepares
  have hreadiness : ¬ HealthProbe.Unknown probed.spec.checks.readiness := by rintro ⟨x, ⟨⟩, -⟩
  exact ⟨rfl, rfl, hprepares, h.liveness hreadiness ⟨_, rfl, rfl⟩, h.service⟩

end Sample

end SpinFleet
