import SpinFleet.Proofs.Restoring
import SpinFleet.Executor
/-!
# RoundTrip — the operator's own resources survive being written and read

Every record of an app, of its status and of an executor gives back what it was written from: whatever a field leaves
out, the record starts with.  The numbers have to fit into 32 bits, as every number does that is read, and the values
of the cluster's own types and the times have to be restored by their own codecs (`AppSpec.Restorable`,
`AppStatus.Restorable`).  So reading brings a resource into its normal form in one step (`Codec.resources_restored`).
-/
namespace SpinFleet

open Codec (IsInt32)
open SpinFleet.Field (keeps_of_read required_returns defaulted_returns optional_returns plain_returns)

/-! ## Fields that are left out when they are empty -/

theorem Codec.labels_restores (d : Labels) : (dict string).Restores d :=
  dict_restores fun e _ => string_restores e.2

namespace Field

variable {σ α : Type} {name : String} {c : Codec α} {x z : σ}

theorem list_returns {get : σ → List α} {set : List α → σ → σ} (h : ∀ a ∈ get x, c.Restores a) (hz : set [] z = z) :
    (unlessEmpty name (.list c) List.isEmpty get set).Returns x z (set (get x) z) :=
  unlessEmpty_returns (Codec.list_restores h) fun he => by rw [List.isEmpty_iff.1 he, hz]

theorem text_returns {get : σ → String} {set : String → σ → σ} (hz : set "" z = z) :
    (unlessEmpty name .string String.isEmpty get set).Returns x z (set (get x) z) :=
  unlessEmpty_returns (Codec.string_restores _) fun he => by rw [String.isEmpty_iff.1 he, hz]

theorem labels_returns {get : σ → Labels} {set : Labels → σ → σ} (hz : set .empty z = z) :
    (unlessEmpty name (.dict .string) Dict.isEmpty get set).Returns x z (set (get x) z) :=
  unlessEmpty_returns (Codec.labels_restores _) fun he => by rw [Dict.eq_empty_of_isEmpty he, hz]

theorem optionalText_returns {get : σ → Option String} {set : Option String → σ → σ} (hz : set none z = z) :
    (optional name .string get set).Returns x z (set (get x) z) :=
  optional_returns (fun s _ => Codec.string_restores s) Codec.string_present hz

end Field

open SpinFleet.Field (list_returns text_returns labels_returns optionalText_returns)

/-! ## Health checks -/

theorem HttpProbe.header_restores (x : HttpHeader) : headerRecord.strict.Restores x :=
  Record.strict_restores (by decide) <|
    .field (.doc (required_returns (Codec.string_restores _))) <|
    .field (.doc (required_returns (Codec.string_restores _))) <| .done _

theorem HttpProbe.restores (x : HttpProbe) : codec.Restores x :=
  Record.strict_restores (by decide) <|
    .field (.doc (required_returns (Codec.string_restores _))) <|
    .field (.doc (list_returns (fun h _ => header_restores h) rfl)) <| .done _

namespace HealthProbe

structure Fits (x : HealthProbe) : Prop where
  initialDelaySeconds : IsInt32 x.initialDelaySeconds
  timeoutSeconds : IsInt32 x.timeoutSeconds
  periodSeconds : IsInt32 x.periodSeconds
  successThreshold : IsInt32 x.successThreshold
  failureThreshold : IsInt32 x.failureThreshold

variable {x : HealthProbe} {j : Json}

theorem restores (h : x.Fits) : codec.Restores x :=
  Record.strict_restores (by decide) <|
    .field (.doc (optional_returns (fun p _ => p.restores) (Record.strict_present _) rfl)) <|
    .field (.doc (defaulted_returns (Codec.int32_restores h.initialDelaySeconds))) <|
    .field (.doc (defaulted_returns (Codec.int32_restores h.timeoutSeconds))) <|
    .field (.doc (defaulted_returns (Codec.int32_restores h.periodSeconds))) <|
    .field (.doc (defaulted_returns (Codec.int32_restores h.successThreshold))) <|
    .field (.doc (defaulted_returns (Codec.int32_restores h.failureThreshold))) <| .done _

theorem fits_of_decode (h : codec.decode j = .ok x) : x.Fits := by
  refine Record.decodeStrict_keeps (P := Fits) ?_ ?_ h
  · constructor <;> decide
  simp only [record, List.forall_mem_cons, List.not_mem_nil, false_implies, implies_true, and_true]
  refine ⟨?_, ?_, ?_, ?_, ?_, ?_⟩
  · exact keeps_of_read (fun _ => rfl) fun _ _ _ _ hz => { hz with }
  · exact keeps_of_read (fun _ => rfl) fun _ _ hn _ hz =>
      { hz with initialDelaySeconds := Codec.isInt32_of_decode hn }
  · exact keeps_of_read (fun _ => rfl) fun _ _ hn _ hz => { hz with timeoutSeconds := Codec.isInt32_of_decode hn }
  · exact keeps_of_read (fun _ => rfl) fun _ _ hn _ hz => { hz with periodSeconds := Codec.isInt32_of_decode hn }
  · exact keeps_of_read (fun _ => rfl) fun _ _ hn _ hz => { hz with successThreshold := Codec.isInt32_of_decode hn }
  · exact keeps_of_read (fun _ => rfl) fun _ _ hn _ hz => { hz with failureThreshold := Codec.isInt32_of_decode hn }

end HealthProbe

namespace HealthChecks

structure Fits (x : HealthChecks) : Prop where
  readiness : ∀ p ∈ x.readiness, p.Fits
  liveness : ∀ p ∈ x.liveness, p.Fits

variable {x : HealthChecks} {j : Json}

theorem restores (h : x.Fits) : codec.Restores x :=
  have hreadiness := fun p hp => HealthProbe.restores (h.readiness p hp)
  have hliveness := fun p hp => HealthProbe.restores (h.liveness p hp)
  Record.strict_restores (by decide) <|
    .field (.doc (optional_returns hreadiness (Record.strict_present _) rfl)) <|
    .field (.doc (optional_returns hliveness (Record.strict_present _) rfl)) <| .done _

theorem fits_of_decode (h : codec.decode j = .ok x) : x.Fits := by
  have hprobe {j : Json} {o : Option HealthProbe} (ho : HealthProbe.codec.nullable.decode j = .ok o) :
      ∀ p ∈ o, p.Fits := Codec.nullable_of_decode ho fun _ _ => HealthProbe.fits_of_decode
  refine Record.decodeStrict_keeps (P := Fits) ?_ ?_ h
  · constructor <;> rintro _ ⟨⟩
  simp only [record, List.forall_mem_cons, List.not_mem_nil, false_implies, implies_true, and_true]
  refine ⟨?_, ?_⟩
  · exact keeps_of_read (fun _ => rfl) fun _ _ ho _ hz => { hz with readiness := hprobe ho }
  · exact keeps_of_read (fun _ => rfl) fun _ _ ho _ hz => { hz with liveness := hprobe ho }

end HealthChecks

/-! ## Runtime configuration -/

theorem KeySelector.restores (what : String) (x : KeySelector) : (record what).lenient.Restores x :=
  Record.lenient_restores (show ["key", "name", "optional"].Nodup by decide) <|
    .field (plain_returns (Codec.string_restores _) Codec.string_present) <|
    .field (.free (plain_returns (Codec.string_restores _) Codec.string_present)) <|
    .field (optional_returns (fun b _ => Codec.boolean_restores b) Codec.boolean_present rfl) <| .done _

theorem OptionSource.restores (x : OptionSource) : codec.Restores x :=
  Record.strict_restores (by decide) <|
    .field (.doc (optional_returns (fun k _ => k.restores _) (Record.lenient_present _) rfl)) <|
    .field (.doc (optional_returns (fun k _ => k.restores _) (Record.lenient_present _) rfl)) <| .done _

theorem BindingOption.restores (x : BindingOption) : codec.Restores x :=
  Record.strict_restores (by decide) <|
    .field (.doc (required_returns (Codec.string_restores _))) <|
    .field (.doc (optionalText_returns rfl)) <|
    .field (.doc (optional_returns (fun s _ => s.restores) (Record.strict_present _) rfl)) <| .done _

theorem RuntimeBinding.restores (x : RuntimeBinding) : codec.Restores x :=
  Record.strict_restores (by decide) <|
    .field (.doc (required_returns (Codec.string_restores _))) <|
    .field (.doc (required_returns (Codec.string_restores _))) <|
    .field (.doc (list_returns (fun o _ => o.restores) rfl)) <| .done _

theorem ComputeBinding.restores (x : ComputeBinding) : codec.Restores x :=
  Record.strict_restores (by decide) <|
    .field (.doc (required_returns (Codec.string_restores _))) <|
    .field (.doc (list_returns (fun o _ => o.restores) rfl)) <| .done _

theorem RuntimeConfig.restores (x : RuntimeConfig) : codec.Restores x :=
  Record.strict_restores (by decide) <|
    .field (.doc (optionalText_returns rfl)) <|
    .field (.doc (list_returns (fun b _ => b.restores) rfl)) <|
    .field (.doc (list_returns (fun b _ => b.restores) rfl)) <|
    .field (.doc (optional_returns (fun l _ => l.restores) (Record.strict_present _) rfl)) <| .done _

/-! ## Variables and resources -/

theorem Variable.restores {x : Variable} (h : ∀ s ∈ x.valueFrom, EnvVarSource.codec.Restores s) : codec.Restores x :=
  Record.strict_restores (by decide) <|
    .field (.doc (required_returns (Codec.string_restores _))) <|
    .field (.doc (optionalText_returns rfl)) <|
    .field (.doc (optional_returns h (Record.lenient_present _) rfl)) <| .done _

theorem Resources.restores (x : Resources) : codec.Restores x :=
  Record.strict_restores (by decide) <|
    .field (.doc (optional_returns (fun q _ => Codec.labels_restores q) Codec.dict_present rfl)) <|
    .field (.doc (optional_returns (fun q _ => Codec.labels_restores q) Codec.dict_present rfl)) <| .done _

theorem LocalObjectReference.restores (x : LocalObjectReference) : codec.Restores x :=
  Record.lenient_restores (by decide) <|
    .field (.free (plain_returns (Codec.string_restores _) Codec.string_present)) <| .done _

/-! ## Apps -/

namespace AppSpec

structure Fits (x : AppSpec) : Prop where
  checks : x.checks.Fits
  replicas : ∀ n ∈ x.replicas, IsInt32 n

/-- The values of the cluster's own types are restored. -/
structure Restorable (x : AppSpec) : Prop where
  volumes : ∀ v ∈ x.volumes, Volume.codec.Restores v
  volumeMounts : ∀ m ∈ x.volumeMounts, VolumeMount.codec.Restores m
  vars : ∀ v ∈ x.vars, ∀ s ∈ v.valueFrom, EnvVarSource.codec.Restores s

variable {x : AppSpec} {j : Json}

theorem restores (hf : x.Fits) (h : x.Restorable) : codec.Restores x :=
  Record.strict_restores (by decide) <|
    .field (.doc (defaulted_returns (Codec.string_restores _))) <|
    .field (.doc (required_returns (Codec.string_restores _))) <|
    .field (.doc (list_returns (fun s _ => s.restores) rfl)) <|
    .field (.doc (optionalText_returns rfl)) <|
    .field (.doc (defaulted_returns (HealthChecks.restores hf.checks))) <|
    .field (.doc (optional_returns (fun n hn => Codec.int32_restores (hf.replicas n hn)) Codec.int32_present rfl)) <|
    .field (.doc (defaulted_returns (Codec.boolean_restores _))) <|
    .field (.doc (defaulted_returns (RuntimeConfig.restores _))) <|
    .field (.doc (list_returns h.volumes rfl)) <|
    .field (.doc (list_returns h.volumeMounts rfl)) <|
    .field (.doc (list_returns (fun v hv => Variable.restores (h.vars v hv)) rfl)) <|
    .field (.doc (labels_returns rfl)) <|
    .field (.doc (labels_returns rfl)) <|
    .field (.doc (labels_returns rfl)) <|
    .field (.doc (labels_returns rfl)) <|
    .field (.doc (defaulted_returns (Resources.restores _))) <| .done _

theorem fits_of_decode (h : codec.decode j = .ok x) : x.Fits := by
  -- Most fields store nothing that is a number or holds one.
  have other {α : Type} {f : Field AppSpec} {d : Json → Decoded α} {store : α → AppSpec → AppSpec}
      (hread : ∀ j, f.read j = store <$> d j) (hchecks : ∀ a z, (store a z).checks = z.checks)
      (hreplicas : ∀ a z, (store a z).replicas = z.replicas) : f.Keeps Fits :=
    keeps_of_read hread fun _ a _ z hz => ⟨hchecks a z ▸ hz.checks, hreplicas a z ▸ hz.replicas⟩
  refine Record.decodeStrict_keeps (P := Fits) ?_ ?_ h
  · refine ⟨?_, nofun⟩
    constructor <;> rintro _ ⟨⟩
  simp only [record, List.forall_mem_cons, List.not_mem_nil, false_implies, implies_true, and_true]
  refine ⟨?executor, ?image, ?imagePullSecrets, ?imagePullPolicy, ?checks, ?replicas, ?_, ?_, ?_, ?_, ?_, ?_, ?_, ?_,
    ?_, ?_⟩
  case checks =>
    exact keeps_of_read (fun _ => rfl) fun _ _ hc _ hz => { hz with checks := HealthChecks.fits_of_decode hc }
  case replicas =>
    refine keeps_of_read (fun _ => rfl) fun _ _ ho _ hz => { hz with replicas := ?_ }
    exact Codec.nullable_of_decode ho fun _ _ => Codec.isInt32_of_decode
  all_goals exact other (fun _ => rfl) (fun _ _ => rfl) fun _ _ => rfl

end AppSpec

/-! ## Their status -/

theorem ConditionStatus.restores (x : ConditionStatus) : codec.Restores x := by
  cases x <;> rfl

theorem Condition.restores {x : Condition} (h : (Codec.time Instant.textExact).Restores x.lastTransitionTime) :
    codec.Restores x :=
  Record.strict_restores (by decide) <|
    .field (.doc (required_returns (Codec.string_restores _))) <|
    .field (.doc (required_returns (ConditionStatus.restores _))) <|
    .field (.doc (defaulted_returns (Codec.string_restores _))) <|
    .field (.doc (defaulted_returns (Codec.string_restores _))) <|
    .field (.doc (required_returns h)) <| .done _

namespace AppStatus

def Restorable (x : AppStatus) : Prop :=
  ∀ c ∈ x.conditions, (Codec.time Instant.textExact).Restores c.lastTransitionTime

variable {x : AppStatus} {j : Json}

theorem restores (hf : IsInt32 x.readyReplicas) (h : x.Restorable) : codec.Restores x :=
  Record.strict_restores (by decide) <|
    .field (.doc (list_returns (fun c hc => Condition.restores (h c hc)) rfl)) <|
    .field (.doc (optionalText_returns rfl)) <|
    .field (.doc (defaulted_returns (Codec.int32_restores hf))) <| .done _

theorem fits_of_decode (h : codec.decode j = .ok x) : IsInt32 x.readyReplicas := by
  refine Record.decodeStrict_keeps (P := fun x => IsInt32 x.readyReplicas) (by decide) ?_ h
  simp only [record, List.forall_mem_cons, List.not_mem_nil, false_implies, implies_true, and_true]
  refine ⟨?_, ?_, ?_⟩
  · exact keeps_of_read (fun _ => rfl) fun _ _ _ _ hz => hz
  · exact keeps_of_read (fun _ => rfl) fun _ _ _ _ hz => hz
  · exact keeps_of_read (fun _ => rfl) fun _ _ hn _ _ => Codec.isInt32_of_decode hn

end AppStatus

/-! ## Executors -/

theorem OtelConfig.restores (x : OtelConfig) : codec.Restores x :=
  Record.strict_restores (by decide) <|
    .field (.doc (text_returns rfl)) <| .field (.doc (text_returns rfl)) <|
    .field (.doc (text_returns rfl)) <| .field (.doc (text_returns rfl)) <| .done _

theorem DeploymentConfig.restores (x : DeploymentConfig) : codec.Restores x :=
  Record.strict_restores (by decide) <|
    .field (.doc (optionalText_returns rfl)) <|
    .field (.doc (optionalText_returns rfl)) <|
    .field (.doc (optionalText_returns rfl)) <|
    .field (.doc (defaulted_returns (Codec.boolean_restores _))) <|
    .field (.doc (optional_returns (fun o _ => o.restores) (Record.strict_present _) rfl)) <| .done _

theorem ExecutorSpec.restores (x : ExecutorSpec) : codec.Restores x :=
  Record.strict_restores (by decide) <|
    .field (.doc (required_returns (Codec.boolean_restores _))) <|
    .field (.doc (optional_returns (fun c _ => c.restores) (Record.strict_present _) rfl)) <| .done _

/-! ## Normal forms -/

namespace Codec

variable {α : Type} {c : Codec α} {a : α} {j : Json}

theorem Restores.normalise (h : c.Restores a) (hj : c.decode j = .ok a) :
    c.normalise j = .ok (c.encode a) ∧ c.normalise (c.encode a) = .ok (c.encode a) := by
  unfold Codec.normalise
  rw [hj, show c.decode (c.encode a) = .ok a from h]
  exact ⟨rfl, rfl⟩

/-- **The operator's own resources are restored**: specifications and statuses of apps of which the numbers fit and the
values of other types are restored, and all specifications of executors.  What is read of any of them comes to its
normal form in one step. -/
theorem resources_restored :
    (∀ x : AppSpec, x.Fits → x.Restorable → AppSpec.codec.Restores x) ∧
    (∀ x : AppStatus, IsInt32 x.readyReplicas → x.Restorable → AppStatus.codec.Restores x) ∧
    (∀ x : ExecutorSpec, ExecutorSpec.codec.Restores x) ∧
    (∀ j x, AppSpec.codec.decode j = .ok x → x.Restorable →
      AppSpec.codec.normalise j = .ok (AppSpec.codec.encode x) ∧
      AppSpec.codec.normalise (AppSpec.codec.encode x) = .ok (AppSpec.codec.encode x)) ∧
    (∀ j x, AppStatus.codec.decode j = .ok x → x.Restorable →
      AppStatus.codec.normalise j = .ok (AppStatus.codec.encode x) ∧
      AppStatus.codec.normalise (AppStatus.codec.encode x) = .ok (AppStatus.codec.encode x)) ∧
    ∀ j x, ExecutorSpec.codec.decode j = .ok x →
      ExecutorSpec.codec.normalise j = .ok (ExecutorSpec.codec.encode x) ∧
      ExecutorSpec.codec.normalise (ExecutorSpec.codec.encode x) = .ok (ExecutorSpec.codec.encode x) := by
  refine ⟨fun x => AppSpec.restores, fun x => AppStatus.restores, ExecutorSpec.restores, ?_, ?_, ?_⟩
  · exact fun j x hj h => (AppSpec.restores (AppSpec.fits_of_decode hj) h).normalise hj
  · exact fun j x hj h => (AppStatus.restores (AppStatus.fits_of_decode hj) h).normalise hj
  · exact fun j x hj => (ExecutorSpec.restores x).normalise hj

end Codec

/-! ## A specification in full, and a short one -/

namespace Sample

def whole : AppSpec where
  executor := "shim"
  image := "example"
  imagePullSecrets := [⟨"registry"⟩]
  imagePullPolicy := some "Always"
  checks := ⟨some ⟨some ⟨"/healthz", [⟨"Host", "hello"⟩]⟩, 10, 1, 10, 1, 3⟩, some ⟨none, -1, 0, 2147483647, 1, 3⟩⟩
  replicas := some 2
  enableAutoscaling := false
  runtimeConfig := borrowing "password"
  volumes := [.ofSecretFile "settings" "password" "url"]
  volumeMounts := [.ofFile "settings" "/url" "url"]
  vars := [⟨"url", none, some ⟨none, some ⟨"password", "url", none⟩, .empty⟩⟩]
  serviceAnnotations := .empty
  deploymentAnnotations := .ofList [("team", "a")]
  podAnnotations := .ofList [("team", "a"), ("zone", "b")]
  podLabels := .empty
  resources := ⟨some (.ofList [("cpu", "1")]), none⟩

/-- A specification with a member that no field claims, and with few others. -/
def short : Json := .object [("image", .string "example"), ("color", .string "red"), ("replicas", .null)]

def observed : AppStatus := ⟨[⟨"Available", .true, "MinimumReplicasAvailable", "", ⟨1700000000, 5⟩⟩], some "shim", 2⟩

theorem short_decodes : AppSpec.codec.decode short = .ok (.ofImage "example") := by rfl

/-- A specification in full, a status, and a short specification, of which the normal form says more. -/
theorem whole_restored : AppSpec.codec.Restores whole ∧ AppStatus.codec.Restores observed ∧
    AppSpec.codec.normalise short = .ok (AppSpec.codec.encode (.ofImage "example")) ∧
    AppSpec.codec.normalise (AppSpec.codec.encode (.ofImage "example")) =
      .ok (AppSpec.codec.encode (.ofImage "example")) ∧
    (AppSpec.codec.encode (.ofImage "example")).member? "enableAutoscaling" = some (.bool false) := by
  obtain ⟨spec, status, -, settles, -, -⟩ := Codec.resources_restored
  have hfits : whole.Fits := by
    refine ⟨⟨?_, ?_⟩, ?_⟩
    · rintro _ ⟨⟩
      constructor <;> decide
    · rintro _ ⟨⟩
      constructor <;> decide
    · rintro _ ⟨⟩
      decide
  have hrestorable : whole.Restorable := by
    refine ⟨?_, ?_, ?_⟩
    · exact fun v hv => List.mem_singleton.1 hv ▸ rfl
    · exact fun m hm => List.mem_singleton.1 hm ▸ rfl
    · intro v hv
      obtain rfl := List.mem_singleton.1 hv
      rintro _ ⟨⟩
      rfl
  have hobserved : observed.Restorable := fun c hc => List.mem_singleton.1 hc ▸ rfl
  have hshort : (AppSpec.ofImage "example").Restorable := ⟨nofun, nofun, nofun⟩
  obtain ⟨hread, hagain⟩ := settles short _ short_decodes hshort
  exact ⟨spec whole hfits hrestorable, status observed (by decide) hobserved, hread, hagain, rfl⟩

end Sample

end SpinFleet
