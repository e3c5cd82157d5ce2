import SpinFleet.Proofs.Children
import SpinFleet.Proofs.Keyed
/-!
# Selection — which pods the children of an app pick out

A `Deployment` and a `Service` find pods by their labels.  The pods of an app carry the labels that its author chose and
the operator's own, which win (`App.get?_podLabels`).  A `Deployment` asks for the app's name and for its status label,
and so picks out the pods of its own app and no others, whatever authors write (`App.selectors_agree`).

A `Service` asks for the status label alone.  The key of this label holds the app's name, but it is the operator's own
only on the pods of that app: the author of another app can give it to his pods, and then the `Service` sends them
requests as well (`App.reaches_iff`).
-/
namespace SpinFleet

namespace Dict

variable {κ α : Type} [Ord κ] [Std.TransOrd κ] [Std.LawfulEqOrd κ]

theorem get?_insertMany {es : List (κ × α)} (h : es.Pairwise fun a b => compare a.1 b.1 = .lt) (d : Dict κ α) (k : κ) :
    (d.insertMany es).get? k = (find? k es).or (d.get? k) := by
  induction es generalizing d with
  | nil => rfl
  | cons e es ih =>
    obtain ⟨hhead, hes⟩ := List.pairwise_cons.1 h
    rw [show d.insertMany (e :: es) = (d.insert e.1 e.2).insertMany es from rfl, ih hes, get?_insert, find?]
    by_cases hk : compare k e.1 = .eq
    · obtain rfl := Std.LawfulEqOrd.eq_of_compare hk
      rw [find?_eq_none_of_lt hhead, if_pos hk, if_pos hk]
      rfl
    · rw [if_neg hk, if_neg hk]

end Dict

/-! ## Labels and what asks for them -/

/-- Whether labels are all among others, as a selector demands it of the labels of a pod. -/
def Labels.Within (selector labels : Labels) : Prop := ∀ k v, selector.get? k = some v → labels.get? k = some v

def Deployment.matchLabels (d : Deployment) : Labels :=
  (d.spec >>= fun s => s.selector.matchLabels).getD .empty

def Deployment.podLabels (d : Deployment) : Labels :=
  (d.spec >>= fun s => s.template.metadata >>= ObjectMeta.labels).getD .empty

def Service.selector (s : Service) : Labels := (s.spec >>= ServiceSpec.selector).getD .empty

/-- Whether a `Service` sends requests to the pods of a `Deployment`.  They live in the namespace of the `Deployment`,
and a `Service` that asks for nothing sends no requests. -/
structure Service.Reaches (s : Service) (d : Deployment) : Prop where
  ns_eq : s.metadata.nsOrEmpty = d.metadata.nsOrEmpty
  selects : s.selector.isEmpty = false
  within : s.selector.Within d.podLabels

/-! ## The operator's labels -/

theorem statusLabel_inj {a b : String} : statusLabel a = statusLabel b ↔ a = b := by
  unfold statusLabel
  rw [String.append_left_inj, String.append_right_inj]

theorem nameLabel_ne_statusLabel (app : String) : nameLabel ≠ statusLabel app := by
  -- the two keys part at the character behind their common beginning
  have hname : nameLabel = "core.spinoperator.dev/app" ++ "-name" := by decide
  have hstatus : "core.spinoperator.dev/app." = "core.spinoperator.dev/app" ++ "." := by decide
  intro h
  unfold statusLabel at h
  rw [hname, hstatus, String.append_assoc, String.append_assoc, String.append_right_inj] at h
  have hhead := congrArg (fun s => s.toList.head?) h
  simp only [String.toList_append] at hhead
  exact absurd hhead (by simp)

theorem get?_readyLabels (app k : String) : (readyLabels app).get? k =
    if k = statusLabel app then some readyValue else if k = nameLabel then some app else none := by
  unfold readyLabels Dict.ofList Dict.insertMany
  simp only [List.foldl_cons, List.foldl_nil, Dict.get?_insert, Std.LawfulEqCmp.compare_eq_iff_eq, Dict.get?_empty]

theorem get?_serviceSelector (app k : String) :
    (serviceSelector app).get? k = if k = statusLabel app then some readyValue else none := by
  unfold serviceSelector Dict.ofList Dict.insertMany
  simp only [List.foldl_cons, List.foldl_nil, Dict.get?_insert, Std.LawfulEqCmp.compare_eq_iff_eq, Dict.get?_empty]

theorem serviceSelector_within_iff {app : String} {labels : Labels} :
    (serviceSelector app).Within labels ↔ labels.get? (statusLabel app) = some readyValue := by
  refine ⟨fun h => h _ _ (by rw [get?_serviceSelector, if_pos rfl]), fun h k v hk => ?_⟩
  rw [get?_serviceSelector] at hk
  split at hk
  · cases hk
    subst k
    exact h
  · cases hk

theorem readyLabels_within_iff {app : String} {labels : Labels} : (readyLabels app).Within labels ↔
    labels.get? nameLabel = some app ∧ labels.get? (statusLabel app) = some readyValue := by
  constructor
  · intro h
    refine ⟨h _ _ ?_, h _ _ ?_⟩
    · rw [get?_readyLabels, if_neg (nameLabel_ne_statusLabel app), if_pos rfl]
    · rw [get?_readyLabels, if_pos rfl]
  · rintro ⟨hname, hstatus⟩ k v hk
    rw [get?_readyLabels] at hk
    split at hk
    · cases hk
      subst k
      exact hstatus
    · split at hk
      · cases hk
        subst k
        exact hname
      · cases hk

/-! ## An app with the labels of another -/

namespace Sample

def config : DeploymentConfig := { DeploymentConfig.empty with runtimeClassName := some "wasm" }

/-- An app in the namespace of the small one, whose author labels its pods with all that the operator labels the pods of
the small one with. -/
def mimic : App where
  metadata := metadata "mimic"
  spec := { AppSpec.ofImage "example" with executor := "shim", podLabels := readyLabels key.name }
  status := none

end Sample

/-! ## The children of an app -/

namespace App

variable {a b : App} {c c' : DeploymentConfig} {generated generated' ca ca' : Option String} {d d' : Deployment}
  {s : Service}

theorem deployment_labels (h : a.deployment c generated ca = .ok d) :
    d.spec.map DeploymentSpec.selector = some ⟨some (readyLabels a.name), .empty⟩ ∧
      d.matchLabels = readyLabels a.name ∧ d.podLabels = withLabels a.spec.podLabels (readyLabels a.name) := by
  obtain ⟨profile, config, probes, owner, -, -, -, rfl⟩ := deployment_parts h
  exact ⟨rfl, rfl, rfl⟩

theorem service_ok (h : a.service = .ok s) : s.metadata.key = ⟨a.ns, a.name⟩ ∧ s.selector = serviceSelector a.name := by
  unfold App.service at h
  cases ho : a.owner with
  | error e => rw [ho] at h; cases h
  | ok owner =>
    rw [ho] at h
    cases h
    exact ⟨rfl, rfl⟩

/-- **The labels of an app's pods**: the operator's two, and under all other keys the author's. -/
theorem get?_podLabels (h : a.deployment c generated ca = .ok d) (k : String) : d.podLabels.get? k =
    if k = statusLabel a.name then some readyValue else if k = nameLabel then some a.name
    else a.spec.podLabels.get? k := by
  rw [(deployment_labels h).2.2, withLabels, Dict.get?_insertMany (readyLabels a.name).sorted]
  change ((readyLabels a.name).get? k).or _ = _
  rw [get?_readyLabels]
  split
  · rfl
  · split <;> rfl

/-- **What the selectors of apps pick out.**  A `Deployment` asks for the labels of the pods of its own app and of no
other; what it asks for depends on the name of the app alone; and a `Service` asks for labels that the pods of its app
have, whatever the author of the app labels them with. -/
theorem selectors_agree (hd : a.deployment c generated ca = .ok d) (hd' : b.deployment c' generated' ca' = .ok d')
    (hs : a.service = .ok s) :
    (d.matchLabels.Within d'.podLabels ↔ a.name = b.name) ∧
    (a.name = b.name → d.spec.map DeploymentSpec.selector = d'.spec.map DeploymentSpec.selector) ∧
    s.selector.Within d.podLabels := by
  obtain ⟨hselector, hmatch, -⟩ := deployment_labels hd
  obtain ⟨hselector', -, -⟩ := deployment_labels hd'
  refine ⟨?_, fun hname => ?_, ?_⟩
  · rw [hmatch, readyLabels_within_iff, get?_podLabels hd', get?_podLabels hd',
      if_neg (nameLabel_ne_statusLabel b.name), if_pos rfl]
    constructor
    · rintro ⟨hname, -⟩
      exact (Option.some.inj hname).symm
    · intro hname
      rw [hname, if_pos rfl]
      exact ⟨rfl, rfl⟩
  · rw [hselector, hselector', hname]
  · rw [(service_ok hs).2, serviceSelector_within_iff, get?_podLabels hd, if_pos rfl]

/-- The `Deployment` of the small app does not pick out the pods that are labelled like its own. -/
theorem mimic_not_matched : ∃ d d' s, (Sample.app (Sample.storeAt "")).deployment Sample.config none none = .ok d ∧
    Sample.mimic.deployment Sample.config none none = .ok d' ∧ (Sample.app (Sample.storeAt "")).service = .ok s ∧
    ¬ d.matchLabels.Within d'.podLabels ∧ s.selector.Within d.podLabels := by
  obtain ⟨d, hd⟩ : ∃ d, (Sample.app (Sample.storeAt "")).deployment Sample.config none none = .ok d := ⟨_, rfl⟩
  obtain ⟨d', hd'⟩ : ∃ d', Sample.mimic.deployment Sample.config none none = .ok d' := ⟨_, rfl⟩
  obtain ⟨s, hs⟩ : ∃ s, (Sample.app (Sample.storeAt "")).service = .ok s := ⟨_, rfl⟩
  obtain ⟨hpicks, -, hown⟩ := selectors_agree hd hd' hs
  refine ⟨d, d', s, hd, hd', hs, fun h => ?_, hown⟩
  have hname : "hello" = "mimic" := hpicks.1 h
  exact absurd hname (by decide)

/-- **Whom a `Service` sends requests to**: the pods of its own app, and those pods of the same namespace to which the
author of another app gave its status label. -/
theorem reaches_iff (hs : a.service = .ok s) (hd : b.deployment c generated ca = .ok d) :
    s.Reaches d ↔ a.ns = b.ns ∧ (a.name = b.name ∨ b.spec.podLabels.get? (statusLabel a.name) = some readyValue) := by
  obtain ⟨hskey, hselector⟩ := service_ok hs
  have hsns : s.metadata.nsOrEmpty = a.ns := congrArg ObjectKey.ns hskey
  have hdns : d.metadata.nsOrEmpty = b.ns := congrArg ObjectKey.ns (deployment_ok hd).1
  have hwithin : s.selector.Within d.podLabels ↔
      a.name = b.name ∨ b.spec.podLabels.get? (statusLabel a.name) = some readyValue := by
    rw [hselector, serviceSelector_within_iff, get?_podLabels hd, if_neg (nameLabel_ne_statusLabel a.name).symm]
    by_cases hname : a.name = b.name
    · simp only [hname, if_true, true_or]
    · simp only [statusLabel_inj, hname, if_false, false_or]
  constructor
  · rintro ⟨hns, -, h⟩
    exact ⟨hsns.symm.trans (hns.trans hdns), hwithin.1 h⟩
  · rintro ⟨hns, h⟩
    exact ⟨hsns.trans (hns.trans hdns.symm), by rw [hselector]; rfl, hwithin.2 h⟩

/-- The `Service` of the small app sends requests to the pods that are labelled like its own. -/
theorem mimic_reached : ∃ s d, (Sample.app (Sample.storeAt "")).service = .ok s ∧
    Sample.mimic.deployment Sample.config none none = .ok d ∧
    (Sample.app (Sample.storeAt "")).name ≠ Sample.mimic.name ∧ s.Reaches d := by
  obtain ⟨s, hs⟩ : ∃ s, (Sample.app (Sample.storeAt "")).service = .ok s := ⟨_, rfl⟩
  obtain ⟨d, hd⟩ : ∃ d, Sample.mimic.deployment Sample.config none none = .ok d := ⟨_, rfl⟩
  have hgiven : Sample.mimic.spec.podLabels.get? (statusLabel "hello") = some readyValue := by
    rw [show Sample.mimic.spec.podLabels = readyLabels "hello" from rfl, get?_readyLabels, if_pos rfl]
  exact ⟨s, d, hs, hd, by decide, (reaches_iff hs hd).2 ⟨rfl, .inr hgiven⟩⟩

end App

end SpinFleet
