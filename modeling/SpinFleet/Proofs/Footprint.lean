import SpinFleet.Proofs.AppPlan
import SpinFleet.Proofs.Naming
import SpinFleet.Proofs.Selection
/-!
# Footprint — what a pass may change in a cluster

A pass writes under the key of its app, and two kinds of `Secret`s of the app's namespace: those with a generated name,
and the one with the default certificates (`App.PassPlan.confined`).  The one name that it generates itself is the one
that it spares when it deletes.  So whatever fails and wherever a pass is cut, no `Secret` that was there is given other
contents, and nothing else is touched (`App.pass_footprint`).
-/
namespace SpinFleet

open Cluster (Edited Stops)

variable {A : Edit → Prop} {w x y w' : Cluster} {t : List Move} {key k : ObjectKey} {g : Option String}

/-- What may become of the `Secret` under a key in a pass that generates the name `g`, if any: nothing, or it is
created, or it is deleted. -/
inductive SecretFate (key : ObjectKey) (g : Option String) (k : ObjectKey) : Option Secret → Option Secret → Prop
  | same (o : Option Secret) : SecretFate key g k o o
  | created {s} (hns : k.ns = key.ns) (hn : isGeneratedName key.name k.name = true) (hg : g = some k.name) :
      SecretFate key g k none (some s)
  | certified {s} (hk : k = ⟨key.ns, defaultCaSecret⟩) : SecretFate key g k none (some s)
  | deleted {s} (hns : k.ns = key.ns) (hn : isGeneratedName key.name k.name = true) (hg : g ≠ some k.name) :
      SecretFate key g k (some s) none

/-- All that a pass over the app with a key changes. -/
structure Footprint (key : ObjectKey) (g : Option String) (w w' : Cluster) : Prop where
  /-- Of the app nothing changes but what was observed of it, and its version. -/
  app : Option.Rel App.Declares (w.apps.get? key) (w'.apps.get? key)
  apps : ∀ k, k ≠ key → w'.apps.get? k = w.apps.get? k
  executors : w'.executors = w.executors
  deployments : ∀ k, k ≠ key → w'.deployments.get? k = w.deployments.get? k
  services : ∀ k, k ≠ key → w'.services.get? k = w.services.get? k
  secrets : ∀ k, SecretFate key g k (w.secrets.get? k) (w'.secrets.get? k)
  configMaps : w'.configMaps = w.configMaps

inductive Confined (key : ObjectKey) (g : Option String) : Call → Prop
  | observe (version : String) (status : AppStatus) : Confined key g (.patchAppStatus key.name key.ns version status)
  | configure {s n} (hs : s.metadata.key = ⟨key.ns, n⟩) (hn : isGeneratedName key.name n = true) (hg : g = some n) :
      Confined key g (.createSecret s)
  | certify {s} (hs : s.metadata.key = ⟨key.ns, defaultCaSecret⟩) : Confined key g (.createSecret s)
  | apply {d} (hd : d.metadata.key = key) : Confined key g (.applyDeployment d)
  | prune : Confined key g (.pruneSecrets key.name key.ns g)
  | delete : Confined key g (.deleteDeployment key.name key.ns)
  | serve {v} (hv : v.metadata.key = key) : Confined key g (.applyService v)

/-! ## What one write changes -/

namespace SecretFate

variable {o o' : Option Secret} {s : Secret}

theorem create (h : SecretFate key g k o o')
    (hk : k.ns = key.ns ∧ isGeneratedName key.name k.name = true ∧ g = some k.name ∨ k = ⟨key.ns, defaultCaSecret⟩) :
    SecretFate key g k o (some (o'.getD s)) := by
  cases h with
  | same =>
    cases o with
    | some s' => exact .same _
    | none =>
      rcases hk with ⟨hns, hn, hg⟩ | hk
      · exact .created hns hn hg
      · exact .certified hk
  | created hns hn hg => exact .created hns hn hg
  | certified hk => exact .certified hk
  | deleted hns hn hg =>
    rcases hk with ⟨-, -, hg'⟩ | rfl
    · exact (hg hg').elim
    · rw [not_isGeneratedName_defaultCa] at hn
      cases hn

theorem delete (h : SecretFate key g k o o') (hns : k.ns = key.ns) (hn : isGeneratedName key.name k.name = true)
    (hg : g ≠ some k.name) : SecretFate key g k o none := by
  cases h with
  | same =>
    cases o with
    | some => exact .deleted hns hn hg
    | none => exact .same _
  | created _ _ hg' => exact (hg hg').elim
  | certified hk =>
    subst hk
    rw [not_isGeneratedName_defaultCa] at hn
    cases hn
  | deleted => exact .deleted hns hn hg

end SecretFate

namespace Cluster

theorem Leaves.patchAppStatus {n ns version : String} {status : AppStatus}
    (h : x.Leaves (.patchAppStatus n ns version status) y) : y.apps = x.apps ∨
      ∃ a, x.apps.get? ⟨ns, n⟩ = some a ∧ y.apps = x.apps.insert ⟨ns, n⟩ (withStatus a status) := by
  rcases h with rfl | hf
  · unfold perform
    dsimp only
    cases ha : x.apps.get? ⟨ns, n⟩ with
    | none => exact .inl rfl
    | some a =>
      dsimp only
      split
      · exact .inr ⟨a, rfl, rfl⟩
      · exact .inl rfl
  · exact .inl hf.apps_eq

theorem Leaves.createSecret {s : Secret} (h : x.Leaves (.createSecret s) y) (k : ObjectKey) :
    y.secrets.get? k = x.secrets.get? k ∨ k = s.metadata.key ∧ y.secrets.get? k = some ((x.secrets.get? k).getD s) := by
  by_cases hk : k = s.metadata.key
  · subst hk
    rcases h with rfl | hf
    · exact .inr ⟨rfl, x.createSecret_get?_self s⟩
    · cases hf
      exact .inl rfl
  · exact .inl (h.createSecret_get?_of_ne hk)

/-- Pruning takes away what looks generated by its name, and never what it is told to keep. -/
theorem Leaves.pruneSecrets {app ns : String} {keep : Option String} (h : x.Leaves (.pruneSecrets app ns keep) y)
    (k : ObjectKey) : y.secrets.get? k = x.secrets.get? k ∨
      k.ns = ns ∧ isGeneratedName app k.name = true ∧ keep ≠ some k.name ∧ y.secrets.get? k = none := by
  obtain ⟨names, hnames, rfl⟩ := h.prune
  rw [deleteSecrets_get?]
  split
  · rename_i hk
    obtain ⟨s, hs, hname⟩ := List.mem_map.1 (hnames.subset hk.2)
    obtain ⟨hn, -, hkeep⟩ := isStale_iff.1 (List.mem_filter.1 hs).2
    rw [hname] at hn hkeep
    exact .inr ⟨hk.1, hn, hkeep, rfl⟩
  · exact .inl rfl

end Cluster

theorem Footprint.refl (key : ObjectKey) (g : Option String) (w : Cluster) : Footprint key g w w where
  app := by
    cases w.apps.get? key with
    | none => exact .none
    | some a => exact .some (.refl a)
  apps _ _ := rfl
  executors := rfl
  deployments _ _ := rfl
  services _ _ := rfl
  secrets _ := .same _
  configMaps := rfl

namespace Confined

variable {c : Call}

theorem apps (hc : Confined key g c) (hl : x.Leaves c y) : y.apps = x.apps ∨
    ∃ a status, x.apps.get? key = some a ∧ y.apps = x.apps.insert key (Cluster.withStatus a status) := by
  cases hc with
  | observe version status => exact hl.patchAppStatus.imp_right fun ⟨a, ha, hy⟩ => ⟨a, status, ha, hy⟩
  | configure | certify | apply | prune | delete | serve => exact .inl (hl.sameBut.apps nofun)

theorem executors (hc : Confined key g c) (hl : x.Leaves c y) : y.executors = x.executors := by
  cases hc <;> exact hl.sameBut.executors nofun

theorem configMaps (hc : Confined key g c) (hl : x.Leaves c y) : y.configMaps = x.configMaps := by
  cases hc <;> exact hl.sameBut.configMaps nofun

theorem deployments (hc : Confined key g c) (hl : x.Leaves c y) (hk : k ≠ key) :
    y.deployments.get? k = x.deployments.get? k := by
  cases hc with
  | apply hd =>
    rcases hl with rfl | hf
    · exact Dict.get?_insert_of_ne _ _ (hd ▸ hk)
    · cases hf
      rfl
  | delete =>
    rcases hl with rfl | hf
    · exact Dict.get?_erase_of_ne _ hk
    · cases hf
      rfl
  | observe | configure | certify | prune | serve => rw [hl.sameBut.deployments nofun]

theorem services (hc : Confined key g c) (hl : x.Leaves c y) (hk : k ≠ key) :
    y.services.get? k = x.services.get? k := by
  cases hc with
  | serve hv =>
    rcases hl with rfl | hf
    · exact Dict.get?_insert_of_ne _ _ (hv ▸ hk)
    · cases hf
      rfl
  | observe | configure | certify | prune | apply | delete => rw [hl.sameBut.services nofun]

theorem secrets {o : Option Secret} (hc : Confined key g c) (hl : x.Leaves c y)
    (h : SecretFate key g k o (x.secrets.get? k)) : SecretFate key g k o (y.secrets.get? k) := by
  have created {s : Secret} {k' : ObjectKey} (hl : x.Leaves (.createSecret s) y) (hs : s.metadata.key = k')
      (hk : k'.ns = key.ns ∧ isGeneratedName key.name k'.name = true ∧ g = some k'.name ∨
        k' = ⟨key.ns, defaultCaSecret⟩) :
      SecretFate key g k o (y.secrets.get? k) := by
    subst hs
    rcases hl.createSecret k with hy | ⟨rfl, hy⟩
    · exact hy ▸ h
    · exact hy ▸ h.create hk
  cases hc with
  | configure hs hn hg => exact created hl hs (.inl ⟨rfl, hn, hg⟩)
  | certify hs => exact created hl hs (.inr rfl)
  | prune =>
    rcases hl.pruneSecrets k with hy | ⟨hns, hn, hg, hy⟩
    · exact hy ▸ h
    · exact hy ▸ h.delete hns hn hg
  | observe | apply | delete | serve => rwa [hl.sameBut.secrets nofun]

end Confined

/-- **A write that a pass plans stays within its footprint**, whether it acts or fails. -/
theorem Footprint.step {c : Call} (h : Footprint key g w x) (hc : Confined key g c) (hl : x.Leaves c y) :
    Footprint key g w y where
  app := by
    rcases hc.apps hl with hy | ⟨a, status, ha, hy⟩
    · rw [hy]
      exact h.app
    · have hx := h.app
      rw [ha] at hx
      rw [hy, Dict.get?_insert_self]
      generalize w.apps.get? key = o at hx
      cases hx with
      | some hd => exact .some (hd.trans ⟨rfl, rfl⟩)
  apps k hk := by
    rcases hc.apps hl with hy | ⟨a, status, -, hy⟩
    · rw [hy, h.apps k hk]
    · rw [hy, Dict.get?_insert_of_ne _ _ hk, h.apps k hk]
  executors := (hc.executors hl).trans h.executors
  deployments k hk := (hc.deployments hl hk).trans (h.deployments k hk)
  services k hk := (hc.services hl hk).trans (h.services k hk)
  secrets k := hc.secrets hl (h.secrets k)
  configMaps := (hc.configMaps hl).trans h.configMaps

/-! ## What a pass plans -/

namespace App

variable {s : Settings} {a : App} {c : DeploymentConfig} {e : Executor} {f : Bool} {L : List Call}

theorem Configures.confined {o : Option Secret} (h : Configures A w t a o) (ha : a.metadata.key = key) :
    ∀ c ∈ creates o, Confined key (generatedName o) c := by
  cases h with
  | verbatim => exact List.forall_mem_nil _
  | @generated _ d x _ _ _ hx =>
    obtain ⟨hname, hkey, -⟩ := configSecret_ok hx
    obtain rfl : (⟨a.ns, a.name⟩ : ObjectKey) = key := ha
    refine List.forall_mem_singleton.2 (.configure hkey (isGeneratedName_secretName ..) ?_)
    simp [generatedName, ObjectMeta.anyName, hname]

theorem RealizePlan.confined (h : RealizePlan A w t s a c f L) (ha : a.metadata.key = key) :
    ∃ g, ∀ c ∈ L, Confined key g c := by
  have certify {g ca n} (hca : a.certificates s c = some (ca, n)) : ∀ c ∈ creates ca, Confined key g c := by
    intro c hc
    obtain ⟨x, rfl, rfl⟩ := mem_creates.1 hc
    exact .certify ((certificates_key hca).trans (by rw [← ha]; rfl))
  cases h with
  | nothing => exact ⟨none, List.forall_mem_nil _⟩
  | config hg => exact ⟨_, hg.confined ha⟩
  | certificates hg hca => exact ⟨_, List.forall_mem_append.2 ⟨hg.confined ha, certify hca⟩⟩
  | whole hg hca hd =>
    refine ⟨_, List.forall_mem_append.2 ⟨List.forall_mem_append.2 ⟨hg.confined ha, certify hca⟩, ?_⟩⟩
    obtain rfl : (⟨a.ns, a.name⟩ : ObjectKey) = key := ha
    exact List.forall_mem_cons.2 ⟨.apply (deployment_ok hd).1, List.forall_mem_singleton.2 .prune⟩

theorem ChildrenPlan.confined (h : ChildrenPlan A w t s a key e f L) (ha : a.metadata.key = key) :
    ∃ g, ∀ c ∈ L, Confined key g c := by
  cases h with
  | external => exact ⟨none, List.forall_mem_singleton.2 .delete⟩
  | managed _ hL => exact hL.confined ha

theorem ConvergePlan.confined (h : ConvergePlan A w t s a key e f L) (ha : a.metadata.key = key) :
    ∃ g, ∀ c ∈ L, Confined key g c := by
  cases h with
  | deleting => exact ⟨none, List.forall_mem_nil _⟩
  | children _ hL => exact hL.confined ha
  | whole _ hL hv =>
    obtain ⟨g, hg⟩ := hL.confined ha
    refine ⟨g, List.forall_mem_append.2 ⟨hg, List.forall_mem_singleton.2 (.serve ?_)⟩⟩
    exact (service_ok hv).1.trans ha

theorem StatusPlan.confined (h : StatusPlan A w t s a e f L) (ha : a.metadata.key = key) (g : Option String) :
    ∀ c ∈ L, Confined key g c := by
  cases h with
  | nothing | failed => exact List.forall_mem_nil _
  | written =>
    obtain rfl : (⟨a.ns, a.name⟩ : ObjectKey) = key := ha
    exact List.forall_mem_singleton.2 (.observe ..)

/-- **A pass plans only writes within its footprint.** -/
theorem PassPlan.confined (h : PassPlan A w t s key f L) (hk : w.Keyed) : ∃ g, ∀ c ∈ L, Confined key g c := by
  cases h with
  | nothing | absent => exact ⟨none, List.forall_mem_nil _⟩
  | external ha _ _ _ hL => exact hL.confined ((hk.edited ha.edited).apps _ _ ha.found)
  | observed ha _ _ _ hP => exact ⟨none, hP.confined ((hk.edited ha.edited).apps _ _ ha.found) none⟩
  | vanished ha _ _ _ hP => exact ⟨none, hP.confined ((hk.edited ha.edited).apps _ _ ha.found) none⟩
  | managed ha hy _ _ hP hz _ hf hL =>
    have hkx := hk.edited ha.edited
    obtain ⟨g, hg⟩ := hL.confined (((hz.keyed (hkx.edited hy)).edited hf.edited).apps _ _ hf.found)
    exact ⟨g, List.forall_mem_append.2 ⟨hP.confined (hkx.apps _ _ ha.found) g, hg⟩⟩

/-- **The footprint of a pass**, whatever fails and wherever it is cut. -/
theorem pass_footprint {r : Option (Except Error Action)} (hk : w.Keyed)
    (h : Pass.Run undisturbed (App.pass s key).run w t w' r) : ∃ g, Footprint key g w w' := by
  obtain ⟨f, L, hplan, o, -⟩ := pass_run h
  obtain ⟨g, hL⟩ := hplan.confined hk
  exact ⟨g, o.stops.keeps (.refl key g w) (fun _ _ hx => hx.elim) fun c hc _ _ hl hx => hx.step (hL c hc) hl⟩

end App

end SpinFleet
