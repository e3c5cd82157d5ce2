import Mathlib.Data.List.Forall2
import SpinFleet.Proofs.Footprint
import SpinFleet.Proofs.Interleaving
/-!
# Confinement — a pass knows one namespace

All that a pass asks for is in the namespace of its app (`App.pass_asks`).  Calls about one namespace cannot tell two
clusters apart that agree on it (`Cluster.AgreeIn`): they are answered the same in both, and leave both in agreement.
So for a run in the one cluster there is a run in the other that looks the same, whatever fails and whatever others do
(`Pass.Run.agreeIn`), and no pass reaches into the namespace of somebody else, nor learns what is there
(`App.pass_confined`).
-/
namespace SpinFleet

variable {ns : String}

def Dict.AgreeIn {α : Type} (ns : String) (d d' : Dict ObjectKey α) : Prop := ∀ k, k.ns = ns → d'.get? k = d.get? k

namespace Dict.AgreeIn

variable {α : Type} {d d' : Dict ObjectKey α}

theorem refl (ns : String) (d : Dict ObjectKey α) : AgreeIn ns d d := fun _ _ => rfl

theorem insert (h : AgreeIn ns d d') (k : ObjectKey) (a : α) : AgreeIn ns (d.insert k a) (d'.insert k a) := by
  intro k' hk
  rw [get?_insert, get?_insert, h k' hk]

theorem filter (h : AgreeIn ns d d') (p : ObjectKey → α → Bool) : AgreeIn ns (d.filter p) (d'.filter p) := by
  intro k hk
  rw [get?_filter, get?_filter, h k hk]

theorem erase (h : AgreeIn ns d d') (k : ObjectKey) : AgreeIn ns (d.erase k) (d'.erase k) := h.filter _

theorem within_eq (h : AgreeIn ns d d') : Cluster.within ns d' = Cluster.within ns d := by
  refine congrArg values (ext_get? fun k => ?_)
  rw [get?_filter, get?_filter]
  by_cases hk : k.ns = ns
  · rw [h k hk]
  · have hno (o : Option α) : o.filter (fun _ => k.ns == ns) = none := by
      cases o <;> simp [Option.filter, hk]
    rw [hno, hno]

end Dict.AgreeIn

structure Cluster.AgreeIn (ns : String) (w v : Cluster) : Prop where
  apps : w.apps.AgreeIn ns v.apps
  executors : w.executors.AgreeIn ns v.executors
  deployments : w.deployments.AgreeIn ns v.deployments
  services : w.services.AgreeIn ns v.services
  secrets : w.secrets.AgreeIn ns v.secrets
  configMaps : w.configMaps.AgreeIn ns v.configMaps

structure Reply.AgreeIn (ns : String) {c : Call} (p q : Reply c) : Prop where
  cluster : p.cluster.AgreeIn ns q.cluster
  answer : q.answer = p.answer
  outcome : q.outcome = p.outcome

namespace Cluster

variable {w v x : Cluster} {c : Call}

theorem AgreeIn.edit (h : w.AgreeIn ns v) (x : Edit) : (w.edit x).AgreeIn ns (v.edit x) := by
  cases x with
  | putApp => exact { h with apps := h.apps.insert _ _ }
  | putExecutor => exact { h with executors := h.executors.insert _ _ }
  | putDeployment => exact { h with deployments := h.deployments.insert _ _ }
  | putService => exact { h with services := h.services.insert _ _ }
  | putSecret => exact { h with secrets := h.secrets.insert _ _ }
  | putConfigMap => exact { h with configMaps := h.configMaps.insert _ _ }
  | delete kind k =>
    cases kind with
    | app => exact { h with apps := h.apps.erase k }
    | executor => exact { h with executors := h.executors.erase k }
    | deployment => exact { h with deployments := h.deployments.erase k }
    | service => exact { h with services := h.services.erase k }
    | secret => exact { h with secrets := h.secrets.erase k }
    | configMap => exact { h with configMaps := h.configMaps.erase k }

theorem AgreeIn.deleteSecrets (h : w.AgreeIn ns v) (ns' : String) (names : List String) :
    (w.deleteSecrets ns' names).AgreeIn ns (v.deleteSecrets ns' names) :=
  { h with secrets := h.secrets.filter _ }

theorem AgreeIn.labelledSecrets_eq (h : w.AgreeIn ns v) (app : String) :
    v.labelledSecrets app ns = w.labelledSecrets app ns := by
  unfold labelledSecrets
  rw [h.secrets.within_eq]

theorem AgreeIn.release (h : w.AgreeIn ns v) (k : ObjectKey) (e : Executor) :
    (w.release k e).1.AgreeIn ns (v.release k e).1 ∧ (v.release k e).2 = (w.release k e).2 := by
  unfold Cluster.release
  dsimp only
  split
  · exact ⟨{ h with executors := h.executors.erase k }, rfl⟩
  · exact ⟨{ h with executors := h.executors.insert k _ }, rfl⟩

/-- **A call about an object of a namespace is answered by that namespace**, and does the same to it everywhere. -/
theorem AgreeIn.perform (h : w.AgreeIn ns v) (hc : c.subject.ns = ns) : (w.perform c).AgreeIn ns (v.perform c) := by
  have read {a a' : c.Answer} {o o' : Outcome} (ha : a' = a) (ho : o' = o) :
      Reply.AgreeIn ns (w.answered a o) (v.answered a' o') :=
    ⟨h, congrArg Except.ok ha, ho⟩
  cases c with
  | getApp =>
    have hq := h.apps _ hc
    exact read hq (congrArg lookupOutcome hq)
  | getExecutor =>
    have hq := h.executors _ hc
    exact read hq (congrArg lookupOutcome hq)
  | getDeployment =>
    have hq := h.deployments _ hc
    exact read hq (congrArg lookupOutcome hq)
  | getSecret =>
    have hq := h.secrets _ hc
    exact read hq (congrArg lookupOutcome hq)
  | getConfigMap =>
    have hq := h.configMaps _ hc
    exact read hq (congrArg lookupOutcome hq)
  | listApps ns' =>
    obtain rfl : ns' = ns := hc
    have hq := h.apps.within_eq
    exact read hq (congrArg (fun l => Outcome.counted l.length) hq)
  | listExecutors ns' =>
    obtain rfl : ns' = ns := hc
    have hq := h.executors.within_eq
    exact read hq (congrArg (fun l => Outcome.counted l.length) hq)
  | patchAppStatus n ns' =>
    unfold Cluster.perform
    dsimp only
    rw [h.apps ⟨ns', n⟩ hc]
    split
    · exact ⟨h, rfl, rfl⟩
    · split
      · exact ⟨{ h with apps := h.apps.insert _ _ }, rfl, rfl⟩
      · exact ⟨h, rfl, rfl⟩
  | applyDeployment d =>
    refine ⟨?_, rfl, rfl⟩
    unfold Cluster.perform putDeployment
    dsimp only
    rw [h.deployments d.metadata.key hc]
    exact { h with deployments := h.deployments.insert _ _ }
  | deleteDeployment => exact ⟨{ h with deployments := h.deployments.erase _ }, rfl, rfl⟩
  | applyService => exact ⟨{ h with services := h.services.insert _ _ }, rfl, rfl⟩
  | createSecret x =>
    unfold Cluster.perform Dict.contains
    dsimp only
    rw [h.secrets x.metadata.key hc]
    split
    · exact ⟨h, rfl, rfl⟩
    · exact ⟨{ h with secrets := h.secrets.insert _ _ }, rfl, rfl⟩
  | pruneSecrets app ns' =>
    obtain rfl : ns' = ns := hc
    unfold Cluster.perform
    dsimp only
    rw [h.labelledSecrets_eq]
    exact ⟨h.deleteSecrets _ _, rfl, rfl⟩
  | addFinalizer n ns' =>
    unfold Cluster.perform
    dsimp only
    rw [h.executors ⟨ns', n⟩ hc]
    split
    · exact ⟨h, rfl, rfl⟩
    · exact ⟨{ h with executors := h.executors.insert _ _ }, rfl, rfl⟩
  | removeFinalizer n ns' =>
    unfold Cluster.perform
    dsimp only
    rw [h.executors ⟨ns', n⟩ hc]
    split
    · exact ⟨h, rfl, rfl⟩
    · rename_i e _
      obtain ⟨hcluster, houtcome⟩ := h.release ⟨ns', n⟩ e
      exact ⟨hcluster, rfl, houtcome⟩

theorem AgreeIn.fails (h : w.AgreeIn ns v) (hc : c.subject.ns = ns) (hf : w.Fails c x) :
    ∃ y, v.Fails c y ∧ x.AgreeIn ns y := by
  cases hf with
  | idle => exact ⟨v, .idle c, h⟩
  | @pruning app ns' keep names hnames =>
    obtain rfl : ns' = ns := hc
    exact ⟨_, .pruning (h.labelledSecrets_eq app ▸ hnames), h.deleteSecrets ns' names⟩

end Cluster

/-! ## Runs -/

/-- Two moves that look the same: a call that acts also is answered the same, and goes the same. -/
inductive Move.Alike : Move → Move → Prop
  | same (m : Move) : Alike m m
  | acted {w v c} (answer : (v.perform c).answer = (w.perform c).answer)
      (outcome : (v.perform c).outcome = (w.perform c).outcome) : Alike (.acted w c) (.acted v c)

variable {A : Edit → Prop} {w v w' : Cluster} {t : List Move}

theorem Reply.AgreeIn.alike {c : Call} (h : (w.perform c).AgreeIn ns (v.perform c)) :
    Move.Alike (.acted w c) (.acted v c) :=
  .acted h.answer h.outcome

theorem Gathers.agreeIn {refs : List Reference} {acc : Resolved} {r : Option (Except Error Resolved)}
    (h : Gathers A refs acc w t w' r) (hv : w.AgreeIn ns v) (ht : ∀ c ∈ calls t, c.subject.ns = ns) :
    ∃ u v', Gathers A refs acc v u v' r ∧ List.Forall₂ Move.Alike t u ∧ w'.AgreeIn ns v' := by
  induction h generalizing v with
  | cut => exact ⟨[], v, .cut, .nil, hv⟩
  | done => exact ⟨[], v, .done, .nil, hv⟩
  | found perm h _ ih =>
    obtain ⟨hc, ht⟩ := List.forall_mem_cons.1 ht
    have hp := hv.perform hc
    obtain ⟨u, v', hu, hm, hv'⟩ := ih hv ht
    exact ⟨_, v', .found perm (hp.answer ▸ h) hu, .cons hp.alike hm, hv'⟩
  | missing mem h =>
    have hp := hv.perform (ht _ List.mem_cons_self)
    exact ⟨_, v, .missing mem (hp.answer ▸ h), .cons hp.alike .nil, hv⟩
  | failed mem => exact ⟨_, v, .failed mem, .cons (.same _) .nil, hv⟩
  | @edit _ _ _ x _ _ _ hx _ ih =>
    obtain ⟨u, v', hu, hm, hv'⟩ := ih (hv.edit x) ht
    exact ⟨_, v', .edit hx hu, .cons (.same _) hm, hv'⟩

/-- **A run that asks for nothing outside a namespace** goes the same in every cluster that agrees on it. -/
theorem Pass.Run.agreeIn {α : Type} {p : Pass α} {r : Option α} (h : Run A p w t w' r) (hv : w.AgreeIn ns v)
    (ht : ∀ c ∈ calls t, c.subject.ns = ns) :
    ∃ u v', Run A p v u v' r ∧ List.Forall₂ Move.Alike t u ∧ w'.AgreeIn ns v' := by
  induction h generalizing v with
  | cut => exact ⟨[], v, .cut, .nil, hv⟩
  | done => exact ⟨[], v, .done, .nil, hv⟩
  | act _ ih =>
    obtain ⟨hc, ht⟩ := List.forall_mem_cons.1 ht
    have hp := hv.perform hc
    obtain ⟨u, v', hu, hm, hv'⟩ := ih hp.cluster ht
    exact ⟨_, v', .act (hp.answer ▸ hu), .cons hp.alike hm, hv'⟩
  | fail hf _ ih =>
    obtain ⟨hc, ht⟩ := List.forall_mem_cons.1 ht
    obtain ⟨y, hy, hxy⟩ := hv.fails hc hf
    obtain ⟨u, v', hu, hm, hv'⟩ := ih hxy ht
    exact ⟨_, v', .fail hy hu, .cons (.same _) hm, hv'⟩
  | gather hg _ ih =>
    rw [calls_append] at ht
    obtain ⟨ht₁, ht₂⟩ := List.forall_mem_append.1 ht
    obtain ⟨u₁, v₁, hu₁, hm₁, hv₁⟩ := hg.agreeIn hv ht₁
    obtain ⟨u₂, v', hu₂, hm₂, hv'⟩ := ih hv₁ ht₂
    exact ⟨_, v', .gather hu₁ hu₂, List.rel_append hm₁ hm₂, hv'⟩
  | gatherCut hg =>
    obtain ⟨u, v', hu, hm, hv'⟩ := hg.agreeIn hv ht
    exact ⟨u, v', .gatherCut hu, hm, hv'⟩
  | publish _ ih =>
    obtain ⟨u, v', hu, hm, hv'⟩ := ih hv ht
    exact ⟨_, v', .publish hu, .cons (.same _) hm, hv'⟩
  | record _ ih =>
    obtain ⟨u, v', hu, hm, hv'⟩ := ih hv ht
    exact ⟨_, v', .record hu, .cons (.same _) hm, hv'⟩
  | @edit _ _ x _ _ _ hx _ ih =>
    obtain ⟨u, v', hu, hm, hv'⟩ := ih (hv.edit x) ht
    exact ⟨_, v', .edit hx hu, .cons (.same _) hm, hv'⟩

/-! ## What a pass asks for -/

open Simulation (lookup)

theorem References.ns_ofSources {ns : String} {sources : List OptionSource} {ref : Reference}
    (h : ref ∈ (References.ofSources ns sources).toList) : (lookup ref).subject.ns = ns := by
  have inside {f : OptionSource → Option KeySelector} {k : ObjectKey}
      (hk : k ∈ (KeySet.ofKeys (sources.filterMap fun s => (f s).map fun r => ⟨ns, r.name⟩)).keys) : k.ns = ns := by
    obtain ⟨x, -, hx⟩ := List.mem_filterMap.1 (KeySet.contains_ofKeys.1 (Dict.mem_keys.1 hk))
    obtain ⟨r, -, rfl⟩ := Option.map_eq_some_iff.1 hx
    rfl
  rcases List.mem_append.1 h with h | h
  · obtain ⟨k, hk, rfl⟩ := List.mem_map.1 h
    exact inside hk
  · obtain ⟨k, hk, rfl⟩ := List.mem_map.1 h
    exact inside hk

theorem References.ns_ofApp {a : App} {ref : Reference} (h : ref ∈ (References.ofApp a).toList) :
    (lookup ref).subject.ns = a.ns := by
  unfold References.ofApp at h
  split at h
  · cases h
  · exact ns_ofSources h

namespace App

open Attempt

variable {s : Settings} {a : App} {key : ObjectKey} {e : Executor} {c : Call}

theorem Tends.ns_eq (h : Tends s a key e c) (ha : a.metadata.key = key) : c.subject.ns = key.ns := by
  have hns : a.ns = key.ns := congrArg ObjectKey.ns ha
  cases h with
  | look h => exact (References.ns_ofApp h).trans hns
  | configure h => exact (congrArg ObjectKey.ns (configSecret_ok h).2.1).trans hns
  | apply _ h => exact (congrArg ObjectKey.ns (deployment_ok h).1).trans hns
  | serve h => exact (congrArg ObjectKey.ns (service_ok h).1).trans hns
  | certify | prune => exact hns
  | delete => rfl

/-- **All that a pass asks for is in the namespace of its app**, whatever it is answered. -/
theorem pass_asks (s : Settings) (key : ObjectKey) :
    (App.pass s key).Asks (fun c => c.subject.ns = key.ns) fun _ => True :=
  pass_asks_of rfl (fun _ => rfl) rfl (fun _ _ => rfl) fun _ _ _ ha h => h.ns_eq ha

/-- **A pass is confined to its namespace.**  Whatever fails and wherever it is cut, it changes nothing outside its
footprint; and in any cluster that holds the same in the namespace it goes the same, and leaves the same there. -/
theorem pass_confined {w w' : Cluster} {t : List Move} {r : Option (Except Error Action)} (hk : w.Keyed)
    (h : Pass.Run undisturbed (App.pass s key).run w t w' r) :
    (∃ g, Footprint key g w w') ∧ (∀ c ∈ calls t, c.subject.ns = key.ns) ∧
    ∀ v, w.AgreeIn key.ns v → ∃ u v', Pass.Run undisturbed (App.pass s key).run v u v' r ∧
      List.Forall₂ Move.Alike t u ∧ w'.AgreeIn key.ns v' := by
  have ht := h.asks hk (pass_asks s key)
  exact ⟨pass_footprint hk h, ht, fun v hv => h.agreeIn hv ht⟩

end App

namespace Sample

def shared : Cluster := (cluster (storeAt "a")).edit (.putSecret (caSecret "elsewhere" "roots"))

def refusing : List Cue := [⟨"apply_deployment", none, none, 0, some (.timeout 1), []⟩]

theorem agreeIn_shared : (cluster (storeAt "a")).AgreeIn key.ns shared where
  apps := .refl _ _
  executors := .refl _ _
  deployments := .refl _ _
  services := .refl _ _
  secrets k hk := Dict.get?_insert_of_ne _ _ fun h => absurd ((congrArg ObjectKey.ns h).symm.trans hk) (by decide)
  configMaps := .refl _ _

end Sample

namespace App

/-- A pass that fails halfway, and the same pass where there is a `Secret` in another namespace. -/
theorem neighbour_unseen : ∃ t w' u v',
    Pass.Run undisturbed (App.pass Sample.settings Sample.key).run (Sample.cluster (Sample.storeAt "a")) t w'
      (some (.error (.timeout 1))) ∧
    Pass.Run undisturbed (App.pass Sample.settings Sample.key).run Sample.shared u v' (some (.error (.timeout 1))) ∧
    List.Forall₂ Move.Alike t u ∧ w'.AgreeIn Sample.key.ns v' ∧
    ∃ g, Footprint Sample.key g (Sample.cluster (Sample.storeAt "a")) w' := by
  obtain ⟨t, -, h⟩ := Sample.pass_run none Sample.refusing (Sample.cluster (Sample.storeAt "a"))
    (List.forall_mem_singleton.2 rfl)
  have hr : (Sample.pass none Sample.refusing (Sample.cluster (Sample.storeAt "a"))).2 =
      some (.error (.timeout 1)) := by
    decide +kernel
  rw [hr] at h
  obtain ⟨hfootprint, -, hsame⟩ := pass_confined (Cluster.keyed_ofEdits _) h
  obtain ⟨u, v', hu, hm, hv'⟩ := hsame _ Sample.agreeIn_shared
  exact ⟨t, _, u, v', h, hu, hm, hv', hfootprint⟩

end App

end SpinFleet
