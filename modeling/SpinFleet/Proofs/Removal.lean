import SpinFleet.Proofs.Undisturbed
/-!
# Removal — which `Deployment`s a pass takes away

A `Deployment` that was made for an app names this app as its controller (`Deployment.RealizedFor`), so it can be told
from what somebody else made.  A pass over an app whose executor makes no `Deployment`s takes away what stands under the
key of the app, and does not ask whose it is: the `Deployment` of somebody else is spared only if the pass does not get
as far as deleting, or is over an app that is being deleted (`App.pass_spares_iff`).
-/
namespace SpinFleet

/-- A `Deployment` was made for an app: the app is the controller among its owners. -/
def Deployment.RealizedFor (d : Deployment) (a : App) : Prop :=
  ∃ o ∈ d.metadata.ownerReferences.getD [], o.controller = some true ∧ some o.uid = a.metadata.uid

/-- No `Deployment` is taken away or changed but the one under a key, and that one only if it was made for an app. -/
def Cluster.SparesOthers (w w' : Cluster) (key : ObjectKey) (a : App) : Prop :=
  ∀ k d, w.deployments.get? k = some d → w'.deployments.get? k = some d ∨ k = key ∧ d.RealizedFor a

namespace App

open Cluster (Stops)

variable {A : Edit → Prop} {w w' : Cluster} {t : List Move} {s : Settings} {a : App} {e : Executor} {key : ObjectKey}
  {r : Option (Except Error Action)}

theorem ConvergePlan.of_external {f : Bool} {L : List Call} (h : ConvergePlan A w t s a key e f L)
    (hc : e.spec.createDeployment = false) : (L = [] ∧ a.metadata.isDeleting = true) ∨
      ∃ rest, L = .deleteDeployment key.name key.ns :: rest ∧ ∀ c ∈ rest, c.target = some .service := by
  have external {f : Bool} {L : List Call} (h : ChildrenPlan A w t s a key e f L) :
      L = [.deleteDeployment key.name key.ns] := by
    cases h with
    | external => rfl
    | managed hc' => cases hc.symm.trans hc'
  cases h with
  | deleting hd => exact .inl ⟨rfl, hd⟩
  | children _ hL => exact .inr ⟨[], external hL, List.forall_mem_nil _⟩
  | @whole _ v _ hL =>
    obtain rfl := external hL
    exact .inr ⟨[.applyService v], rfl, List.forall_mem_singleton.2 rfl⟩

/-- What a pass plans whose executor makes no `Deployment`s: nothing, which is the whole plan only for an app that is
being deleted, or deleting first of all. -/
theorem PassPlan.external_cases {f : Bool} {L : List Call} (h : PassPlan undisturbed w t s key f L) (hk : w.Keyed)
    (ha : w.apps.get? key = some a) (he : w.executors.get? ⟨key.ns, a.spec.executor⟩ = some e)
    (hc : e.spec.createDeployment = false) : (L = [] ∧ (f = true → a.metadata.isDeleting = true)) ∨
      ∃ rest, L = .deleteDeployment key.name key.ns :: rest ∧ ∀ c ∈ rest, c.target = some .service := by
  obtain ⟨rfl, rfl⟩ | ⟨e', P, R, rfl, p⟩ := h.parts hk ha
  · exact .inl ⟨rfl, nofun⟩
  obtain rfl : e = e' := Option.some.inj (he.symm.trans p.found)
  obtain rfl : P = [] := by
    rcases p.status with ⟨hP, -⟩ | ⟨-, hc'⟩
    · exact hP
    · cases hc.symm.trans hc'
  obtain ⟨rfl, rfl⟩ | ⟨x, b, -, hd, hR⟩ := p.rest
  · exact .inl ⟨rfl, nofun⟩
  · refine (hR.of_external hc).imp_left fun ⟨hR, hb⟩ => ⟨hR, fun _ => ?_⟩
    rw [← hd.isDeleting, hb]

theorem deployments_of_stops {rest : List Call}
    (h : Stops undisturbed w (.deleteDeployment key.name key.ns :: rest) (writes t) w')
    (hrest : ∀ c ∈ rest, c.target = some .service) :
    (writes t = [] ∧ w' = w) ∨
    (.deleteDeployment key.name key.ns ∈ (writes t).map Prod.snd ∧ w'.deployments = w.deployments.erase key) := by
  generalize hm : writes t = made at h
  cases h with
  | here h => exact .inl ⟨rfl, h.eq_of_undisturbed⟩
  | fail h hf h' =>
    cases hf
    exact .inl ⟨rfl, h'.eq_of_undisturbed.trans h.eq_of_undisturbed⟩
  | act h h' =>
    refine .inr ⟨List.mem_cons_self, ?_⟩
    have hsame := (h'.sameBut hrest).deployments nofun
    rw [hsame, h.eq_of_undisturbed]
    rfl

theorem external_pass (hk : w.Keyed) (h : Pass.Run undisturbed (App.pass s key).run w t w' r)
    (ha : w.apps.get? key = some a) (he : w.executors.get? ⟨key.ns, a.spec.executor⟩ = some e)
    (hc : e.spec.createDeployment = false) :
    ((∀ x, .acted x (.deleteDeployment key.name key.ns) ∉ t) ∧ w'.deployments = w.deployments) ∨
      (∃ x, .acted x (.deleteDeployment key.name key.ns) ∈ t) ∧ w'.deployments = w.deployments.erase key := by
  obtain ⟨f, L, hplan, o, -⟩ := pass_run h
  have idle (hw : writes t = []) (x : Cluster) : .acted x (.deleteDeployment key.name key.ns) ∉ t := fun hx => by
    have hmem := (acts_iff (c := .deleteDeployment key.name key.ns) rfl).2 ⟨x, hx⟩
    rw [hw] at hmem
    cases hmem
  have still (hs : Stops undisturbed w [] (writes t) w') : writes t = [] ∧ w' = w :=
    (Stops.nil_iff.1 hs).imp_right Cluster.Edited.eq_of_undisturbed
  rcases hplan.external_cases hk ha he hc with ⟨rfl, -⟩ | ⟨rest, rfl, hrest⟩
  · obtain ⟨hw, rfl⟩ := still o.stops
    exact .inl ⟨idle hw, rfl⟩
  · rcases deployments_of_stops o.stops hrest with ⟨hw, rfl⟩ | ⟨hmem, hd⟩
    · exact .inl ⟨idle hw, rfl⟩
    · exact .inr ⟨(acts_iff rfl).1 hmem, hd⟩

theorem external_pass_deletes {v : Action} (hk : w.Keyed)
    (h : Pass.Run undisturbed (App.pass s key).run w t w' (some (.ok v))) (ha : w.apps.get? key = some a)
    (he : w.executors.get? ⟨key.ns, a.spec.executor⟩ = some e) (hc : e.spec.createDeployment = false)
    (hdel : a.metadata.isDeleting = false) : ∃ x, .acted x (.deleteDeployment key.name key.ns) ∈ t := by
  obtain ⟨f, L, hplan, o, hf⟩ := pass_run h
  obtain rfl := hf v rfl
  have hmade := o.whole v rfl
  rcases hplan.external_cases hk ha he hc with ⟨rfl, hd⟩ | ⟨rest, rfl, hrest⟩
  · cases hdel.symm.trans (hd rfl)
  · exact (acts_iff rfl).1 (hmade ▸ List.mem_cons_self)

/-- **Whose `Deployment` is taken away.**  A pass whose executor makes no `Deployment`s spares what was not made for its
app exactly if there is nothing of the kind under the key of the app, or the pass does not delete.  It does if it comes
to its end, and the app is not being deleted. -/
theorem pass_spares_iff (hk : w.Keyed) (h : Pass.Run undisturbed (App.pass s key).run w t w' r)
    (ha : w.apps.get? key = some a) (he : w.executors.get? ⟨key.ns, a.spec.executor⟩ = some e)
    (hc : e.spec.createDeployment = false) :
    (w.SparesOthers w' key a ↔ (∀ d ∈ w.deployments.get? key, d.RealizedFor a) ∨
      ∀ x, .acted x (.deleteDeployment key.name key.ns) ∉ t) ∧
    ((∃ v, r = some (.ok v)) → a.metadata.isDeleting = false →
      ∃ x, .acted x (.deleteDeployment key.name key.ns) ∈ t) := by
  refine ⟨?_, fun ⟨v, hv⟩ => external_pass_deletes hk (hv ▸ h) ha he hc⟩
  rcases external_pass hk h ha he hc with ⟨hno, hd⟩ | ⟨⟨x, hx⟩, hd⟩
  · exact iff_of_true (fun k d hkd => .inl (hd ▸ hkd)) (.inr hno)
  · constructor
    · intro hspares
      refine .inl fun d hdk => ?_
      rcases hspares key d hdk with hleft | ⟨-, hown⟩
      · rw [hd, Dict.get?_erase_self] at hleft
        cases hleft
      · exact hown
    · rintro (hown | hno)
      · intro k d hkd
        by_cases hkk : k = key
        · subst hkk
          exact .inr ⟨rfl, hown d hkd⟩
        · exact .inl (by rw [hd, Dict.get?_erase_of_ne _ hkk, hkd])
      · exact (hno x hx).elim

end App

namespace Sample

def external : Executor := { executor .empty with spec := ⟨false, none⟩ }

def foreign : Deployment := ⟨metadata key.name, none, none⟩

def occupied : Cluster := .ofEdits [.putApp (app (storeAt "a")), .putExecutor external, .putDeployment foreign]

end Sample

namespace App

/-- A pass that ends well and takes away what somebody else made. -/
theorem foreign_not_spared : ∃ t w' v,
    Pass.Run undisturbed (App.pass Sample.settings Sample.key).run Sample.occupied t w' (some (.ok v)) ∧
    Sample.occupied.deployments.get? Sample.key = some Sample.foreign ∧
    ¬ Sample.foreign.RealizedFor (Sample.app (Sample.storeAt "a")) ∧
    ¬ Sample.occupied.SparesOthers w' Sample.key (Sample.app (Sample.storeAt "a")) := by
  obtain ⟨t, -, h⟩ := Sample.pass_undisturbed Sample.occupied
  obtain ⟨v, hv⟩ := Sample.eq_of_succeeds (r := (Sample.pass none [] Sample.occupied).2) (by decide +kernel)
  rw [hv] at h
  have hd : Sample.occupied.deployments.get? Sample.key = some Sample.foreign := Dict.get?_insert_self ..
  have hforeign : ¬ Sample.foreign.RealizedFor (Sample.app (Sample.storeAt "a")) := fun ⟨_, ho, _⟩ => by cases ho
  obtain ⟨hiff, hdeletes⟩ := pass_spares_iff (a := Sample.app (Sample.storeAt "a")) (e := Sample.external)
    (Cluster.keyed_ofEdits _) h (Dict.get?_insert_self ..) (Dict.get?_insert_self ..) rfl
  obtain ⟨x, hx⟩ := hdeletes ⟨v, rfl⟩ rfl
  refine ⟨t, _, v, h, hd, hforeign, fun hspares => ?_⟩
  rcases hiff.1 hspares with hown | hno
  · exact hforeign (hown _ hd)
  · exact hno x hx

end App

end SpinFleet
