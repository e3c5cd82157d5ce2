import SpinFleet.Proofs.AppPlan
/-!
# Agreement — what a pass plans depends on little

A plan for the children of an app follows from what the app declares and from the objects that it refers to.  So two
passes that nobody disturbs plan the same as long as these are the same, and this they are even if a first pass lies
between them: it may have created `Secret`s or deleted some, but it has changed none (`Cluster.Agree`).  Of two plans
one is then a first part of the other (`App.ConvergePlan.part`).
-/
namespace SpinFleet

open Cluster (Edited Stops)

/-- Two clusters that agree in what plans depend on: no `Secret` of the one is another one in the other. -/
structure Cluster.Agree (w x : Cluster) : Prop where
  executors : x.executors = w.executors
  configMaps : x.configMaps = w.configMaps
  secrets : ∀ k s s', w.secrets.get? k = some s → x.secrets.get? k = some s' → s = s'

namespace Cluster

variable {w x y : Cluster}

theorem Agree.refl (w : Cluster) : w.Agree w :=
  ⟨rfl, rfl, fun _ _ _ h h' => Option.some.inj (h.symm.trans h')⟩

theorem Agree.congr {w' x' : Cluster} (h : w.Agree x) (hw : SameBut (some .app) w w') (hx : SameBut (some .app) x x') :
    w'.Agree x' := by
  refine ⟨?_, ?_, ?_⟩
  · rw [hw.executors nofun, hx.executors nofun, h.executors]
  · rw [hw.configMaps nofun, hx.configMaps nofun, h.configMaps]
  · rw [hw.secrets nofun, hx.secrets nofun]
    exact h.secrets

end Cluster

/-- **An undisturbed run sees the apps that were there**, but for what was observed of them. -/
theorem Pass.Run.declares {α : Type} {p : Pass α} {w w' x : Cluster} {t : List Move} {r : Option α} {c : Call}
    {key : ObjectKey} {b : App} (h : Pass.Run undisturbed p w t w' r) (hx : .acted x c ∈ t)
    (hb : x.apps.get? key = some b) : ∃ a, w.apps.get? key = some a ∧ a.Declares b := by
  have looked {refs acc w t w' r} (h : Gathers undisturbed refs acc w t w' r) (hx : .acted x c ∈ t) : x = w := by
    induction h with
    | cut | done => cases hx
    | found _ _ _ ih =>
      rcases List.mem_cons.1 hx with hx | hx
      · cases hx
        rfl
      · exact ih hx
    | missing =>
      cases List.mem_singleton.1 hx
      rfl
    | failed => cases List.mem_singleton.1 hx
    | edit he => exact he.elim
  induction h with
  | cut | done => cases hx
  | act _ ih =>
    rcases List.mem_cons.1 hx with hx | hx
    · cases hx
      exact ⟨b, hb, .refl b⟩
    · obtain ⟨a, ha, hd⟩ := ih hx
      obtain ⟨a', ha', hd'⟩ := Cluster.perform_declares ha
      exact ⟨a', ha', hd'.trans hd⟩
  | fail hf _ ih =>
    have hx := (List.mem_cons.1 hx).resolve_left nofun
    rw [hf.apps_eq] at ih
    exact ih hx
  | gather hg _ ih =>
    rcases List.mem_append.1 hx with hx | hx
    · exact ⟨b, looked hg hx ▸ hb, .refl b⟩
    · rw [hg.quiet.edited.eq_of_undisturbed] at ih
      exact ih hx
  | gatherCut hg => exact ⟨b, looked hg hx ▸ hb, .refl b⟩
  | publish _ ih | record _ ih => exact ih ((List.mem_cons.1 hx).resolve_left nofun)
  | edit he => exact he.elim

theorem Reads.unique {w x : Cluster} {t u : List Move} {refs : List Reference} {acc r r' : Resolved}
    (h : Reads undisturbed w t refs acc r) (h' : Reads undisturbed x u refs acc r') (hw : w.Agree x) : r' = r := by
  have hs : r'.secrets = r.secrets := by
    refine Dict.ext_get? fun k => ?_
    by_cases hk : .secret k ∈ refs
    · obtain ⟨y, s, hy, -, hs, hr⟩ := h.secret k hk
      obtain ⟨y', s', hy', -, hs', hr'⟩ := h'.secret k hk
      rw [hy.eq_of_undisturbed] at hs
      rw [hy'.eq_of_undisturbed] at hs'
      rw [hr, hr', hw.secrets k s s' hs hs']
    · rw [h.noSecret k hk, h'.noSecret k hk]
  have hc : r'.configMaps = r.configMaps := by
    refine Dict.ext_get? fun k => ?_
    by_cases hk : .configMap k ∈ refs
    · obtain ⟨y, c, hy, -, hc, hr⟩ := h.configMap k hk
      obtain ⟨y', c', hy', -, hc', hr'⟩ := h'.configMap k hk
      rw [hy.eq_of_undisturbed] at hc
      rw [hy'.eq_of_undisturbed, hw.configMaps] at hc'
      rw [hr, hr', ← hc, ← hc']
    · rw [h.noConfigMap k hk, h'.noConfigMap k hk]
  obtain ⟨_, _⟩ := r
  obtain ⟨_, _⟩ := r'
  cases hs
  cases hc
  rfl

theorem App.Declares.exists_eq {a b : App} (h : a.Declares b) :
    ∃ v st, b = { a with metadata := { a.metadata with resourceVersion := v }, status := st } := by
  obtain ⟨hs, hm⟩ := h
  obtain ⟨bm, bs, bst⟩ := b
  cases hs
  exact ⟨bm.resourceVersion, bst, by rw [← hm]⟩

theorem App.Declares.symm {a b : App} (h : a.Declares b) : b.Declares a := by
  obtain ⟨v, st, rfl⟩ := h.exists_eq
  exact ⟨rfl, rfl⟩

namespace App

variable {w x : Cluster} {t u : List Move} {s s' : Settings} {a b : App} {c : DeploymentConfig} {e : Executor}
  {key : ObjectKey} {executor : String} {f : Bool} {L M : List Call} {g g' : Option Secret}

/-- **The configuration follows from what is declared and what it refers to.** -/
theorem Configures.unique (h : Configures undisturbed w t a g) (h' : Configures undisturbed x u b g')
    (hd : a.Declares b) (hw : w.Agree x) : g' = g := by
  obtain ⟨v, st, rfl⟩ := hd.exists_eq
  cases h with
  | verbatim h =>
    cases h' with
    | verbatim => rfl
    | generated h' =>
      rw [show a.spec.runtimeConfig.verbatimSecret = none from h'] at h
      cases h
  | generated h hr hb hx =>
    cases h' with
    | verbatim h' =>
      rw [show a.spec.runtimeConfig.verbatimSecret = none from h] at h'
      cases h'
    | generated h' hr' hb' hx' =>
      cases hr.unique hr' hw
      cases hb.symm.trans hb'
      cases hx.symm.trans hx'
      rfl

theorem Declares.certificates_eq (hd : a.Declares b) (hs : s'.caBundle = s.caBundle) (c : DeploymentConfig) :
    b.certificates s' c = a.certificates s c := by
  obtain ⟨v, st, rfl⟩ := hd.exists_eq
  unfold certificates
  rw [hs]
  rfl

theorem Declares.deployment_eq (hd : a.Declares b) (c : DeploymentConfig) (n n' : Option String) :
    b.deployment c n n' = a.deployment c n n' := by
  obtain ⟨v, st, rfl⟩ := hd.exists_eq
  rfl

theorem Declares.service_eq (hd : a.Declares b) : b.service = a.service := by
  obtain ⟨v, st, rfl⟩ := hd.exists_eq
  rfl

structure Part (whole : Bool) (M L : List Call) : Prop where
  part : M <+: L
  eq : whole = true → M = L

theorem RealizePlan.part (h : RealizePlan undisturbed w t s a c true L) (h' : RealizePlan undisturbed x u s' b c f M)
    (hd : a.Declares b) (hs : s'.caBundle = s.caBundle) (hw : w.Agree x) : Part f M L := by
  cases h with
  | @whole g ca n d hg hca hdep =>
    have hca' := hd.certificates_eq hs c
    cases h' with
    | nothing => exact ⟨List.nil_prefix, nofun⟩
    | config hg' =>
      cases hg.unique hg' hd hw
      exact ⟨by rw [List.append_assoc]; exact List.prefix_append .., nofun⟩
    | certificates hg' h =>
      cases hg.unique hg' hd hw
      cases hca.symm.trans (hca'.symm.trans h)
      exact ⟨List.prefix_append .., nofun⟩
    | whole hg' h h' =>
      cases hg.unique hg' hd hw
      cases hca.symm.trans (hca'.symm.trans h)
      cases hdep.symm.trans ((hd.deployment_eq ..).symm.trans h')
      obtain ⟨v, st, rfl⟩ := hd.exists_eq
      exact ⟨List.prefix_rfl, fun _ => rfl⟩

theorem ChildrenPlan.part (h : ChildrenPlan undisturbed w t s a key e true L)
    (h' : ChildrenPlan undisturbed x u s' b key e f M) (hd : a.Declares b) (hs : s'.caBundle = s.caBundle)
    (hw : w.Agree x) : Part f M L := by
  cases h with
  | external he =>
    cases h' with
    | external => exact ⟨List.prefix_rfl, fun _ => rfl⟩
    | managed he' => cases he.symm.trans he'
  | managed he h =>
    cases h' with
    | external he' => cases he.symm.trans he'
    | managed _ h' => exact h.part h' hd hs hw

/-- **A plan is a first part of the whole one**, whichever of the two clusters it was made for. -/
theorem ConvergePlan.part (h : ConvergePlan undisturbed w t s a key e true L)
    (h' : ConvergePlan undisturbed x u s' b key e f M) (hd : a.Declares b) (hs : s'.caBundle = s.caBundle)
    (hw : w.Agree x) : Part f M L := by
  have hdel := hd.isDeleting
  cases h with
  | deleting h =>
    rw [h] at hdel
    cases h' with
    | deleting => exact ⟨List.prefix_rfl, fun _ => rfl⟩
    | children h' => cases h'.symm.trans hdel
    | whole h' => cases h'.symm.trans hdel
  | whole h hL hv =>
    rw [h] at hdel
    cases h' with
    | deleting h' => cases h'.symm.trans hdel
    | children _ hM => exact ⟨(hL.part hM hd hs hw).part.trans (List.prefix_append ..), nofun⟩
    | whole _ hM hv' =>
      cases (hL.part hM hd hs hw).eq rfl
      cases hv.symm.trans (hd.service_eq.symm.trans hv')
      exact ⟨List.prefix_rfl, fun _ => rfl⟩

end App

end SpinFleet
