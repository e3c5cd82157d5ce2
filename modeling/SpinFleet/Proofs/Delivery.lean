import SpinFleet.Proofs.Agreement
import SpinFleet.Proofs.Naming
import SpinFleet.Proofs.Undisturbed
/-!
# Delivery — whether pods get the configuration that was rendered for them

A `Secret` with a rendered configuration is created under a name that the checksum of its text gives, and is never
overwritten.  So what pods mount is what was rendered for them unless a `Secret` of this name stands there already, from
a different text with the same checksum (`App.delivers_iff`).  The checksum is short and linear in the bytes, and such
texts are easily found: `App.collided_text_lost` are two that differ in one value of three letters.

All of this is about histories: passes over one app, cut or not, and edits of others between them and during them.  Of
these it is only asked that they leave the generated `Secret`s of the app and its `Deployment` alone (`Edit.Spares`).
-/
namespace SpinFleet

open Cluster (Edited Stops)

/-- An edit that leaves the generated `Secret`s of an app and its `Deployment` as they are. -/
def Edit.Spares (key : ObjectKey) (x : Edit) : Prop := ∀ w : Cluster,
  (∀ n, isGeneratedName key.name n = true → (w.edit x).secrets.get? ⟨key.ns, n⟩ = w.secrets.get? ⟨key.ns, n⟩) ∧
    (w.edit x).deployments.get? key = w.deployments.get? key

/-- What passes over an app and edits of others make of a cluster, with everything that was seen on the way. -/
inductive History (key : ObjectKey) (w₀ : Cluster) : List Move → Cluster → Prop
  | start : History key w₀ [] w₀
  | edit {t w x} (h : History key w₀ t w) (hx : x.Spares key) : History key w₀ (t ++ [.edited x]) (w.edit x)
  | pass {t w s u w' r} (h : History key w₀ t w)
      (hr : Pass.Run (Edit.Spares key) (App.pass s key).run w u w' r) : History key w₀ (t ++ u) w'

def Secret.Holds (s : Secret) (text : String) : Prop := s.bytes? runtimeConfigKey = some (Utf8.encode text)

namespace Cluster

variable {A : Edit → Prop} {key k : ObjectKey} {n : String} {w w' : Cluster} {L : List Call}
  {made : List (Cluster × Call)}

theorem Edited.secret (h : Edited (Edit.Spares key) w w') (hn : isGeneratedName key.name n = true) :
    w'.secrets.get? ⟨key.ns, n⟩ = w.secrets.get? ⟨key.ns, n⟩ := by
  induction h with
  | refl => rfl
  | step hx _ ih => exact ih.trans ((hx _).1 n hn)

theorem of_deleteSecrets {ns : String} {names : List String} {s : Secret}
    (hs : (w.deleteSecrets ns names).secrets.get? k = some s) : w.secrets.get? k = some s := by
  rw [deleteSecrets_get?] at hs
  split at hs
  · cases hs
  · exact hs

theorem Fails.secret_before {c : Call} {s : Secret} (h : w.Fails c w') (hs : w'.secrets.get? k = some s) :
    w.secrets.get? k = some s := by
  cases h with
  | idle => exact hs
  | pruning => exact of_deleteSecrets hs

theorem perform_secret_before {c : Call} {s : Secret} (hs : (w.perform c).cluster.secrets.get? k = some s) :
    w.secrets.get? k = some s ∨ c = .createSecret s ∧ s.metadata.key = k := by
  by_cases ht : c.target = some .secret
  · cases c with
    | createSecret g =>
      by_cases hk : k = g.metadata.key
      · subst hk
        rw [createSecret_get?_self] at hs
        cases hw : w.secrets.get? g.metadata.key with
        | some s' =>
          rw [hw] at hs
          exact .inl hs
        | none =>
          rw [hw] at hs
          cases hs
          exact .inr ⟨rfl, rfl⟩
      · exact .inl ((createSecret_get?_of_ne w hk).symm.trans hs)
    | pruneSecrets app ns keep => exact .inl (of_deleteSecrets hs)
    | _ => cases ht
  · exact .inl ((w.perform_sameBut c).secrets ht ▸ hs)

/-- **A generated `Secret` that stands was there before, or was created.** -/
theorem Stops.source {s : Secret} (hs : Stops (Edit.Spares key) w L made w') (hn : isGeneratedName key.name n = true)
    (h : w'.secrets.get? ⟨key.ns, n⟩ = some s) :
    w.secrets.get? ⟨key.ns, n⟩ = some s ∨
      ∃ x, (x, .createSecret s) ∈ made ∧ s.metadata.key = ⟨key.ns, n⟩ := by
  induction hs with
  | here he =>
    rw [he.secret hn] at h
    exact .inl h
  | fail he hf he' =>
    rw [he'.secret hn] at h
    exact .inl (he.secret hn ▸ hf.secret_before h)
  | @act w x c L made w' he _ ih =>
    rcases ih h with h | ⟨y, hy, hkey⟩
    · rcases perform_secret_before h with h | ⟨rfl, hkey⟩
      · rw [he.secret hn] at h
        exact .inl h
      · exact .inr ⟨x, List.mem_cons_self, hkey⟩
    · exact .inr ⟨y, List.mem_cons_of_mem _ hy, hkey⟩

end Cluster

namespace App

variable {A : Edit → Prop} {key : ObjectKey} {w w₀ w' : Cluster} {t u : List Move} {s : Settings} {a : App}
  {c : DeploymentConfig} {e : Executor} {b : Bool} {L : List Call} {x : Secret} {n : String}

/-! ## What passes create -/

theorem RealizePlan.creates (h : RealizePlan A w t s a c b L) (hx : .createSecret x ∈ L) :
    (∃ text, a.configSecret (Document.secretName a.name text) text = .ok x) ∨
      x.metadata.key = ⟨a.ns, defaultCaSecret⟩ := by
  have config {g} (hg : Configures A w t a g) (hx : .createSecret x ∈ App.creates g) :
      ∃ text, a.configSecret (Document.secretName a.name text) text = .ok x := by
    obtain ⟨y, rfl, hy⟩ := mem_creates.1 hx
    cases hy
    cases hg with
    | generated _ _ _ hx => exact ⟨_, hx⟩
  have ca {o n} (hca : a.certificates s c = some (o, n)) (hx : .createSecret x ∈ App.creates o) :
      x.metadata.key = ⟨a.ns, defaultCaSecret⟩ := by
    obtain ⟨y, rfl, hy⟩ := mem_creates.1 hx
    cases hy
    exact certificates_key hca
  cases h with
  | nothing => cases hx
  | config hg => exact .inl (config hg hx)
  | certificates hg hca => exact (List.mem_append.1 hx).imp (config hg) (ca hca)
  | whole hg hca =>
    rcases List.mem_append.1 hx with hx | hx
    · exact (List.mem_append.1 hx).imp (config hg) (ca hca)
    · simp at hx

theorem ChildrenPlan.creates (h : ChildrenPlan A w t s a key e b L) (hx : .createSecret x ∈ L) :
    (∃ text, a.configSecret (Document.secretName a.name text) text = .ok x) ∨
      x.metadata.key = ⟨a.ns, defaultCaSecret⟩ := by
  cases h with
  | external => simp at hx
  | managed _ h => exact h.creates hx

theorem ConvergePlan.creates (h : ConvergePlan A w t s a key e b L) (hx : .createSecret x ∈ L) :
    (∃ text, a.configSecret (Document.secretName a.name text) text = .ok x) ∨
      x.metadata.key = ⟨a.ns, defaultCaSecret⟩ := by
  cases h with
  | deleting => cases hx
  | children _ h => exact h.creates hx
  | whole _ h => exact h.creates ((List.mem_append.1 hx).resolve_right (by simp))

/-- **What a pass creates under a generated name** holds a text that this is the name of. -/
theorem PassPlan.creates (h : PassPlan A w t s key b L) (hk : w.Keyed) (hx : .createSecret x ∈ L)
    (hkey : x.metadata.key = ⟨key.ns, n⟩) (hn : isGeneratedName key.name n = true) :
    ∃ text, n = Document.secretName key.name text ∧ x.Holds text := by
  have named {a : App} (ha : a.metadata.key = key)
      (hmade : (∃ text, a.configSecret (Document.secretName a.name text) text = .ok x) ∨
        x.metadata.key = ⟨a.ns, defaultCaSecret⟩) : ∃ text, n = Document.secretName key.name text ∧ x.Holds text := by
    have hname : a.name = key.name := congrArg ObjectKey.name ha
    rcases hmade with ⟨text, hx⟩ | hx
    · obtain ⟨-, hxk, -, hbytes⟩ := configSecret_ok hx
      rw [hname] at hxk
      exact ⟨text, congrArg ObjectKey.name (hkey.symm.trans hxk), hbytes⟩
    · have hn' : n = defaultCaSecret := congrArg ObjectKey.name (hkey.symm.trans hx)
      rw [hn', not_isGeneratedName_defaultCa] at hn
      cases hn
  cases h with
  | nothing | absent => cases hx
  | observed _ _ _ _ hP => cases hP.target _ hx
  | vanished _ _ _ _ hP => cases hP.target _ hx
  | external ha _ _ _ hL => exact named ((hk.edited ha.edited).apps _ _ ha.found) (hL.creates hx)
  | managed ha hy _ _ hP hz _ hf hL =>
    have hk := ((hz.keyed ((hk.edited ha.edited).edited hy)).edited hf.edited).apps _ _ hf.found
    exact named hk (hL.creates ((List.mem_append.1 hx).resolve_left fun h => by cases hP.target _ h))

/-- **Every generated `Secret` was created by a pass, and holds a text that it is named after.** -/
theorem history_rendered (hk : w₀.Keyed)
    (hnone : ∀ n, isGeneratedName key.name n = true → w₀.secrets.get? ⟨key.ns, n⟩ = none)
    (h : History key w₀ t w) : w.Keyed ∧ ∀ n x, isGeneratedName key.name n = true →
      w.secrets.get? ⟨key.ns, n⟩ = some x →
        ∃ y text, .acted y (.createSecret x) ∈ t ∧ n = Document.secretName key.name text ∧ x.Holds text := by
  induction h with
  | start =>
    refine ⟨hk, fun n x hn hx => ?_⟩
    rw [hnone n hn] at hx
    cases hx
  | @edit t w z _ hz ih =>
    refine ⟨ih.1.edit z, fun n x hn hx => ?_⟩
    rw [(hz w).1 n hn] at hx
    obtain ⟨y, text, hm, h⟩ := ih.2 n x hn hx
    exact ⟨y, text, List.mem_append_left _ hm, h⟩
  | @pass t w s u w' r _ hr ih =>
    refine ⟨hr.keyed ih.1, fun n x hn hx => ?_⟩
    obtain ⟨b, L, hplan, o, -⟩ := pass_run hr
    rcases o.stops.source hn hx with hx | ⟨y, hy, hkey⟩
    · obtain ⟨y, text, hm, h⟩ := ih.2 n x hn hx
      exact ⟨y, text, List.mem_append_left _ hm, h⟩
    · obtain ⟨text, h⟩ := hplan.creates ih.1 (o.stops.made_prefix.subset (List.mem_map_of_mem hy)) hkey hn
      exact ⟨y, text, List.mem_append_right _ ((mem_writes rfl).1 hy), h⟩

/-! ## What a whole pass leaves -/

variable {d : Deployment} {call : Call} {made : List (Cluster × Call)}

theorem Applying.stores (p : Applying (Edit.Spares key) w u s key d) (hk : w.Keyed)
    (hs : Stops (Edit.Spares key) w p.calls made w') (hm : made.map Prod.snd = p.calls) :
    ∃ st, w'.deployments.get? key = some { d with status := st } := by
  have hkey : d.metadata.key = key := (deployment_ok p.deployment_eq).1.trans (p.key_eq hk)
  obtain ⟨x, m₁, m₂, -, -, hm₂, -, h₂⟩ := hs.split_whole hm
  cases h₂ with
  | here => cases hm₂
  | fail => cases hm₂
  | @act _ y _ _ _ _ _ h₂ =>
    refine ⟨_, h₂.keeps (J := fun z => z.deployments.get? key =
      some { d with status := y.deployments.get? key >>= Deployment.status }) ?_
      (fun z x hx hz => ((hx z).2).trans hz) fun c hc z z' hl hz => ?_⟩
    · rw [← hkey, Cluster.applyDeployment_get?_self]
    · have ht : c.target ≠ some .deployment := by
        rcases List.mem_cons.1 hc with rfl | hc
        · exact nofun
        · rw [p.rest_target hc]
          exact nofun
      rw [hl.sameBut.deployments ht]
      exact hz

theorem Applying.keeps_standing (p : Applying A w u s key d) (hk : w.Keyed) (hx : p.config = some x)
    (hkey : x.metadata.key = ⟨key.ns, n⟩) (hc : call ∈ p.calls) {y y' : Cluster} {g : Secret} (hl : y.Leaves call y')
    (hy : y.secrets.get? ⟨key.ns, n⟩ = some g) : y'.secrets.get? ⟨key.ns, n⟩ = some g := by
  have created {o : Option Secret} (h : call ∈ App.creates o) : y'.secrets.get? ⟨key.ns, n⟩ = some g := by
    obtain ⟨g', -, rfl⟩ := mem_creates.1 h
    rcases hl with rfl | hf
    · exact Cluster.createSecret_keeps hy
    · cases hf
      exact hy
  rcases p.mem_calls.1 hc with h | h | h | rfl | rfl | h
  · rw [hl.sameBut.secrets (by rw [p.statusPlan.target call h]; exact nofun)]
    exact hy
  · exact created h
  · exact created h
  · rw [hl.sameBut.secrets nofun]
    exact hy
  · -- the pruning is told to keep just this one
    obtain ⟨names, hnames, rfl⟩ := hl.prune
    obtain ⟨text, hk', hname⟩ := p.configures_key hx
    have hns : p.app.ns = key.ns := congrArg ObjectKey.ns (p.key_eq hk)
    have hn : Document.secretName p.app.name text = n := congrArg ObjectKey.name (hk'.symm.trans hkey)
    rw [hname, hns, hn] at hnames
    rw [hns, Cluster.prune_keeps hnames]
    exact hy
  · rw [hl.sameBut.secrets (by rw [p.rest_target h]; exact nofun)]
    exact hy

theorem Applying.provides (p : Applying (Edit.Spares key) w u s key d) (hk : w.Keyed)
    (hs : Stops (Edit.Spares key) w p.calls made w') (hm : made.map Prod.snd = p.calls) (hx : p.config = some x)
    (hkey : x.metadata.key = ⟨key.ns, n⟩) (hn : isGeneratedName key.name n = true) :
    w'.secrets.get? ⟨key.ns, n⟩ = some ((w.secrets.get? ⟨key.ns, n⟩).getD x) := by
  have hcalls : p.calls = p.status ++ .createSecret x :: (creates p.ca ++
      .applyDeployment d :: .pruneSecrets p.app.name p.app.ns (generatedName p.config) :: p.rest) := by
    simp [calls, hx, App.creates]
  have keeps : ∀ call ∈ p.calls, ∀ (y y' : Cluster) g, y.Leaves call y' → y.secrets.get? ⟨key.ns, n⟩ = some g →
      y'.secrets.get? ⟨key.ns, n⟩ = some g := fun _ hc _ _ _ hl hy => p.keeps_standing hk hx hkey hc hl hy
  rw [hcalls] at hs hm keeps
  obtain ⟨y, m₁, m₂, -, -, hm₂, h₁, h₂⟩ := hs.split_whole hm
  have before : y.secrets.get? ⟨key.ns, n⟩ = w.secrets.get? ⟨key.ns, n⟩ := by
    refine h₁.keeps (J := fun z => z.secrets.get? ⟨key.ns, n⟩ = w.secrets.get? ⟨key.ns, n⟩) rfl
      (fun z x hx hz => ((hx z).1 n hn).trans hz) fun c hc z z' hl hz => ?_
    rw [hl.sameBut.secrets (by rw [p.statusPlan.target c hc]; decide)]
    exact hz
  cases h₂ with
  | here => cases hm₂
  | fail => cases hm₂
  | @act _ z _ _ _ _ he h₂ =>
    refine h₂.keeps (J := fun z => z.secrets.get? ⟨key.ns, n⟩ = some ((w.secrets.get? ⟨key.ns, n⟩).getD x)) ?_
      (fun z x hx hz => ((hx z).1 n hn).trans hz) fun c hc z z' hl hz => ?_
    · rw [← hkey, Cluster.createSecret_get?_self, hkey, he.secret hn, before]
    · exact keeps c (List.mem_append_right _ (List.mem_cons_of_mem _ hc)) z z' _ hl hz

/-- The name of a text is taken: a `Secret` stands there that an earlier pass has created for a different text. -/
def Taken (key : ObjectKey) (t : List Move) (w : Cluster) (text : String) : Prop :=
  ∃ y x text', w.secrets.get? ⟨key.ns, Document.secretName key.name text⟩ = some x ∧ .acted y (.createSecret x) ∈ t ∧
    x.Holds text' ∧ text' ≠ text ∧ Checksum.digits text' = Checksum.digits text

/-- What stands under the name of a text holds it unless the name was taken. -/
theorem standing_holds_iff {text : String}
    (hrendered : ∀ n x, isGeneratedName key.name n = true → w.secrets.get? ⟨key.ns, n⟩ = some x →
      ∃ y text, .acted y (.createSecret x) ∈ t ∧ n = Document.secretName key.name text ∧ x.Holds text)
    (hx : w.secrets.get? ⟨key.ns, Document.secretName key.name text⟩ = some x) :
    x.Holds text ↔ ¬ Taken key t w text := by
  constructor
  · rintro hholds ⟨y, x', text', hx', -, hholds', hne, -⟩
    obtain rfl : x = x' := Option.some.inj (hx.symm.trans hx')
    exact hne (Utf8.encode_inj.1 (Option.some.inj (hholds'.symm.trans hholds)))
  · intro hfree
    obtain ⟨y, text', hm, hname, hholds⟩ := hrendered _ x (isGeneratedName_secretName ..) hx
    by_cases ht : text' = text
    · exact ht ▸ hholds
    · exact (hfree ⟨y, x, text', hx, hm, hholds, ht, (Document.secretName_inj.1 hname).symm⟩).elim

/-- **What a pass that applies a `Deployment` delivers.**  Pods are told to mount a `Secret` that exists, named after
the text which the app and the objects that the pass has read give.  It holds this text unless its name was taken. -/
theorem delivers_iff {v : Action} {z : Cluster} (hk : w₀.Keyed)
    (hnone : ∀ n, isGeneratedName key.name n = true → w₀.secrets.get? ⟨key.ns, n⟩ = none)
    (h : History key w₀ t w) (hr : Pass.Run (Edit.Spares key) (App.pass s key).run w u w' (some (.ok v)))
    (hd : .acted z (.applyDeployment d) ∈ u) :
    ∃ y a, .acted y (.getApp key.name key.ns) ∈ u ∧ y.apps.get? key = some a ∧
      (∃ c g ca, a.deployment c g ca = .ok d) ∧
      (a.spec.runtimeConfig.verbatimSecret = none → ∃ resolved doc x,
        Reads (Edit.Spares key) y u (References.ofApp a).toList .empty resolved ∧
        Document.build a resolved = .ok doc ∧
        (w'.deployments.get? key >>= Deployment.configSecret?) = some (Document.secretName key.name doc.toToml) ∧
        w'.secrets.get? ⟨key.ns, Document.secretName key.name doc.toToml⟩ = some x ∧
        (x.Holds doc.toToml ↔ ¬ Taken key t w doc.toToml)) := by
  obtain ⟨hk, hrendered⟩ := history_rendered hk hnone h
  obtain ⟨b, L, hplan, o, -⟩ := pass_run hr
  have hd := o.stops.planned rfl hd
  obtain ⟨p, rfl⟩ := hplan.applying hd
  refine ⟨p.fresh, p.app, p.sees_app.asked, p.sees_app.found, ⟨_, _, _, p.deployment_eq⟩, fun hv => ?_⟩
  have hm := o.whole v rfl
  obtain ⟨st, hst⟩ := p.stores hk o.stops hm
  have hkey := p.key_eq hk
  have hname : p.app.name = key.name := congrArg ObjectKey.name hkey
  have hg := p.configures
  have hdep := p.deployment_eq
  cases hc : p.config with
  | none =>
    rw [hc] at hg
    cases hg with
    | verbatim h =>
      rw [hv] at h
      cases h
  | some x =>
    rw [hc] at hg hdep
    cases hg with
    | @generated resolved doc _ _ hreads hdoc hx =>
      have hx' := configSecret_ok hx
      have hxk : x.metadata.key = ⟨key.ns, Document.secretName key.name doc.toToml⟩ := by
        rw [hx'.2.1, hname, show p.app.ns = key.ns from congrArg ObjectKey.ns hkey]
      have hn := isGeneratedName_secretName key.name doc.toToml
      have hgen : generatedName (some x) = some (Document.secretName key.name doc.toToml) := by
        simp [generatedName, ObjectMeta.anyName, hx'.1, hname]
      rw [hgen] at hdep
      have hmount : d.configSecret? = some (Document.secretName key.name doc.toToml) := deployment_generated hdep
      refine ⟨resolved, doc, _, hreads, hdoc, ?_, p.provides hk o.stops hm hc hxk hn, ?_⟩
      · rw [hst]
        exact hmount
      cases hw : w.secrets.get? ⟨key.ns, Document.secretName key.name doc.toToml⟩ with
      | none =>
        refine ⟨fun _ => ?_, fun _ => hx'.2.2.2⟩
        rintro ⟨_, _, _, hy, -⟩
        cases hw.symm.trans hy
      | some y => exact standing_holds_iff hrendered hw

/-! ## Two texts with the same checksum -/

theorem build_of_declares {a : App} (h : (Sample.app (Sample.storeAt "dad")).Declares a) (r : Resolved) :
    Document.build a r = Document.build (Sample.app (Sample.storeAt "dad")) .empty := by
  obtain ⟨v, st, rfl⟩ := h.exists_eq
  rfl

/-- An app was changed after a pass, and a second pass has come to its end: the `Secret` that the pods mount now is
named after the new text, and holds the old one. -/
theorem collided_text_lost : ∃ doc x,
    Document.build (Sample.app (Sample.storeAt "dad")) .empty = .ok doc ∧
    ((Sample.pass none [] (Sample.changed (Sample.storeAt "ccc") (Sample.storeAt "dad"))).1.cluster.deployments.get?
      Sample.key >>= Deployment.configSecret?) = some (Document.secretName "hello" doc.toToml) ∧
    (Sample.pass none [] (Sample.changed (Sample.storeAt "ccc") (Sample.storeAt "dad"))).1.cluster.secrets.get?
      ⟨"default", Document.secretName "hello" doc.toToml⟩ = some x ∧
    ¬ x.Holds doc.toToml := by
  have hk : (Sample.cluster (Sample.storeAt "ccc")).Keyed := Cluster.keyed_ofEdits _
  have hnone : ∀ n, isGeneratedName Sample.key.name n = true →
      (Sample.cluster (Sample.storeAt "ccc")).secrets.get? ⟨Sample.key.ns, n⟩ = none := fun _ _ => rfl
  obtain ⟨t, -, h₁⟩ := Sample.pass_undisturbed (Sample.cluster (Sample.storeAt "ccc"))
  obtain ⟨u, -, h₂⟩ := Sample.pass_undisturbed (Sample.changed (Sample.storeAt "ccc") (Sample.storeAt "dad"))
  obtain ⟨v, hv⟩ := Sample.eq_of_succeeds
    (r := (Sample.pass none [] (Sample.changed (Sample.storeAt "ccc") (Sample.storeAt "dad"))).2) (by decide +kernel)
  rw [hv] at h₂
  have history : History Sample.key (Sample.cluster (Sample.storeAt "ccc"))
      ([] ++ t ++ [.edited (.putApp (Sample.app (Sample.storeAt "dad")))])
      (Sample.changed (Sample.storeAt "ccc") (Sample.storeAt "dad")) :=
    .edit (.pass .start (h₁.mono fun _ h => h.elim)) fun _ => ⟨fun _ _ => rfl, rfl⟩
  have happ := Sample.changed_app (Sample.storeAt "ccc") (Sample.storeAt "dad")
  obtain ⟨e, he, hc⟩ : ∃ e ∈ (Sample.changed (Sample.storeAt "ccc") (Sample.storeAt "dad")).executors.get?
      ⟨"default", "shim"⟩, e.spec.createDeployment = true := by decide +kernel
  obtain ⟨d, z, -, -, hd, -⟩ := pass_applies (Sample.keyed_changed _ _) h₂ happ rfl he hc
  obtain ⟨y, a, hy, ha, -, hdelivers⟩ :=
    delivers_iff hk hnone history (h₂.mono fun _ h => h.elim) hd
  -- the app that the pass has seen is the changed one
  obtain ⟨a', ha', hdecl⟩ := h₂.declares hy ha
  cases happ.symm.trans ha'
  obtain ⟨r, doc, x, -, hdoc, hmount, hx, -⟩ := hdelivers (by rw [hdecl.spec]; rfl)
  rw [build_of_declares hdecl] at hdoc
  refine ⟨doc, x, hdoc, hmount, hx, fun hholds => ?_⟩
  have hlost : ∀ text ∈ (Document.build (Sample.app (Sample.storeAt "dad")) .empty).toOption.map Document.toToml,
      ∀ x ∈ (Sample.pass none [] (Sample.changed (Sample.storeAt "ccc") (Sample.storeAt "dad"))).1.cluster.secrets.get?
        ⟨"default", Document.secretName "hello" text⟩, x.bytes? runtimeConfigKey ≠ some (Utf8.encode text) := by
    decide +kernel
  exact hlost doc.toToml (by rw [hdoc]; rfl) x hx hholds

end App

end SpinFleet
