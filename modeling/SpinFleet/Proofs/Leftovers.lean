import SpinFleet.Proofs.Confinement
import SpinFleet.Proofs.Delivery
/-!
# Leftovers — which `Secret`s of an app are left after a pass

A pass that fails or is cut may leave `Secret`s behind that nothing mounts.  They do not add up: whoever made them, the
next pass that comes to its end deletes them.  For this, pruning has to know every `Secret` that any pass has written,
and it does as long as nobody else labels `Secret`s with the name of the app (`Past.recognizable`).

So of the labelled `Secret`s none is left but the one that the `Deployment` mounts (`App.leftovers`).  That one is left
as well, unless its name was taken: a `Secret` that stands there already is mounted as it is, labelled or not
(`App.borrowed_secret_mounted`).
-/
namespace SpinFleet

open Cluster (Edited Stops)

/-- An edit that puts no `Secret` with the label of an app into the app's namespace. -/
def Edit.Unlabelled (key : ObjectKey) (x : Edit) : Prop :=
  ∀ g, x = .putSecret g → g.metadata.key.ns = key.ns → g.isLabelled key.name = false

/-- An edit that leaves the `Secret` under a key as it is. -/
def Edit.SparesSecret (k : ObjectKey) (x : Edit) : Prop :=
  ∀ w : Cluster, (w.edit x).secrets.get? k = w.secrets.get? k

/-- What passes over an app, each with settings of its own, and edits of others make of a cluster.  A pass may fail, be
cut anywhere, and be disturbed by edits. -/
inductive Past (A : Edit → Prop) (key : ObjectKey) (w₀ : Cluster) : List Move → Cluster → Prop
  | start : Past A key w₀ [] w₀
  | edit {t w x} (h : Past A key w₀ t w) (hx : A x) : Past A key w₀ (t ++ [.edited x]) (w.edit x)
  | pass {t w s u w' r} (h : Past A key w₀ t w) (hr : Pass.Run A (App.pass s key).run w u w' r) :
      Past A key w₀ (t ++ u) w'

/-- What passes over the app with a key create: a labelled `Secret` that holds the text it is named after, or the one
with the default certificates. -/
inductive Makes (key : ObjectKey) : Secret → Prop
  | configuration {x text} (hk : x.metadata.key = ⟨key.ns, Document.secretName key.name text⟩)
      (hl : x.isLabelled key.name = true) (ht : x.Holds text) : Makes key x
  | certificates (bundle : String) : Makes key (caSecret key.ns bundle)

def Call.MakesOnly (key : ObjectKey) (c : Call) : Prop := ∀ x, c = .createSecret x → Makes key x

namespace Cluster

variable {A : Edit → Prop} {key k : ObjectKey} {n : String} {w w' y z : Cluster} {g x : Secret} {e : Edit} {c : Call}

def Labels (w : Cluster) (key k : ObjectKey) : Prop :=
  k.ns = key.ns ∧ ∃ g ∈ w.secrets.get? k, g.isLabelled key.name = true

instance (w : Cluster) (key k : ObjectKey) : Decidable (w.Labels key k) :=
  inferInstanceAs (Decidable (_ ∧ ∃ g ∈ w.secrets.get? k, _))

/-- Pruning knows all labelled `Secret`s of an app. -/
def Recognizable (key : ObjectKey) (w : Cluster) : Prop := ∀ k, w.Labels key k → w.LooksGenerated key.name k

/-- The name of a `Secret` is free, or is taken by a labelled one. -/
def Free (key : ObjectKey) (n : String) (w : Cluster) : Prop :=
  w.secrets.get? ⟨key.ns, n⟩ = none ∨ w.Labels key ⟨key.ns, n⟩

/-! ## What edits and calls do to labelled `Secret`s -/

theorem edit_secret_before (h : (w.edit e).secrets.get? k = some g) :
    w.secrets.get? k = some g ∨ e = .putSecret g ∧ g.metadata.key = k := by
  cases e with
  | putSecret x =>
    by_cases hk : k = x.metadata.key
    · subst hk
      rw [Cluster.edit, Dict.get?_insert_self] at h
      cases h
      exact .inr ⟨rfl, rfl⟩
    · exact .inl ((Dict.get?_insert_of_ne _ _ hk).symm.trans h)
  | delete kind k' =>
    cases kind with
    | secret =>
      by_cases hk : k = k'
      · rw [hk, Cluster.edit, Dict.get?_erase_self] at h
        cases h
      · exact .inl ((Dict.get?_erase_of_ne _ hk).symm.trans h)
    | app | executor | deployment | service | configMap => exact .inl h
  | putApp | putExecutor | putDeployment | putService | putConfigMap => exact .inl h

theorem Labels.mem_labelledSecrets (h : w.Labels key k) : ∃ g, g ∈ w.labelledSecrets key.name key.ns := by
  obtain ⟨hns, g, hg, hl⟩ := h
  exact ⟨g, List.mem_filter.2 ⟨mem_within.2 ⟨k, hg, hns⟩, hl⟩⟩

theorem Leaves.secret_before (h : y.Leaves c z) (hg : z.secrets.get? k = some g) :
    y.secrets.get? k = some g ∨ c = .createSecret g ∧ g.metadata.key = k := by
  rcases h with rfl | hf
  · exact perform_secret_before hg
  · exact .inl (hf.secret_before hg)

theorem Labels.before_edit (he : e.Unlabelled key) (h : (w.edit e).Labels key k) :
    ∃ g, w.secrets.get? k = some g ∧ (w.edit e).secrets.get? k = some g ∧ g.isLabelled key.name = true := by
  obtain ⟨hns, g, hg, hl⟩ := h
  rcases edit_secret_before hg with hw | ⟨rfl, rfl⟩
  · exact ⟨g, hw, hg, hl⟩
  · rw [he g rfl hns] at hl
    cases hl

theorem Recognizable.edit (h : w.Recognizable key) (he : e.Unlabelled key) : (w.edit e).Recognizable key := by
  intro k hk
  obtain ⟨g, hw, hg, hl⟩ := hk.before_edit he
  obtain ⟨hn, g', hg', -, hb⟩ := h k ⟨hk.1, g, hw, hl⟩
  cases Option.some.inj (hw.symm.trans hg')
  exact ⟨hn, g, hg, hl, hb⟩

/-- **Pruning knows what passes create.** -/
theorem Recognizable.leaves (h : y.Recognizable key) (hc : c.MakesOnly key)
    (hl : y.Leaves c z) : z.Recognizable key := by
  rintro k ⟨hns, g, hg, hlabel⟩
  rcases hl.secret_before hg with hy | ⟨rfl, rfl⟩
  · obtain ⟨hn, g', hg', -, hb⟩ := h k ⟨hns, g, hy, hlabel⟩
    cases Option.some.inj (hy.symm.trans hg')
    exact ⟨hn, g, hg, hlabel, hb⟩
  · cases hc g rfl with
    | certificates => cases hlabel
    | @configuration _ text hk _ ht =>
      refine ⟨?_, g, hg, hlabel, Option.isSome_iff_exists.2 ⟨_, ht⟩⟩
      rw [hk]
      exact isGeneratedName_secretName ..

theorem Free.leaves (h : y.Free key n) (hn : isGeneratedName key.name n = true)
    (hc : c.MakesOnly key) (hl : y.Leaves c z) : z.Free key n := by
  have same (hz : z.secrets.get? ⟨key.ns, n⟩ = y.secrets.get? ⟨key.ns, n⟩) : z.Free key n := by
    unfold Free Labels
    rw [hz]
    exact h
  by_cases ht : c.target = some .secret
  · cases c with
    | createSecret x =>
      rcases hl.createSecret ⟨key.ns, n⟩ with hz | ⟨hk, hz⟩
      · exact same hz
      rcases h with hy | ⟨hns, g, hy, hlabel⟩
      · rw [hy] at hz
        cases hc x rfl with
        | configuration _ hlabel => exact .inr ⟨rfl, x, hz, hlabel⟩
        | certificates =>
          have hn' : n = defaultCaSecret := congrArg ObjectKey.name hk
          rw [hn', not_isGeneratedName_defaultCa] at hn
          cases hn
      · rw [show y.secrets.get? ⟨key.ns, n⟩ = some g from hy] at hz
        exact .inr ⟨hns, g, hz, hlabel⟩
    | pruneSecrets =>
      rcases hl.pruneSecrets ⟨key.ns, n⟩ with hz | ⟨-, -, -, hz⟩
      · exact same hz
      · exact .inl hz
    | _ => cases ht
  · exact same (by rw [hl.sameBut.secrets ht])

theorem Free.edit (h : w.Free key n) (he : e.SparesSecret ⟨key.ns, n⟩) : (w.edit e).Free key n := by
  unfold Free Labels
  rw [he w]
  exact h

theorem prune_labels {app ns : String} {keep : Option String} (hkey : (⟨ns, app⟩ : ObjectKey) = key) (hk : w.Keyed)
    (hw : w.Recognizable key) (h : (w.perform (.pruneSecrets app ns keep)).cluster.Labels key k) :
    keep = some k.name := by
  subst hkey
  obtain ⟨hns, g, hg, hl⟩ := h
  obtain ⟨ns', m⟩ := k
  obtain rfl : ns' = ns := hns
  have hbefore : w.secrets.get? ⟨ns', m⟩ = some g := of_deleteSecrets hg
  by_cases hkeep : keep = some m
  · exact hkeep
  · have hlost := ((prune_loses_iff hk).2 ⟨hw ⟨ns', m⟩ ⟨rfl, g, hbefore, hl⟩, hkeep⟩).2
    rw [Dict.contains_iff.2 ⟨g, hg⟩] at hlost
    cases hlost

end Cluster

variable {A B : Edit → Prop} {key : ObjectKey} {n : String} {w₀ w w' : Cluster} {t u : List Move} {s : Settings}

/-! ## What passes create -/

namespace App

theorem configSecret_labelled {a : App} {name text : String} {x : Secret} (h : a.configSecret name text = .ok x) :
    x.isLabelled a.name = true := by
  unfold Secret.isLabelled
  rw [(configSecret_ok h).2.2.1]
  simp [appLabels, Dict.ofList, Dict.insertMany]

theorem pass_makes (s : Settings) (key : ObjectKey) : (App.pass s key).Asks (Call.MakesOnly key) fun _ => True := by
  have other {c : Call} (hc : c.target ≠ some .secret) : c.MakesOnly key := by
    rintro x rfl
    exact absurd rfl hc
  refine pass_asks_of (other nofun) (fun _ => other nofun) (other nofun) (fun _ _ => other nofun) fun a e c ha hc => ?_
  obtain rfl : (⟨a.ns, a.name⟩ : ObjectKey) = key := ha
  cases hc with
  | configure h =>
    obtain ⟨-, hk, -, ht⟩ := configSecret_ok h
    intro x hx
    cases hx
    exact .configuration hk (configSecret_labelled h) ht
  | @certify bundle _ =>
    intro x hx
    cases hx
    exact .certificates bundle
  | @look ref => cases ref <;> exact other nofun
  | apply | delete | serve => exact other nofun
  | prune =>
    intro x hx
    cases hx

end App

/-! ## Before a pass -/

/-- **Pruning knows every labelled `Secret`**, whatever passes have failed or were cut. -/
theorem Past.recognizable (hk : w₀.Keyed) (hr : w₀.Recognizable key) (h : Past (Edit.Unlabelled key) key w₀ t w) :
    w.Keyed ∧ w.Recognizable key := by
  induction h with
  | start => exact ⟨hk, hr⟩
  | edit _ hx ih => exact ⟨ih.1.edit _, ih.2.edit hx⟩
  | @pass _ _ s _ _ _ _ hr ih =>
    refine ⟨hr.keyed ih.1, hr.keeps ih.2 (fun x hx _ y hy => hy.edit hx) fun c hc y z hl hy => ?_⟩
    exact hy.leaves (hr.asks ih.1 (App.pass_makes s key) c hc) hl

theorem Past.free (hk : w₀.Keyed) (hn : isGeneratedName key.name n = true) (hw : w₀.Free key n) (h : Past A key w₀ t w)
    (ht : ∀ x, .edited x ∈ t → x.SparesSecret ⟨key.ns, n⟩) : w.Keyed ∧ w.Free key n := by
  induction h with
  | start => exact ⟨hk, hw⟩
  | edit _ _ ih =>
    obtain ⟨hk, hw⟩ := ih fun x hx => ht x (List.mem_append_left _ hx)
    exact ⟨hk.edit _, hw.edit (ht _ (List.mem_append_right _ List.mem_cons_self))⟩
  | @pass _ _ s _ _ _ _ hr ih =>
    obtain ⟨hk, hw⟩ := ih fun x hx => ht x (List.mem_append_left _ hx)
    refine ⟨hr.keyed hk, hr.keeps hw (fun x _ hx y hy => hy.edit (ht x (List.mem_append_right _ hx))) ?_⟩
    intro c hc y z hl hy
    exact hy.leaves hn (hr.asks hk (App.pass_makes s key) c hc) hl

namespace App

open Attempt

variable {d : Deployment} {made : List (Cluster × Call)} {x : Secret}

/-! ## What a whole pass leaves -/

theorem Applying.makesOnly (p : Applying A w u s key d) (hk : w.Keyed) {r : Option (Except Error Action)}
    (hr : Pass.Run A (App.pass s key).run w u w' r) (hm : (writes u).map Prod.snd = p.calls) :
    ∀ c ∈ p.calls, c.MakesOnly key := by
  rintro c hc x rfl
  obtain ⟨y, hy⟩ := (acts_iff rfl).1 (hm ▸ hc)
  exact hr.asks hk (pass_makes s key) _ (SpinFleet.mem_calls.2 ⟨_, hy, rfl⟩) x rfl

/-- The app brings its own configuration, or the `Deployment` mounts a `Secret` that the pass has generated. -/
theorem Applying.mounts (p : Applying A w u s key d) (hk : w.Keyed) :
    p.app.spec.runtimeConfig.verbatimSecret.isSome = true ∧ p.config = none ∨
    p.app.spec.runtimeConfig.verbatimSecret = none ∧ ∃ x n, p.config = some x ∧ x.metadata.key = ⟨key.ns, n⟩ ∧
      x.isLabelled key.name = true ∧ isGeneratedName key.name n = true ∧ generatedName p.config = some n ∧
      d.configSecret? = some n := by
  have hg := p.configures
  have hdep := p.deployment_eq
  cases hc : p.config with
  | none =>
    rw [hc] at hg
    cases hg with
    | verbatim h => exact .inl ⟨h, rfl⟩
  | some x =>
    obtain ⟨text, hxk, hname⟩ := p.configures_key hc
    have hkey : (⟨p.app.ns, p.app.name⟩ : ObjectKey) = key := p.key_eq hk
    have hns : p.app.ns = key.ns := congrArg ObjectKey.ns hkey
    have hn : p.app.name = key.name := congrArg ObjectKey.name hkey
    rw [hname] at hdep
    rw [hns, hn] at hxk
    rw [hc] at hg hname
    rw [hn] at hdep hname
    cases hg with
    | generated hv _ _ hx =>
      exact .inr ⟨hv, x, _, rfl, hxk, hn ▸ configSecret_labelled hx, isGeneratedName_secretName .., hname,
        deployment_generated hdep⟩

theorem Applying.leaves_labels (p : Applying A w u s key d) (hA : ∀ x, A x → x.Unlabelled key) (hk : w.Keyed)
    (hw : w.Recognizable key) (hc : ∀ c ∈ p.calls, c.MakesOnly key) (hs : Stops A w p.calls made w')
    (hm : made.map Prod.snd = p.calls) {k : ObjectKey} (hl : w'.Labels key k) :
    generatedName p.config = some k.name := by
  have hcalls : p.calls = (p.status ++ (creates p.config ++ creates p.ca) ++ [.applyDeployment d]) ++
      .pruneSecrets p.app.name p.app.ns (generatedName p.config) :: p.rest := by
    simp [calls]
  have hkey : (⟨p.app.ns, p.app.name⟩ : ObjectKey) = key := p.key_eq hk
  rw [hcalls] at hs hm hc
  obtain ⟨y, m₁, m₂, -, -, hm₂, h₁, h₂⟩ := hs.split_whole hm
  have known : y.Recognizable key := h₁.keeps hw (fun _ x hx hy => hy.edit (hA x hx)) fun c hmem _ _ hl hy =>
    hy.leaves (hc c (List.mem_append_left _ hmem)) hl
  cases h₂ with
  | here => cases hm₂
  | fail => cases hm₂
  | @act _ z _ _ _ _ he h₂ =>
    have hz : z.Keyed := (h₁.keyed hk).edited he
    have known : z.Recognizable key := he.keeps known fun _ x hx hy => hy.edit (hA x hx)
    refine (?_ : ∀ k, w'.Labels key k → generatedName p.config = some k.name) k hl
    refine h₂.keeps (J := fun y => ∀ k, y.Labels key k → generatedName p.config = some k.name) (fun k hl => ?_)
      (fun y x hx hy k hl => ?_) fun c hmem y y' hleaves hy k hl => ?_
    · exact Cluster.prune_labels hkey hz known hl
    · obtain ⟨g, hg, -, hlabel⟩ := hl.before_edit (hA x hx)
      exact hy k ⟨hl.1, g, hg, hlabel⟩
    · refine hy k ?_
      unfold Cluster.Labels at hl
      rw [hleaves.sameBut.secrets (by rw [p.rest_target hmem]; decide)] at hl
      exact hl

theorem Applying.leaves_mounted (p : Applying A w u s key d) (hA : ∀ x, A x → x.SparesSecret ⟨key.ns, n⟩) (hk : w.Keyed)
    (hw : w.Free key n) (hs : Stops A w p.calls made w') (hm : made.map Prod.snd = p.calls)
    (hx : p.config = some x) (hkey : x.metadata.key = ⟨key.ns, n⟩) (hl : x.isLabelled key.name = true) :
    w'.Labels key ⟨key.ns, n⟩ := by
  have hcalls : p.calls = p.status ++ .createSecret x :: (creates p.ca ++
      .applyDeployment d :: .pruneSecrets p.app.name p.app.ns (generatedName p.config) :: p.rest) := by
    simp [calls, hx, App.creates]
  have keeps : ∀ call ∈ p.calls, ∀ (y y' : Cluster) g, y.Leaves call y' → y.secrets.get? ⟨key.ns, n⟩ = some g →
      y'.secrets.get? ⟨key.ns, n⟩ = some g := fun _ hc _ _ _ hl hy => p.keeps_standing hk hx hkey hc hl hy
  rw [hcalls] at hs hm keeps
  obtain ⟨y, m₁, m₂, -, -, hm₂, h₁, h₂⟩ := hs.split_whole hm
  have free : y.Free key n := by
    refine h₁.keeps hw (fun _ x hx hy => hy.edit (hA x hx)) fun c hc y z hl hy => ?_
    unfold Cluster.Free Cluster.Labels
    rw [hl.sameBut.secrets (by rw [p.statusPlan.target c hc]; decide)]
    exact hy
  cases h₂ with
  | here => cases hm₂
  | fail => cases hm₂
  | @act _ z _ _ _ _ he h₂ =>
    have free : z.Free key n := he.keeps free fun _ x hx hy => hy.edit (hA x hx)
    obtain ⟨g, hg, hlabel⟩ : ∃ g, (z.perform (.createSecret x)).cluster.secrets.get? ⟨key.ns, n⟩ = some g ∧
        g.isLabelled key.name = true := by
      rw [← hkey, Cluster.createSecret_get?_self, hkey]
      rcases free with hz | ⟨-, g, hz, hlabel⟩
      · exact ⟨x, by rw [hz]; rfl, hl⟩
      · exact ⟨g, by rw [show z.secrets.get? ⟨key.ns, n⟩ = some g from hz]; rfl, hlabel⟩
    refine ⟨rfl, g, ?_, hlabel⟩
    refine h₂.keeps (J := fun y => y.secrets.get? ⟨key.ns, n⟩ = some g) hg (fun y x hx hy => (hA x hx y).trans hy) ?_
    exact fun c hc y y' hl hy => keeps c (List.mem_append_right _ (List.mem_cons_of_mem _ hc)) y y' g hl hy

/-- **What is left after a pass that applies a `Deployment`.**  Whatever passes have failed or were cut before it, of
the `Secret`s that carry the label of the app there is none but the one that the `Deployment` mounts, and none at all if
the app brings its own configuration.  The one that is mounted is left, and is labelled, if nobody else has ever written
or deleted a `Secret` of its name. -/
theorem leftovers {v : Action} {z : Cluster} (hk : w₀.Keyed) (hw : w₀.Recognizable key)
    (h : Past (Edit.Unlabelled key) key w₀ t w)
    (hr : Pass.Run (Edit.Unlabelled key) (App.pass s key).run w u w' (some (.ok v)))
    (hd : .acted z (.applyDeployment d) ∈ u) :
    ∃ y a, .acted y (.getApp key.name key.ns) ∈ u ∧ y.apps.get? key = some a ∧ (∃ c g ca, a.deployment c g ca = .ok d) ∧
      (a.spec.runtimeConfig.verbatimSecret.isSome = true → ∀ k, ¬ w'.Labels key k) ∧
      (a.spec.runtimeConfig.verbatimSecret = none → ∃ n, d.configSecret? = some n ∧
        (∀ k, w'.Labels key k → k = ⟨key.ns, n⟩) ∧
        (w₀.Free key n → (∀ x, .edited x ∈ t ++ u → x.SparesSecret ⟨key.ns, n⟩) → w'.Labels key ⟨key.ns, n⟩)) := by
  obtain ⟨hkw, hknown⟩ := h.recognizable hk hw
  -- only the edits that were made matter, so they may be assumed to spare whatever all of them spare
  have hr := hr.restrict (B := fun x => x.Unlabelled key ∧ .edited x ∈ u) fun x hx hm => ⟨hx, hm⟩
  obtain ⟨b, L, hplan, o, -⟩ := pass_run hr
  obtain ⟨p, rfl⟩ := hplan.applying (o.stops.planned rfl hd)
  have hm := o.whole v rfl
  have alone {k : ObjectKey} (hl : w'.Labels key k) : generatedName p.config = some k.name :=
    p.leaves_labels (fun x hx => hx.1) hkw hknown (p.makesOnly hkw hr hm) o.stops hm hl
  refine ⟨p.fresh, p.app, p.sees_app.asked, p.sees_app.found, ⟨_, _, _, p.deployment_eq⟩, fun hv k hl => ?_,
    fun hv => ?_⟩
  · rcases p.mounts hkw with ⟨-, hc⟩ | ⟨hno, -⟩
    · have hn := alone hl
      rw [hc] at hn
      cases hn
    · rw [hno] at hv
      cases hv
  · rcases p.mounts hkw with ⟨hsome, -⟩ | ⟨-, x, n, hc, hxk, hlabel, hgen, hname, hmount⟩
    · rw [hv] at hsome
      cases hsome
    refine ⟨n, hmount, fun k hl => ?_, fun hfree hspares => ?_⟩
    · rw [Option.some.inj (hname.symm.trans (alone hl)), ← hl.1]
    · have hfree := (h.free hk hgen hfree fun x hx => hspares x (List.mem_append_left _ hx)).2
      exact p.leaves_mounted (fun y hy => hspares y (List.mem_append_right _ hy.2)) hkw hfree o.stops hm hc hxk hlabel

end App

namespace Sample

/-- A pass that cannot apply its `Deployment`, after which the configuration of the app is changed. -/
def interrupted (before after : RuntimeConfig) : Cluster :=
  (pass none refusing (cluster before)).1.cluster.edit (.putApp (app after))

/-- A `Secret` of somebody else under the name of the configuration that is rendered from it. -/
def borrowed : Secret where
  metadata := metadata "hello-4edd247b"
  data := some (.ofList [("url", Utf8.encode "a")])
  stringData := none
  carried := .empty

def lending : Cluster := (cluster (borrowing "hello-4edd247b")).edit (.putSecret borrowed)

end Sample

namespace App

theorem stored_configSecret {v : Action} {z : Cluster} (hk : w.Keyed)
    (hr : Pass.Run undisturbed (App.pass s key).run w u w' (some (.ok v))) (hd : .acted z (.applyDeployment d) ∈ u) :
    (w'.deployments.get? key >>= Deployment.configSecret?) = d.configSecret? := by
  obtain ⟨b, L, hplan, o, -⟩ := pass_run (hr.mono (B := Edit.Spares key) fun _ h => h.elim)
  obtain ⟨p, rfl⟩ := hplan.applying (o.stops.planned rfl hd)
  obtain ⟨st, hst⟩ := p.stores hk o.stops (o.whole v rfl)
  rw [hst]
  rfl

/-- A pass that fails leaves a `Secret` behind, and the next one, over the app with another configuration, deletes
it. -/
theorem leftover_deleted : ∃ t u w' v d z n,
    Past (Edit.Unlabelled Sample.key) Sample.key (Sample.cluster (Sample.storeAt "a")) t
      (Sample.interrupted (Sample.storeAt "a") (Sample.storeAt "b")) ∧
    (Sample.interrupted (Sample.storeAt "a") (Sample.storeAt "b")).Labels Sample.key ⟨"default", "hello-4edd247b"⟩ ∧
    Pass.Run (Edit.Unlabelled Sample.key) (App.pass Sample.settings Sample.key).run
      (Sample.interrupted (Sample.storeAt "a") (Sample.storeAt "b")) u w' (some (.ok v)) ∧
    .acted z (.applyDeployment d) ∈ u ∧ d.configSecret? = some n ∧ n ≠ "hello-4edd247b" ∧
    ∀ k, w'.Labels Sample.key k → k = ⟨"default", n⟩ := by
  obtain ⟨t, -, h₁⟩ := Sample.pass_run none Sample.refusing (Sample.cluster (Sample.storeAt "a"))
    (List.forall_mem_singleton.2 rfl)
  obtain ⟨u, -, h₂⟩ := Sample.pass_undisturbed (Sample.interrupted (Sample.storeAt "a") (Sample.storeAt "b"))
  obtain ⟨hsucceeds, ⟨e, he, hc⟩, hbehind, hother⟩ :
      let w := Sample.interrupted (Sample.storeAt "a") (Sample.storeAt "b")
      Sample.succeeds (Sample.pass none [] w).2 = true ∧
        (∃ e ∈ w.executors.get? ⟨"default", "shim"⟩, e.spec.createDeployment = true) ∧
        w.Labels Sample.key ⟨"default", "hello-4edd247b"⟩ ∧
        (Sample.pass none [] w).1.cluster.Labels Sample.key ⟨"default", "hello-4ee0247c"⟩ := by
    decide +kernel
  obtain ⟨v, hv⟩ := Sample.eq_of_succeeds hsucceeds
  rw [hv] at h₂
  have hk : (Sample.cluster (Sample.storeAt "a")).Keyed := Cluster.keyed_ofEdits _
  have past : Past (Edit.Unlabelled Sample.key) Sample.key (Sample.cluster (Sample.storeAt "a"))
      ([] ++ t ++ [.edited (.putApp (Sample.app (Sample.storeAt "b")))])
      (Sample.interrupted (Sample.storeAt "a") (Sample.storeAt "b")) :=
    .edit (.pass .start (h₁.mono fun _ h => h.elim)) fun _ h => by cases h
  have happ : (Sample.interrupted (Sample.storeAt "a") (Sample.storeAt "b")).apps.get? Sample.key =
      some (Sample.app (Sample.storeAt "b")) := Dict.get?_insert_self ..
  have hkw := (h₁.keyed hk).edit (.putApp (Sample.app (Sample.storeAt "b")))
  obtain ⟨d, z, -, -, hd, -⟩ := pass_applies hkw h₂ happ rfl he hc
  obtain ⟨y, a, hy, ha, -, -, hleft⟩ := leftovers hk (fun _ h => by obtain ⟨-, g, hg, -⟩ := h; cases hg) past
    (h₂.mono fun _ h => h.elim) hd
  -- the app that the pass has seen is the changed one
  obtain ⟨a', ha', hdecl⟩ := h₂.declares hy ha
  cases happ.symm.trans ha'
  obtain ⟨n, hn, halone, -⟩ := hleft (by rw [hdecl.spec]; rfl)
  refine ⟨_, u, _, v, d, z, n, past, hbehind, h₂.mono fun _ h => h.elim, hd, hn, ?_, halone⟩
  rintro rfl
  exact absurd (halone _ hother) (by decide)

/-- A pass that mounts a `Secret` of somebody else as the configuration that it has rendered: it has come to its end,
and no `Secret` with the label of the app is left. -/
theorem borrowed_secret_mounted : ∃ t w' v d z,
    Pass.Run undisturbed (App.pass Sample.settings Sample.key).run Sample.lending t w' (some (.ok v)) ∧
    .acted z (.applyDeployment d) ∈ t ∧ d.configSecret? = some "hello-4edd247b" ∧ ∀ k, ¬ w'.Labels Sample.key k := by
  obtain ⟨t, -, h⟩ := Sample.pass_undisturbed Sample.lending
  obtain ⟨hsucceeds, ⟨e, he, hc⟩, hmounted, hnone⟩ :
      let r := Sample.pass none [] Sample.lending
      Sample.succeeds r.2 = true ∧
        (∃ e ∈ Sample.lending.executors.get? ⟨"default", "shim"⟩, e.spec.createDeployment = true) ∧
        (r.1.cluster.deployments.get? Sample.key >>= Deployment.configSecret?) = some "hello-4edd247b" ∧
        (r.1.cluster.labelledSecrets Sample.key.name Sample.key.ns).isEmpty = true := by
    decide +kernel
  obtain ⟨v, hv⟩ := Sample.eq_of_succeeds hsucceeds
  rw [hv] at h
  have hk : Sample.lending.Keyed := (Cluster.keyed_ofEdits _).edit _
  have ha : Sample.lending.apps.get? Sample.key = some (Sample.app (Sample.borrowing "hello-4edd247b")) := by rfl
  obtain ⟨d, z, -, -, hd, -⟩ := pass_applies hk h ha rfl he hc
  refine ⟨t, _, v, d, z, h, hd, (stored_configSecret hk h hd).symm.trans hmounted, fun k hl => ?_⟩
  obtain ⟨g, hg⟩ := hl.mem_labelledSecrets
  rw [List.isEmpty_iff.1 hnone] at hg
  cases hg

end App

end SpinFleet
