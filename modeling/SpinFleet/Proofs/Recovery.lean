import SpinFleet.Proofs.Work
import SpinFleet.Proofs.Observing
/-!
# Recovery — a pass after one that was cut

Wherever a pass is cut, the next one that comes to its end leaves what a single pass would have left
(`App.pass_recovers`).  For the children of the app this is so because the calls of the first pass are a first part of
those that the second one makes, and are absorbed by them; for the status of the app because it settles
(`AppStatus.observe_observe`).

There is one exception.  A pass goes on if it cannot write down the status, and then it may apply the first
`Deployment` of an app before anybody has written down that there was none (`App.Skips`).  Nobody will any more: the
conditions stay as they were until the cluster reports some.
-/
namespace SpinFleet

open Cluster (Edited Stops SameBut Agree)

namespace Cluster

variable {w w' : Cluster} {a : App} {key : ObjectKey} {L : List Call} {made : List (Cluster × Call)}

theorem Stops.apps_eq (hs : Stops undisturbed w L made w') (hL : ∀ c ∈ L, c.target ≠ some .app) : w'.apps = w.apps :=
  hs.keeps (J := fun y => y.apps = w.apps) rfl (fun _ _ hx => hx.elim)
    fun c hc _ _ hl hx => (hl.sameBut.apps (hL c hc)).trans hx

/-- Whoever writes down the status of an app and then goes on with other things, has written it down or has left the
apps as they were. -/
theorem Stops.apps_after {status : AppStatus}
    (hs : Stops undisturbed w (.patchAppStatus a.name a.ns a.metadata.version status :: L) made w')
    (hL : ∀ c ∈ L, c.target ≠ some .app) (ha : w.apps.get? key = some a) (hk : a.metadata.key = key) :
    (w'.apps = w.apps ∧ made = []) ∨
      (.patchAppStatus a.name a.ns a.metadata.version status ∈ made.map Prod.snd ∧
        w'.apps = w.apps.insert key (withStatus a status)) := by
  cases hs with
  | here h => exact .inl ⟨by rw [h.eq_of_undisturbed], rfl⟩
  | fail h hf h' =>
    cases hf
    exact .inl ⟨by rw [h'.eq_of_undisturbed, h.eq_of_undisturbed], rfl⟩
  | act h hs =>
    rw [h.eq_of_undisturbed] at hs
    refine .inr ⟨List.mem_cons_self, (hs.apps_eq hL).trans ?_⟩
    unfold perform
    have hkey : (⟨a.ns, a.name⟩ : ObjectKey) = key := hk
    simp only [hkey, ha, if_pos]

end Cluster

namespace App

variable {w w₁ w₂ w₃ : Cluster} {a : App} {key : ObjectKey} {L : List Call} {m₁ : List (Cluster × Call)}

theorem pass_absent {s : Settings} {t : List Move} {r : Option (Except Error Action)}
    (h : Pass.Run undisturbed (App.pass s key).run w t w₁ r) (ha : w.apps.get? key = none) :
    w₁ = w ∧ writes t = [] := by
  obtain ⟨b, L, hplan, o, -⟩ := pass_run h
  have hL : L = [] := by
    cases hplan with
    | nothing | absent => rfl
    | external hs | observed hs | vanished hs | managed hs => cases ha.symm.trans hs.undisturbed.2
  subst hL
  exact ⟨o.quiet.edited.eq_of_undisturbed, o.quiet.writes_eq⟩

/-! ## Two passes and a single one -/

/-- Two apps that are the same but for their versions and for times read off the clock. -/
structure Like (clock : List Instant) (a b : App) : Prop where
  declares : a.Declares b
  status : Option.Rel (AppStatus.Like clock) a.status b.status

theorem Like.rel_refl (clock : List Instant) (o : Option App) : Option.Rel (Like clock) o o := by
  cases o with
  | none => exact .none
  | some a =>
    refine .some ⟨.refl a, ?_⟩
    cases a.status with
    | none => exact .none
    | some st => exact .some (.refl st)

def Unwritten (t : List Move) : Prop := ∀ x n ns version status, .acted x (.patchAppStatus n ns version status) ∉ t

/-- A pass has applied the first `Deployment` of an app without having written down that there was none. -/
structure Skips (w : Cluster) (t : List Move) (key : ObjectKey) : Prop where
  unseen : w.deployments.get? key = none
  applied : ∃ x d, .acted x (.applyDeployment d) ∈ t
  unwritten : Unwritten t

variable {s : Settings} {n₁ n₂ n₃ : Instant} {t₁ t₂ t₃ : List Move} {r₁ : Option (Except Error Action)} {v₂ v₃ : Action}

/-- What a first pass may have left in place of an app: the app with the status to be written, or the app as it was. -/
inductive Left (a : App) (status : AppStatus) (t : List Move) : App → Prop
  | written {x} (h : .acted x (.patchAppStatus a.name a.ns a.metadata.version status) ∈ t) :
      Left a status t (Cluster.withStatus a status)
  | unwritten (h : Unwritten t) : Left a status t a

theorem declares_withStatus (a : App) (status : AppStatus) : a.Declares (Cluster.withStatus a status) := ⟨rfl, rfl⟩

theorem Left.declares {b : App} {status : AppStatus} {t : List Move} (h : Left a status t b) : a.Declares b := by
  cases h with
  | written => exact declares_withStatus a status
  | unwritten => exact .refl a

theorem Left.eq_of_unwritten {b : App} {status : AppStatus} {t : List Move} (h : Left a status t b) (hu : Unwritten t) :
    b = a := by
  cases h with
  | written h => exact (hu _ _ _ _ _ h).elim
  | unwritten => rfl

theorem unwritten_of_target {t : List Move} (h : ∀ c ∈ (writes t).map Prod.snd, c.target ≠ some .app) : Unwritten t :=
  fun _ _ _ _ _ hm => h _ ((acts_iff rfl).2 ⟨_, hm⟩) rfl

theorem left_of_stops {status : AppStatus} {Q : List Call} {t : List Move}
    (hs : Stops undisturbed w (Q ++ L) (writes t) w₁)
    (hQ : Q = [] ∨ Q = [.patchAppStatus a.name a.ns a.metadata.version status]) (hL : ∀ c ∈ L, c.target ≠ some .app)
    (ha : w.apps.get? key = some a) (hk : a.metadata.key = key) :
    ∃ b, Left a status t b ∧ w₁.apps.get? key = some b ∧ ∀ k, k ≠ key → w₁.apps.get? k = w.apps.get? k := by
  rcases hQ with rfl | rfl
  · have happs := Cluster.Stops.apps_eq hs hL
    refine ⟨a, .unwritten ?_, happs ▸ ha, fun _ _ => by rw [happs]⟩
    exact unwritten_of_target fun c hc => hL c (hs.made_prefix.subset hc)
  · rcases hs.apps_after hL ha hk with ⟨happs, hnil⟩ | ⟨hm, happs⟩
    · refine ⟨a, .unwritten (unwritten_of_target ?_), happs ▸ ha, fun _ _ => by rw [happs]⟩
      rw [hnil]
      exact List.forall_mem_nil _
    · obtain ⟨x, hx⟩ := (acts_iff rfl).1 hm
      refine ⟨_, .written hx, ?_, fun k hne => ?_⟩
      · rw [happs, Dict.get?_insert_self]
      · rw [happs, Dict.get?_insert_of_ne _ _ hne]

theorem written_of_whole {status : AppStatus}
    (hs : Stops undisturbed w (.patchAppStatus a.name a.ns a.metadata.version status :: L) m₁ w₁)
    (hm : m₁.map Prod.snd = .patchAppStatus a.name a.ns a.metadata.version status :: L)
    (hL : ∀ c ∈ L, c.target ≠ some .app) (ha : w.apps.get? key = some a) (hk : a.metadata.key = key) :
    w₁.apps = w.apps.insert key (Cluster.withStatus a status) := by
  rcases hs.apps_after hL ha hk with ⟨-, rfl⟩ | ⟨-, h⟩
  · cases hm
  · exact h

/-- **The second status is the first one**, unless that was not written and the `Deployment` has come to be since. -/
theorem Left.observe_like {b : App} {executor : String} {d d' : Option Deployment} {t : List Move}
    (h : Left a ((a.status.getD .empty).observe n₁ executor d) t b)
    (hst : (d' >>= Deployment.status) = (d >>= Deployment.status)) (hsome : d.isSome = true → d'.isSome = true)
    (hskip : Unwritten t → d'.isSome = true → d.isSome = true) :
    AppStatus.Like [n₁, n₂, n₃] ((b.status.getD .empty).observe n₂ executor d')
      ((a.status.getD .empty).observe n₃ executor d) := by
  cases h with
  | written => exact AppStatus.observe_again (by simp) (by simp) (by simp) hsome hst executor _
  | unwritten h =>
    have h : d'.isSome = d.isSome := Bool.eq_iff_iff.2 ⟨hskip h, hsome⟩
    rw [AppStatus.observe_congr h hst]
    exact AppStatus.observe_like (by simp) (by simp) executor d _

/-- Two passes in a row, the first perhaps cut, and a single one: all of them follow one plan for the children of the
app, and write its status before, each in its own way. -/
structure Course (s : Settings) (n₁ n₂ n₃ : Instant) (key : ObjectKey) (w : Cluster) (t₁ : List Move)
    (w₁ w₂ w₃ : Cluster) where
  app : App
  executor : Executor
  found : w.apps.get? key = some app
  executor_found : w.executors.get? ⟨key.ns, app.spec.executor⟩ = some executor
  plan : List Call
  planned : App
  declares : app.Declares planned
  work : Work planned key executor plan
  first : List Call
  first_eq : first = [] ∨ first = [app.statusPatch { s with now := n₁ } executor (w.deployments.get? key)] ∧
    executor.spec.createDeployment = true
  stops_first : Stops undisturbed w (first ++ plan) (writes t₁) w₁
  /-- The app as it was left by the first pass. -/
  left : App
  left_eq : Left app ((app.status.getD .empty).observe n₁ executor.name (w.deployments.get? key)) t₁ left
  left_found : w₁.apps.get? key = some left
  others : ∀ k, k ≠ key → w₁.apps.get? k = w.apps.get? k
  second : List Call
  second_eq : second = if executor.spec.createDeployment then
    [left.statusPatch { s with now := n₂ } executor (w₁.deployments.get? key)] else []
  made_second : List (Cluster × Call)
  stops_second : Stops undisturbed w₁ (second ++ plan) made_second w₂
  whole_second : made_second.map Prod.snd = second ++ plan
  single : List Call
  single_eq : single = if executor.spec.createDeployment then
    [app.statusPatch { s with now := n₃ } executor (w.deployments.get? key)] else []
  made_single : List (Cluster × Call)
  stops_single : Stops undisturbed w (single ++ plan) made_single w₃
  whole_single : made_single.map Prod.snd = single ++ plan

theorem eq_ite {b : Bool} {Q P : List Call} (h : Q = [] ∨ Q = P ∧ b = true) (hne : b = true → Q ≠ []) :
    Q = if b then P else [] := by
  cases b with
  | true => exact h.elim (fun h => (hne rfl h).elim) And.left
  | false => exact h.elim id fun h => by cases h.2

theorem course (hk : w.Keyed) {a : App} (ha : w.apps.get? key = some a)
    (h₁ : Pass.Run undisturbed (App.pass { s with now := n₁ } key).run w t₁ w₁ r₁)
    (h₂ : Pass.Run undisturbed (App.pass { s with now := n₂ } key).run w₁ t₂ w₂ (some (.ok v₂)))
    (hf₂ : ∀ c err, .failed c err ∉ t₂)
    (h₃ : Pass.Run undisturbed (App.pass { s with now := n₃ } key).run w t₃ w₃ (some (.ok v₃)))
    (hf₃ : ∀ c err, .failed c err ∉ t₃) : Nonempty (Course s n₁ n₂ n₃ key w t₁ w₁ w₂ w₃) := by
  -- the plan is that of the single pass, and the other two follow it
  obtain ⟨f, M, hplan, -, hf⟩ := pass_run h₃
  obtain rfl := hf v₃ rfl
  obtain ⟨-, hf⟩ | ⟨e, P, L, -, p⟩ := hplan.parts hk ha
  · cases hf
  obtain ⟨-, hf⟩ | ⟨x, a', -, hda, hL⟩ := p.rest
  · cases hf
  have work := hL.work
  obtain ⟨Q₁, hQ₁, hs₁, -⟩ := p.run (.refl w) hk ha (.refl a) h₁ rfl
  obtain ⟨Q₃, hQ₃, hs₃, hall₃⟩ := p.run (.refl w) hk ha (.refl a) h₃ rfl
  obtain ⟨hm₃, hne₃⟩ := hall₃ v₃ rfl hf₃
  have happ : ∀ c ∈ Q₁, c.target = some .app := by
    rcases hQ₁ with rfl | ⟨rfl, -⟩
    · exact List.forall_mem_nil _
    · exact List.forall_mem_singleton.2 rfl
  have agree : w.Agree w₁ := work.agree happ hs₁
  obtain ⟨b, hleft, hb, hothers⟩ := left_of_stops hs₁ (hQ₁.imp_right And.left) work.target_ne_app ha (hk.apps _ _ ha)
  obtain ⟨Q₂, hQ₂, hs₂, hall₂⟩ :=
    p.run agree (hs₁.keyed hk) hb hleft.declares h₂ rfl
  obtain ⟨hm₂, hne₂⟩ := hall₂ v₂ rfl hf₂
  exact ⟨{
    app := a, executor := e, found := ha, executor_found := p.found
    plan := L, planned := a', declares := hda, work := work
    first := Q₁, first_eq := hQ₁, stops_first := hs₁
    left := b, left_eq := hleft, left_found := hb, others := hothers
    second := Q₂, second_eq := eq_ite hQ₂ hne₂, made_second := _, stops_second := hs₂, whole_second := hm₂
    single := Q₃, single_eq := eq_ite hQ₃ hne₃, made_single := _, stops_single := hs₃, whole_single := hm₃ }⟩

namespace Course

variable (c : Course s n₁ n₂ n₃ key w t₁ w₁ w₂ w₃)

include c

theorem first_status : ∀ x ∈ c.first, x.target = some .app := by
  rcases c.first_eq with h | ⟨h, -⟩
  · rw [h]
    exact List.forall_mem_nil _
  · rw [h]
    exact List.forall_mem_singleton.2 rfl

theorem second_status : ∀ x ∈ c.second, x.target = some .app := by
  rw [c.second_eq]
  split
  · exact List.forall_mem_singleton.2 rfl
  · exact List.forall_mem_nil _

theorem single_status : ∀ x ∈ c.single, x.target = some .app := by
  rw [c.single_eq]
  split
  · exact List.forall_mem_singleton.2 rfl
  · exact List.forall_mem_nil _

theorem sameBut (hk : w.Keyed) : SameBut (some .app) w₃ w₂ := by
  obtain ⟨hd, hv, hs⟩ := Cluster.eq_of_held fun k => c.work.absorbs hk c.first_status c.second_status c.single_status
    c.stops_first c.stops_second c.whole_second c.stops_single c.whole_single k
  have h₁ := c.work.agree c.first_status c.stops_first
  have h₂ := c.work.agree c.second_status c.stops_second
  have h₃ := c.work.agree c.single_status c.stops_single
  refine ⟨fun h => (h rfl).elim, fun _ => ?_, fun _ => hd, fun _ => hv, fun _ => hs, fun _ => ?_⟩
  · rw [h₂.executors, h₁.executors, h₃.executors]
  · rw [h₂.configMaps, h₁.configMaps, h₃.configMaps]

theorem deployment (hk : w.Keyed) (he : c.executor.spec.createDeployment = true) :
    ((w₁.deployments.get? key) >>= Deployment.status) = ((w.deployments.get? key) >>= Deployment.status) ∧
      ((w₁.deployments.get? key).isSome = true ↔
        (w.deployments.get? key).isSome = true ∨ ∃ x d, .acted x (.applyDeployment d) ∈ t₁) := by
  obtain ⟨M, hM, hheld, hmem⟩ := c.stops_first.held hk key
  have hkey : c.planned.metadata.key = key := c.declares.key.trans (hk.apps _ _ c.found)
  obtain ⟨hstatus, hsome⟩ := effects_deployment (k := key) (M := M) (h := w.held key) fun x hx ht => by
    rcases List.mem_append.1 (hM.subset hx) with hx | hx
    · cases (c.first_status x hx).symm.trans ht
    · exact hkey ▸ c.work.apply_of_target he x hx ht
  rw [← hheld] at hstatus hsome
  refine ⟨hstatus, hsome.trans (or_congr_right ?_)⟩
  constructor
  · rintro ⟨d, hd⟩
    obtain ⟨x, hx⟩ := (acts_iff rfl).1 ((hmem (.applyDeployment d) nofun).1 hd)
    exact ⟨x, d, hx⟩
  · rintro ⟨x, d, hd⟩
    exact ⟨d, (hmem (.applyDeployment d) nofun).2 ((acts_iff rfl).2 ⟨x, hd⟩)⟩

theorem apps_managed (hk : w.Keyed) (he : c.executor.spec.createDeployment = true) :
    w₂.apps = w₁.apps.insert key (Cluster.withStatus c.left
      ((c.left.status.getD .empty).observe n₂ c.executor.name (w₁.deployments.get? key))) ∧
    w₃.apps = w.apps.insert key (Cluster.withStatus c.app
      ((c.app.status.getD .empty).observe n₃ c.executor.name (w.deployments.get? key))) := by
  have hkey := hk.apps _ _ c.found
  have h₂ := c.stops_second
  have hm₂ := c.whole_second
  have h₃ := c.stops_single
  have hm₃ := c.whole_single
  rw [c.second_eq, if_pos he] at h₂ hm₂
  rw [c.single_eq, if_pos he] at h₃ hm₃
  exact ⟨written_of_whole h₂ hm₂ c.work.target_ne_app c.left_found (c.left_eq.declares.key.trans hkey),
    written_of_whole h₃ hm₃ c.work.target_ne_app c.found hkey⟩

theorem apps_external (he : c.executor.spec.createDeployment = false) : w₂.apps = w.apps ∧ w₃.apps = w.apps := by
  have h₁ := c.stops_first
  have h₂ := c.stops_second
  have h₃ := c.stops_single
  have hfirst : c.first = [] := c.first_eq.resolve_right fun h => by cases he.symm.trans h.2
  rw [hfirst] at h₁
  rw [c.second_eq, he] at h₂
  rw [c.single_eq, he] at h₃
  exact ⟨(h₂.apps_eq c.work.target_ne_app).trans (h₁.apps_eq c.work.target_ne_app), h₃.apps_eq c.work.target_ne_app⟩

theorem managed_of_skips (h : Skips w t₁ key) : c.executor.spec.createDeployment = true := by
  obtain ⟨x, d, hd⟩ := h.applied
  rcases List.mem_append.1 (c.stops_first.planned rfl hd) with hd | hd
  · cases c.first_status _ hd
  · exact c.work.creating_of_apply hd

/-- If the first pass has not skipped anything, the apps are those of the single one. -/
theorem apps_like (hk : w.Keyed) (hskip : ¬ Skips w t₁ key) (k : ObjectKey) :
    Option.Rel (Like [n₁, n₂, n₃]) (w₂.apps.get? k) (w₃.apps.get? k) := by
  cases he : c.executor.spec.createDeployment with
  | false =>
    obtain ⟨h₂, h₃⟩ := c.apps_external he
    rw [h₂, h₃]
    exact Like.rel_refl _ _
  | true =>
    obtain ⟨h₂, h₃⟩ := c.apps_managed hk he
    obtain ⟨hst, hsome⟩ := c.deployment hk he
    rw [h₂, h₃]
    by_cases hkk : k = key
    · rw [hkk, Dict.get?_insert_self, Dict.get?_insert_self]
      have hd (x y : AppStatus) : (Cluster.withStatus c.left x).Declares (Cluster.withStatus c.app y) :=
        (declares_withStatus c.left x).symm.trans (c.left_eq.declares.symm.trans (declares_withStatus c.app y))
      refine .some ⟨hd _ _, .some ?_⟩
      refine c.left_eq.observe_like hst (fun h => hsome.2 (.inl h)) fun hun h => ?_
      by_contra hn
      exact hskip ⟨by simpa using hn, (hsome.1 h).resolve_left hn, hun⟩
    · rw [Dict.get?_insert_of_ne _ _ hkk, Dict.get?_insert_of_ne _ _ hkk, c.others k hkk]
      exact Like.rel_refl _ _

/-- If the first pass has skipped to write down that there was no `Deployment`, the second one no longer does. -/
theorem statuses_of_skips (hk : w.Keyed) (hskip : Skips w t₁ key) :
    (w₂.apps.get? key >>= App.status) = some ⟨(c.app.status.getD .empty).conditions, some c.executor.name, 0⟩ ∧
      (w₃.apps.get? key >>= App.status) = some ((c.app.status.getD .empty).observe n₃ c.executor.name none) := by
  have he := c.managed_of_skips hskip
  obtain ⟨h₂, h₃⟩ := c.apps_managed hk he
  obtain ⟨hst, hsome⟩ := c.deployment hk he
  obtain ⟨d, hd⟩ := Option.isSome_iff_exists.1 (hsome.2 (.inr hskip.applied))
  have hleft := c.left_eq.eq_of_unwritten hskip.unwritten
  rw [hd, hskip.unseen] at hst
  rw [h₂, h₃, Dict.get?_insert_self, Dict.get?_insert_self, hd, hskip.unseen, hleft]
  exact ⟨congrArg some (AppStatus.observe_silent hst ..), rfl⟩

end Course

/-- **A pass after one that was cut leaves what a single pass leaves**, but for versions and times.  Only if the first
one has skipped to write down that an app has no `Deployment`, its conditions are not those of a single pass.

If the first pass is the single one, this says that a pass after one that came to its end changes nothing else. -/
theorem pass_recovers (hk : w.Keyed)
    (h₁ : Pass.Run undisturbed (App.pass { s with now := n₁ } key).run w t₁ w₁ r₁)
    (h₂ : Pass.Run undisturbed (App.pass { s with now := n₂ } key).run w₁ t₂ w₂ (some (.ok v₂)))
    (hf₂ : ∀ c err, .failed c err ∉ t₂)
    (h₃ : Pass.Run undisturbed (App.pass { s with now := n₃ } key).run w t₃ w₃ (some (.ok v₃)))
    (hf₃ : ∀ c err, .failed c err ∉ t₃) :
    SameBut (some .app) w₃ w₂ ∧
    (¬ Skips w t₁ key → ∀ k, Option.Rel (Like [n₁, n₂, n₃]) (w₂.apps.get? k) (w₃.apps.get? k)) ∧
    (Skips w t₁ key → ∃ a e, w.apps.get? key = some a ∧ w.executors.get? ⟨key.ns, a.spec.executor⟩ = some e ∧
      (w₂.apps.get? key >>= App.status) = some ⟨(a.status.getD .empty).conditions, some e.name, 0⟩ ∧
      (w₃.apps.get? key >>= App.status) = some ((a.status.getD .empty).observe n₃ e.name none)) := by
  cases ha : w.apps.get? key with
  | none =>
    obtain ⟨rfl, hw₁⟩ := pass_absent h₁ ha
    obtain ⟨rfl, -⟩ := pass_absent h₂ ha
    obtain ⟨rfl, -⟩ := pass_absent h₃ ha
    refine ⟨.refl _ _, fun _ k => Like.rel_refl _ _, fun hskip => ?_⟩
    obtain ⟨x, d, hd⟩ := hskip.applied
    have hd := (mem_writes rfl).2 hd
    rw [hw₁] at hd
    cases hd
  | some a =>
    obtain ⟨c⟩ := course hk ha h₁ h₂ hf₂ h₃ hf₃
    refine ⟨c.sameBut hk, c.apps_like hk, fun hskip => ⟨c.app, c.executor, ?_, c.executor_found, ?_⟩⟩
    · rw [← ha, c.found]
    · exact c.statuses_of_skips hk hskip

/-- A pass that was cut in the middle of the pruning, and the next one. -/
theorem cut_pass_recovered : SameBut (some .app)
    (Sample.pass none [] (Sample.changed (Sample.storeAt "a") (Sample.storeAt "b"))).1.cluster
    (Sample.pass none [] (Sample.pass (some 5) [⟨"prune_runtime_config_secrets", none, none, 10, none, []⟩]
      (Sample.changed (Sample.storeAt "a") (Sample.storeAt "b"))).1.cluster).1.cluster := by
  have hk := Sample.keyed_changed (Sample.storeAt "a") (Sample.storeAt "b")
  obtain ⟨t₁, -, h₁⟩ := Sample.pass_run (some 5) [⟨"prune_runtime_config_secrets", none, none, 10, none, []⟩]
    (Sample.changed (Sample.storeAt "a") (Sample.storeAt "b")) (by decide)
  obtain ⟨t₂, hf₂, h₂⟩ := Sample.pass_undisturbed (Sample.pass (some 5)
    [⟨"prune_runtime_config_secrets", none, none, 10, none, []⟩]
    (Sample.changed (Sample.storeAt "a") (Sample.storeAt "b"))).1.cluster
  obtain ⟨t₃, hf₃, h₃⟩ := Sample.pass_undisturbed (Sample.changed (Sample.storeAt "a") (Sample.storeAt "b"))
  obtain ⟨v₂, hv₂⟩ := Sample.eq_of_succeeds (r := (Sample.pass none [] (Sample.pass (some 5)
    [⟨"prune_runtime_config_secrets", none, none, 10, none, []⟩]
    (Sample.changed (Sample.storeAt "a") (Sample.storeAt "b"))).1.cluster).2) (by decide +kernel)
  obtain ⟨v₃, hv₃⟩ := Sample.eq_of_succeeds (r := (Sample.pass none []
    (Sample.changed (Sample.storeAt "a") (Sample.storeAt "b"))).2) (by decide +kernel)
  rw [hv₂] at h₂
  rw [hv₃] at h₃
  exact (pass_recovers (s := Sample.settings) hk h₁ h₂ hf₂ h₃ hf₃).1

theorem Like.length_eq {clock : List Instant} {o o' : Option App} (h : Option.Rel (Like clock) o o') :
    (o >>= App.status).map (fun st => st.conditions.length) =
      (o' >>= App.status).map (fun st => st.conditions.length) := by
  cases h with
  | none => rfl
  | @some a b h =>
    have hst := h.status
    show a.status.map _ = b.status.map _
    generalize a.status = x at hst ⊢
    generalize b.status = y at hst ⊢
    cases hst with
    | none => rfl
    | some h => exact congrArg some h.conditions.length_eq

/-- A first pass whose write of the status is refused, the next one, and a single one: the next one writes no
conditions. -/
theorem status_not_recovered : ∃ w t₁ w₁ v₁ t₂ w₂ v₂ t₃ w₃ v₃, w.Keyed ∧
    Pass.Run undisturbed (App.pass Sample.settings Sample.key).run w t₁ w₁ (some (.ok v₁)) ∧
    Pass.Run undisturbed (App.pass Sample.settings Sample.key).run w₁ t₂ w₂ (some (.ok v₂)) ∧
    (∀ c err, .failed c err ∉ t₂) ∧
    Pass.Run undisturbed (App.pass Sample.settings Sample.key).run w t₃ w₃ (some (.ok v₃)) ∧
    (∀ c err, .failed c err ∉ t₃) ∧
    ∀ clock, ¬ Option.Rel (Like clock) (w₂.apps.get? Sample.key) (w₃.apps.get? Sample.key) := by
  obtain ⟨t₁, -, h₁⟩ := Sample.pass_run none
    [⟨"patch_app_status", none, none, 0, some (.internal "api" "unavailable"), []⟩]
    (Sample.cluster (Sample.storeAt "a")) (by decide)
  obtain ⟨t₂, hf₂, h₂⟩ := Sample.pass_undisturbed (Sample.pass none
    [⟨"patch_app_status", none, none, 0, some (.internal "api" "unavailable"), []⟩]
    (Sample.cluster (Sample.storeAt "a"))).1.cluster
  obtain ⟨t₃, hf₃, h₃⟩ := Sample.pass_undisturbed (Sample.cluster (Sample.storeAt "a"))
  obtain ⟨v₁, hv₁⟩ := Sample.eq_of_succeeds (r := (Sample.pass none
    [⟨"patch_app_status", none, none, 0, some (.internal "api" "unavailable"), []⟩]
    (Sample.cluster (Sample.storeAt "a"))).2) (by decide +kernel)
  obtain ⟨v₂, hv₂⟩ := Sample.eq_of_succeeds (r := (Sample.pass none [] (Sample.pass none
    [⟨"patch_app_status", none, none, 0, some (.internal "api" "unavailable"), []⟩]
    (Sample.cluster (Sample.storeAt "a"))).1.cluster).2) (by decide +kernel)
  obtain ⟨v₃, hv₃⟩ := Sample.eq_of_succeeds (r := (Sample.pass none [] (Sample.cluster (Sample.storeAt "a"))).2)
    (by decide +kernel)
  rw [hv₁] at h₁
  rw [hv₂] at h₂
  rw [hv₃] at h₃
  refine ⟨_, t₁, _, v₁, t₂, _, v₂, t₃, _, v₃, Cluster.keyed_ofEdits _, h₁, h₂, hf₂, h₃, hf₃, fun clock h => ?_⟩
  exact absurd (Like.length_eq h) (by decide +kernel)

end App

end SpinFleet
