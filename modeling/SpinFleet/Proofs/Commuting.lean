import SpinFleet.Proofs.Ownership
import SpinFleet.Proofs.Undisturbed
import SpinFleet.Proofs.Weaving
/-!
# Commuting — passes over different apps do not get in each other's way

Of two passes beside each other, each sees of the cluster what it would see if it were alone (`Pass.Beside.alone`): the
other writes to its own children, and to no `Secret` that this one reads.  What both leave is what their calls leave if
all calls of one pass come first, since calls of different apps have their effects in either order (`Pass.Beside.held`).

Two apps of a namespace share one `Secret`, which either may create.  An app whose options select just this one cannot
make it: it has to find it first (`App.pass_finds`).  So it does not matter either which of the two passes comes first
(`Pass.Beside.leaves`), and passes over different apps commute (`App.passes_commute`).
-/
namespace SpinFleet

open Pass (Step Steps Beside Alone InTurn)
open Simulation (lookup)

/-- No call of a run creates or deletes a `Secret` that is referred to. -/
def Spares (refs : List Reference) (t : List Move) : Prop :=
  ∀ x c, .acted x c ∈ t → ∀ k, .secret k ∈ refs → (x.perform c).cluster.secrets.get? k = x.secrets.get? k

theorem Spares.append {refs : List Reference} {t u : List Move} (h : Spares refs (t ++ u)) :
    Spares refs t ∧ Spares refs u :=
  ⟨fun x c hm => h x c (List.mem_append_left u hm), fun x c hm => h x c (List.mem_append_right t hm)⟩

/-! ## What a pass sees -/

variable {s s' : Settings} {key key' k : ObjectKey} {refs refs' : List Reference} {c : Call} {w w' x y z : Cluster}
  {t u m : List Move}

namespace Cluster

structure SameFor (key : ObjectKey) (refs : List Reference) (x y : Cluster) : Prop where
  app : y.apps.get? key = x.apps.get? key
  executors : y.executors = x.executors
  deployment : y.deployments.get? key = x.deployments.get? key
  secrets : ∀ k, .secret k ∈ refs → y.secrets.get? k = x.secrets.get? k
  configMaps : y.configMaps = x.configMaps

namespace SameFor

theorem refl (key : ObjectKey) (refs : List Reference) (x : Cluster) : SameFor key refs x x :=
  ⟨rfl, rfl, rfl, fun _ _ => rfl, rfl⟩

theorem symm (h : SameFor key refs x y) : SameFor key refs y x :=
  ⟨h.app.symm, h.executors.symm, h.deployment.symm, fun k hm => (h.secrets k hm).symm, h.configMaps.symm⟩

theorem trans (h : SameFor key refs x y) (h' : SameFor key refs y z) : SameFor key refs x z :=
  ⟨h'.app.trans h.app, h'.executors.trans h.executors, h'.deployment.trans h.deployment,
    fun k hm => (h'.secrets k hm).trans (h.secrets k hm), h'.configMaps.trans h.configMaps⟩

end SameFor

theorem perform_secret_congr (hx : x.Keyed) (hy : y.Keyed) (c : Call) (h : y.secrets.get? k = x.secrets.get? k) :
    (y.perform c).cluster.secrets.get? k = (x.perform c).cluster.secrets.get? k := by
  have he : (c.effect k (y.held k)).secret = (c.effect k (x.held k)).secret := Call.effect_secret_congr h
  rwa [← held_perform hx, ← held_perform hy] at he

theorem perform_deployment_congr (hx : x.Keyed) (hy : y.Keyed) (c : Call)
    (h : y.deployments.get? k = x.deployments.get? k) :
    (y.perform c).cluster.deployments.get? k = (x.perform c).cluster.deployments.get? k := by
  have he : (c.effect k (y.held k)).deployment = (c.effect k (x.held k)).deployment := Call.effect_deployment_congr h
  rwa [← held_perform hx, ← held_perform hy] at he

theorem patchAppStatus_congr {n ns v : String} {st : AppStatus} (h : y.apps.get? ⟨ns, n⟩ = x.apps.get? ⟨ns, n⟩) :
    (y.perform (.patchAppStatus n ns v st)).answer = (x.perform (.patchAppStatus n ns v st)).answer ∧
      (y.perform (.patchAppStatus n ns v st)).cluster.apps.get? ⟨ns, n⟩ =
        (x.perform (.patchAppStatus n ns v st)).cluster.apps.get? ⟨ns, n⟩ := by
  unfold perform
  dsimp only
  rw [h]
  cases x.apps.get? ⟨ns, n⟩ with
  | none => exact ⟨rfl, h⟩
  | some a =>
    dsimp only
    split
    · simp only [Dict.get?_insert_self, and_self]
    · exact ⟨rfl, h⟩

theorem createSecret_answer (w : Cluster) (a : Secret) : (w.perform (.createSecret a)).answer = .ok () := by
  unfold perform
  dsimp only
  split <;> rfl

end Cluster

open Cluster (SameFor)

theorem Owns.target (h : Owns s key refs c) : c.target ≠ some .executor ∧ c.target ≠ some .configMap := by
  cases h with
  | @look ref => cases ref <;> exact ⟨nofun, nofun⟩
  | _ => exact ⟨nofun, nofun⟩

theorem Owns.answer_eq (h : Owns s key refs c) (hs : SameFor key refs x y) :
    (y.perform c).answer = (x.perform c).answer := by
  cases h with
  | app => exact congrArg Except.ok hs.app
  | executor n => exact congrArg (fun d => Except.ok (d.get? ⟨key.ns, n⟩)) hs.executors
  | deployment => exact congrArg Except.ok hs.deployment
  | status => exact (Cluster.patchAppStatus_congr hs.app).1
  | @look ref hm =>
    cases ref with
    | secret k => exact congrArg Except.ok (hs.secrets k hm)
    | configMap k => exact congrArg (fun d => Except.ok (d.get? ⟨k.ns, k.name⟩)) hs.configMaps
  | configure | certify => rw [Cluster.createSecret_answer, Cluster.createSecret_answer]
  | apply | prune | delete | serve => rfl

theorem Owns.keeps (h : Owns s key refs c) (hs : SameFor key refs x y) (hx : x.Keyed) (hy : y.Keyed) :
    SameFor key refs (x.perform c).cluster (y.perform c).cluster := by
  have bx := x.perform_sameBut c
  have b := y.perform_sameBut c
  refine ⟨?_, ?_, Cluster.perform_deployment_congr hx hy c hs.deployment,
    fun k hm => Cluster.perform_secret_congr hx hy c (hs.secrets k hm), ?_⟩
  · by_cases ht : c.target = some .app
    · cases h with
      | status => exact (Cluster.patchAppStatus_congr hs.app).2
      | @look ref => cases ref <;> cases ht
      | app | executor | deployment | configure | certify | apply | prune | delete | serve => cases ht
    · rw [bx.apps ht, b.apps ht, hs.app]
  · rw [bx.executors h.target.1, b.executors h.target.1, hs.executors]
  · rw [bx.configMaps h.target.2, b.configMaps h.target.2, hs.configMaps]

theorem patchAppStatus_get?_of_ne {n ns version : String} {status : AppStatus} (hk : k ≠ ⟨ns, n⟩) :
    (x.perform (.patchAppStatus n ns version status)).cluster.apps.get? k = x.apps.get? k := by
  unfold Cluster.perform
  dsimp only
  split
  · rfl
  · split
    · exact Dict.get?_insert_of_ne _ _ hk
    · rfl

theorem Owns.keeps_other (h : Owns s key refs c) (hne : key' ≠ key) (hx : x.Keyed)
    (hsecrets : ∀ k, .secret k ∈ refs' → (x.perform c).cluster.secrets.get? k = x.secrets.get? k) :
    SameFor key' refs' x (x.perform c).cluster := by
  have b := x.perform_sameBut c
  refine ⟨?_, b.executors h.target.1, ?_, hsecrets, b.configMaps h.target.2⟩
  · by_cases ht : c.target = some .app
    · cases h with
      | status => exact patchAppStatus_get?_of_ne hne
      | @look ref => cases ref <;> cases ht
      | app | executor | deployment | configure | certify | apply | prune | delete | serve => cases ht
    · rw [b.apps ht]
  · have he := congrArg Held.deployment (Cluster.held_perform hx c key')
    refine he.trans ?_
    cases h.bearing key' with
    | nothing h => rw [h]; rfl
    | own hk => exact (hne hk).elim
    | generated ht => exact Call.effect_deployment (by rw [ht]; nofun) ..
    | certificates _ _ hc => exact Call.effect_deployment (by rw [hc]; nofun) ..

/-! ## Each pass beside the other is as it is alone -/

variable {α β : Type} {p p' : Pass α} {q : Pass β} {a : α} {b : β} {P : Call → Prop} {Q : α → Prop} {R : β → Prop}

/-- A cluster in which apps declare what they did before is still one after a step. -/
theorem Cluster.Continues.step (h : w.Continues x) (hs : Step p x m p' y) : w.Continues y :=
  hs.keeps h fun c _ h => h.perform c

theorem Pass.Steps.continues (h : Steps p x t z a) (hx : w.Continues x) : w.Continues z := by
  induction h with
  | done => exact hx
  | step h _ ih => exact ih (hx.step h)

/-- The steps of a pass where it sees the same. -/
theorem Pass.Step.again (h : Step p x m p' z) (hp : p.AsksIf w.Recalls (Owns s key refs) Q) (hs : SameFor key refs x y)
    (hx : x.Keyed) (hy : y.Keyed) :
    ∃ m' z', Step p y m' p' z' ∧ calls m' = calls m ∧ SameFor key refs z z' := by
  cases h with
  | call c next =>
    refine ⟨[.acted y c], _, ?_, rfl, hp.1.keeps hs hx hy⟩
    rw [← hp.1.answer_eq hs]
    exact .call c next y
  | gather perm next => exact ⟨_, _, .gather perm next y, rfl, hs⟩
  | publish e => exact ⟨_, _, .publish e _ y, rfl, hs⟩
  | record m => exact ⟨_, _, .record m _ y, rfl, hs⟩

/-- **A pass beside another is as it is alone**, in any cluster that looks the same to it, if the other spares the
`Secret`s that it reads. -/
theorem Pass.Beside.alone (h : Beside p q x t u z a b) (hp : p.AsksIf w.Recalls (Owns s key refs) Q)
    (hq : q.AsksIf w.Recalls (Owns s' key' refs') R) (hne : key ≠ key') (hu : Spares refs u) (hx : w.Continues x)
    (hy : w.Continues y) (hs : SameFor key refs x y) : ∃ t' y', Steps p y t' y' a ∧ calls t' = calls t := by
  induction h generalizing y with
  | done a b x => exact ⟨[], y, .done a y, rfl⟩
  | left h _ ih =>
    obtain ⟨m', z', h', hm, hs'⟩ := h.again hp hs hx.keyed hy.keyed
    obtain ⟨t', y', hrest, ht⟩ := ih (hp.step h hx.recalls).2 hq hu (hx.step h) (hy.step h') hs'
    exact ⟨m' ++ t', y', .step h' hrest, by rw [calls_append, calls_append, hm, ht]⟩
  | right h _ ih =>
    obtain ⟨hm, hu⟩ := hu.append
    refine ih hp (hq.step h hx.recalls).2 hu (hx.step h) hy (.trans (.symm ?_) hs)
    cases h with
    | call c => exact hq.1.keeps_other hne hx.keyed (hm _ _ List.mem_cons_self)
    | gather | publish | record => exact .refl ..

theorem Pass.Beside.asks {P' : Call → Prop} (h : Beside p q x t u z a b) (hp : p.AsksIf w.Recalls P Q)
    (hq : q.AsksIf w.Recalls P' R) (hx : w.Continues x) : (∀ c ∈ calls t, P c) ∧ ∀ c ∈ calls u, P' c := by
  induction h with
  | done => exact ⟨List.forall_mem_nil P, List.forall_mem_nil P'⟩
  | left h _ ih =>
    obtain ⟨hm, hp⟩ := hp.step h hx.recalls
    obtain ⟨ht, hu⟩ := ih hp hq (hx.step h)
    rw [calls_append]
    exact ⟨List.forall_mem_append.2 ⟨hm, ht⟩, hu⟩
  | right h _ ih =>
    obtain ⟨hm, hq⟩ := hq.step h hx.recalls
    obtain ⟨ht, hu⟩ := ih hp hq (hx.step h)
    rw [calls_append]
    exact ⟨ht, List.forall_mem_append.2 ⟨hm, hu⟩⟩

/-! ## What both leave -/

theorem Pass.Step.held (h : Step p x m p' z) (hx : x.Keyed) (k : ObjectKey) :
    z.held k = effects k (calls m) (x.held k) := by
  cases h with
  | call c => exact Cluster.held_perform hx c k
  | gather | publish | record => rfl

theorem Pass.Step.keyed (h : Step p x m p' z) (hx : x.Keyed) : z.Keyed := h.keeps hx fun c _ h => h.perform c

theorem Pass.Steps.held (h : Steps p x t z a) (hx : x.Keyed) (k : ObjectKey) :
    z.held k = effects k (calls t) (x.held k) := by
  induction h with
  | done => rfl
  | step h _ ih => rw [ih (h.keyed hx), h.held hx, calls_append, effects_append]

theorem Call.effect_effects_comm {c : Call} : ∀ {M : List Call} (x : Held),
    (∀ c' ∈ M, ∀ x, c.effect k (c'.effect k x) = c'.effect k (c.effect k x)) →
      c.effect k (effects k M x) = effects k M (c.effect k x)
  | [], _, _ => rfl
  | c' :: M, x, h => by
    rw [effects_cons, effects_cons, effect_effects_comm _ fun d hd => h d (List.mem_cons_of_mem _ hd),
      h c' List.mem_cons_self]

theorem effects_comm {L M : List Call}
    (h : ∀ c ∈ L, ∀ c' ∈ M, ∀ x, c.effect k (c'.effect k x) = c'.effect k (c.effect k x)) (x : Held) :
    effects k L (effects k M x) = effects k M (effects k L x) := by
  induction L generalizing x with
  | nil => rfl
  | cons c L ih =>
    rw [effects_cons, effects_cons, Call.effect_effects_comm _ (h c List.mem_cons_self),
      ih fun d hd => h d (List.mem_cons_of_mem _ hd)]

theorem Pass.Beside.held (h : Beside p q x t u z a b) (hx : x.Keyed)
    (hc : ∀ c ∈ calls t, ∀ c' ∈ calls u, ∀ x, c.effect k (c'.effect k x) = c'.effect k (c.effect k x)) :
    z.held k = effects k (calls u) (effects k (calls t) (x.held k)) := by
  induction h with
  | done => rfl
  | left h _ ih =>
    rw [calls_append] at hc ⊢
    rw [ih (h.keyed hx) fun c hm => hc c (List.mem_append_right _ hm), h.held hx, effects_append]
  | right h _ ih =>
    rw [calls_append] at hc ⊢
    rw [ih (h.keyed hx) fun c hm c' hm' => hc c hm c' (List.mem_append_right _ hm'), h.held hx, effects_append,
      effects_comm fun c hm c' hm' => hc c hm c' (List.mem_append_left _ hm')]

/-! ## What one pass leaves to the other -/

theorem App.RealizePlan.configures {d : DeploymentConfig} {e : App} {f : Bool} {L : List Call}
    (h : RealizePlan undisturbed w t s e d f L) (hc : c ∈ L) : ∃ g, Configures undisturbed w t e g := by
  cases h with
  | nothing => cases hc
  | config hg | certificates hg | whole hg => exact ⟨_, hg⟩

theorem App.ConvergePlan.configures {e : App} {x : Executor} {v : Secret} {f : Bool} {L : List Call}
    (h : ConvergePlan undisturbed w t s e key x f L) (hc : .createSecret v ∈ L) :
    ∃ g, Configures undisturbed w t e g := by
  have children {f : Bool} {L : List Call} (h : ChildrenPlan undisturbed w t s e key x f L)
      (hc : .createSecret v ∈ L) : ∃ g, Configures undisturbed w t e g := by
    cases h with
    | external => cases List.mem_singleton.1 hc
    | managed _ hL => exact hL.configures hc
  cases h with
  | deleting => cases hc
  | children _ hL => exact children hL hc
  | whole _ hL =>
    refine children hL ((List.mem_append.1 hc).resolve_right fun h => ?_)
    cases List.mem_singleton.1 h

/-- **A pass that creates a `Secret` has found all that the options of its app select.** -/
theorem App.pass_finds {r : Except Error Action} {v : Secret} (h : Alone (App.pass s key).run w t w' r) (hk : w.Keyed)
    (hc : .createSecret v ∈ calls t) (hm : .secret k ∈ w.selected key) : ∃ g, w.secrets.get? k = some g := by
  obtain ⟨f, L, hplan, o, -⟩ := pass_run h.run
  obtain ⟨y, hy⟩ := h.acted hc
  have hv : .createSecret v ∈ L := o.stops.planned rfl hy
  cases ha : w.apps.get? key with
  | none =>
    rw [Cluster.selected_eq_nil ha] at hm
    cases hm
  | some a =>
    rw [Cluster.selected_eq ha] at hm
    obtain ⟨rfl, -⟩ | ⟨e, P, R, rfl, parts⟩ := hplan.parts hk ha
    · cases hv
    have hR : .createSecret v ∈ R := (List.mem_append.1 hv).resolve_left fun hP => by
      rcases parts.status with ⟨rfl, -⟩ | ⟨rfl, -⟩
      · cases hP
      · cases List.mem_singleton.1 hP
    obtain ⟨rfl, -⟩ | ⟨x, b, hsame, hd, hR'⟩ := parts.rest
    · cases hR
    obtain ⟨g, hg⟩ := hR'.configures hR
    rw [← hd.references] at hm
    cases hg with
    | verbatim hv =>
      unfold References.ofApp at hm
      rw [if_pos hv] at hm
      cases hm
    | generated _ hr =>
      obtain ⟨z, g, hz, -, hg, -⟩ := hr.secret k hm
      rw [hz.eq_of_undisturbed, hsame.secrets (by decide)] at hg
      exact ⟨g, hg⟩

theorem effects_secret {o : Option Secret} {L : List Call} {x : Held}
    (h : ∀ c ∈ L, ∀ x : Held, x.secret = o → (c.effect k x).secret = o) (hx : x.secret = o) :
    (effects k L x).secret = o := by
  induction L generalizing x with
  | nil => exact hx
  | cons c L ih => exact ih (fun d hd => h d (List.mem_cons_of_mem _ hd)) (h c List.mem_cons_self x hx)

theorem Pass.Beside.found (h : Beside p q x t u z a b) (hx : x.Keyed)
    (ht : ∀ y c, .acted y c ∈ t → (y.perform c).cluster.secrets.get? k = y.secrets.get? k)
    (hu : ∀ c ∈ calls u, ∀ x, (c.effect k x).secret = x.secret) :
    ∀ c ∈ calls t, ∃ y, y.Keyed ∧ .acted y c ∈ t ∧ y.secrets.get? k = x.secrets.get? k := by
  induction h with
  | done => exact List.forall_mem_nil _
  | @left p p' q x y z m t u a b h _ ih =>
    have later {c : Call} (hc : ∃ v, v.Keyed ∧ .acted v c ∈ t ∧ v.secrets.get? k = y.secrets.get? k)
        (hy : y.secrets.get? k = x.secrets.get? k) :
        ∃ v, v.Keyed ∧ .acted v c ∈ m ++ t ∧ v.secrets.get? k = x.secrets.get? k := by
      obtain ⟨v, hv, hm, hk⟩ := hc
      exact ⟨v, hv, List.mem_append_right _ hm, hk.trans hy⟩
    have ih := ih (h.keyed hx) (fun v c hm => ht v c (List.mem_append_right _ hm)) hu
    cases h with
    | call c =>
      refine List.forall_mem_cons.2 ⟨⟨x, hx, List.mem_cons_self, rfl⟩, fun d hd => later (ih d hd) ?_⟩
      exact ht _ _ List.mem_cons_self
    | gather | publish | record => exact fun d hd => later (ih d hd) rfl
  | right h _ ih =>
    intro c hc
    rw [calls_append] at hu
    obtain ⟨v, hv, hm, hk⟩ := ih (h.keyed hx) ht (fun c hc => hu c (List.mem_append_right _ hc)) c hc
    refine ⟨v, hv, hm, hk.trans ((congrArg Held.secret (h.held hx k)).trans ?_)⟩
    exact effects_secret (fun c hc x hx => (hu c (List.mem_append_left _ hc) x).trans hx) rfl

theorem Call.effect_createSecret {v g : Secret} {x : Held} (hx : x.secret = some g) :
    (Call.effect k (.createSecret v) x).secret = some g := by
  unfold Call.effect
  dsimp only
  split
  · exact congrArg some (congrArg (Option.getD · v) hx)
  · exact hx

/-- **What a pass spares beside another, it also spares before the other**, if the other finds it before it creates
anything. -/
theorem Pass.Beside.leaves (h : Beside p q w t u z a b) (hw : w.Keyed) (ht : ∀ c ∈ calls t, Owns s key refs c)
    (hu : ∀ c ∈ calls u, Owns s' key' refs' c) (hne : key ≠ key') (hs : s'.caBundle = s.caBundle)
    (hspares : ∀ y c, .acted y c ∈ t → (y.perform c).cluster.secrets.get? k = y.secrets.get? k)
    (hfound : ∀ v, .createSecret v ∈ calls u → ∃ g, w.secrets.get? k = some g) :
    (effects k (calls t) (w.held k)).secret = w.secrets.get? k := by
  refine effects_secret (fun c hc x hx => ?_) rfl
  by_cases hsame : ∃ v, c = .createSecret v ∧ c ∈ calls u
  · obtain ⟨v, rfl, hv⟩ := hsame
    obtain ⟨g, hg⟩ := hfound v hv
    rw [hg] at hx ⊢
    exact Call.effect_createSecret hx
  by_cases hkeeps : ∀ x, (c.effect k x).secret = x.secret
  · rw [hkeeps, hx]
  -- the other pass does not reach for this `Secret`, so the call found it as it was before
  have hu : ∀ c' ∈ calls u, ∀ x, (c'.effect k x).secret = x.secret := by
    intro c' hc' x
    rcases (ht c hc).apart (hu c' hc') hne hs k with h | h | h | ⟨v, hv, rfl⟩
    · exact (hkeeps fun x => congrArg Held.secret (h x)).elim
    · rw [h]
    · refine Call.effect_secret fun hc' => hkeeps fun x => Call.effect_secret fun hc => h (hc.trans hc'.symm)
    · exact (hsame ⟨v, hv, hc'⟩).elim
  obtain ⟨y, hy, hm, hyk⟩ := h.found hw hspares hu c hc
  calc (c.effect k x).secret
    _ = (c.effect k (y.held k)).secret := Call.effect_secret_congr (hx.trans hyk.symm)
    _ = (y.perform c).cluster.secrets.get? k := (congrArg Held.secret (Cluster.held_perform hy c k)).symm
    _ = w.secrets.get? k := (hspares y c hm).trans hyk

/-! ## What passes spare -/

theorem Pass.Beside.visited (h : Beside p q x t u z a b) (hx : w.Continues x) :
    ∀ y c, .acted y c ∈ t → w.Continues y := by
  induction h with
  | done => exact fun _ _ hm => (List.not_mem_nil hm).elim
  | left h _ ih =>
    intro y c hm
    rcases List.mem_append.1 hm with hm | hm
    · cases h with
      | call =>
        cases List.mem_singleton.1 hm
        exact hx
      | gather | publish | record => simp at hm
    · exact ih (hx.step h) y c hm
  | right h _ ih => exact ih (hx.step h)

/-- **What a pass spares by their names**: all `Secret`s but those that are named as if they were generated for its app,
and the one that the apps of a namespace share. -/
theorem App.pass_spares {r : Except Error Action} {b : β} (hk : w.Keyed) (hq : q.AsksIf w.Recalls P R)
    (h : Beside (App.pass s key).run q w t u w' r b)
    (hrefs : ∀ k, .secret k ∈ refs → isGeneratedName key.name k.name = false ∧ k.name ≠ defaultCaSecret) :
    Spares refs t := by
  intro y c hc k hm
  have hy := h.visited hk.continues y c hc
  have hown := (h.asks (pass_owns hk s key) hq hk.continues).1 c (mem_calls.2 ⟨_, hc, rfl⟩)
  refine (congrArg Held.secret (Cluster.held_perform hy.keyed c k)).trans ?_
  cases hown.bearing k with
  | nothing h => exact congrArg Held.secret (h _)
  | own _ ht => exact Call.effect_secret (by rcases ht with ht | ht <;> rw [ht] <;> decide)
  | generated _ _ hn =>
    rw [(hrefs k hm).1] at hn
    cases hn
  | certificates _ hk' => exact ((hrefs k hm).2 (congrArg ObjectKey.name hk')).elim

namespace Sample

/-- An app that is named like a `Secret` with the configuration of another. -/
def neighbor : ObjectKey := ⟨"default", "hello-deadbeef"⟩

def credentials : Secret where
  metadata := metadata "credentials"
  data := some (.ofList [("url", Utf8.encode "a")])
  stringData := none
  carried := .empty

/-- Two apps of one executor, whose pods all mount the shared certificates. -/
def neighborhood : Cluster := .ofEdits [
  .putExecutor (executor { DeploymentConfig.empty with installDefaultCACerts := true }),
  .putSecret credentials,
  .putApp (app (borrowing "credentials")),
  .putApp { app (storeAt "a") with metadata := metadata neighbor.name }]

def passAt (seconds : Nat) (key : ObjectKey) : Pass (Except Error Action) :=
  (App.pass ⟨some "ca", ⟨seconds, 0⟩⟩ key).run

end Sample

/-! ## The order does not matter -/

theorem Pass.Steps.sameFor (h : Steps p x t z a) (hp : ∀ c ∈ calls t, Owns s key refs c) (hne : key' ≠ key)
    (hx : x.Keyed) : SameFor key' [] x z := by
  induction h with
  | done => exact .refl ..
  | step h _ ih =>
    rw [calls_append] at hp
    refine .trans ?_ (ih (fun c hc => hp c (List.mem_append_right _ hc)) (h.keyed hx))
    cases h with
    | call c => exact (hp c List.mem_cons_self).keeps_other hne hx nofun
    | gather | publish | record => exact .refl ..

theorem App.passes_inTurn {r r' : Except Error Action} (hk : w.Keyed) (hne : key ≠ key') (hs : s'.caBundle = s.caBundle)
    (h : Beside (App.pass s key).run (App.pass s' key').run w t u w' r r') (ht : Spares (w.selected key') t)
    (hu : Spares (w.selected key) u) :
    ∃ y, InTurn (App.pass s key).run (App.pass s' key').run w y r r' ∧ ∀ k, y.held k = w'.held k := by
  have hp := pass_owns hk s key
  have hq := pass_owns hk s' key'
  obtain ⟨hown, hown'⟩ := h.asks hp hq hk.continues
  -- each pass alone, from where both began
  obtain ⟨t₁, x, hx, ht₁⟩ := h.alone hp hq hne hu hk.continues hk.continues (.refl ..)
  obtain ⟨u₀, v, hv, hu₀⟩ := h.swap.alone hq hp hne.symm ht hk.continues hk.continues (.refl ..)
  have hxheld (k : ObjectKey) : x.held k = effects k (calls t) (w.held k) := ht₁ ▸ hx.held hk k
  have hsame : SameFor key' (w.selected key') w x := by
    have hcalls : ∀ c ∈ calls t₁, Owns s key (w.selected key) c := ht₁ ▸ hown
    refine { hx.sameFor hcalls hne.symm hk with secrets := fun k hm => ?_ }
    refine (congrArg Held.secret (hxheld k)).trans (h.leaves hk hown hown' hne hs (fun y c hc => ht y c hc k hm) ?_)
    exact fun v hc => pass_finds hv.alone hk (hu₀ ▸ hc) hm
  -- and the second once more, from where the first has come to
  obtain ⟨u₁, y, hy, hu₁⟩ := h.swap.alone hq hp hne.symm ht hk.continues (hx.continues hk.continues) hsame
  refine ⟨y, ⟨t₁, x, u₁, hx.alone, hy.alone⟩, fun k => ?_⟩
  rw [hy.held (hx.run.keyed hk), hxheld, hu₁]
  exact (h.held hk fun c hc c' hc' => (hown c hc).effect_comm (hown' c' hc') hne hs k).symm

/-- **Passes over different apps commute.**  Of two passes beside each other, however their calls are ordered, neither
creates or deletes a `Secret` that the other's app selects.  Then they come to the results that they come to one after
the other, whichever of them is first, and leave the same children. -/
theorem App.passes_commute {bundle : Option String} {now now' : Instant} {key key' : ObjectKey} {w w' : Cluster}
    {t u : List Move} {r r' : Except Error Action} (hk : w.Keyed) (hne : key ≠ key')
    (h : Beside (App.pass ⟨bundle, now⟩ key).run (App.pass ⟨bundle, now'⟩ key').run w t u w' r r')
    (ht : Spares (w.selected key') t) (hu : Spares (w.selected key) u) :
    (∃ y, InTurn (App.pass ⟨bundle, now⟩ key).run (App.pass ⟨bundle, now'⟩ key').run w y r r' ∧
      y.deployments = w'.deployments ∧ y.services = w'.services ∧ y.secrets = w'.secrets) ∧
    ∃ z, InTurn (App.pass ⟨bundle, now'⟩ key').run (App.pass ⟨bundle, now⟩ key).run w z r' r ∧
      z.deployments = w'.deployments ∧ z.services = w'.services ∧ z.secrets = w'.secrets := by
  have hs : (Settings.mk bundle now').caBundle = (Settings.mk bundle now).caBundle := rfl
  obtain ⟨y, hy, hheld⟩ := passes_inTurn hk hne hs h ht hu
  obtain ⟨z, hz, hheld'⟩ := passes_inTurn hk hne.symm hs.symm h.swap hu ht
  exact ⟨⟨y, hy, Cluster.eq_of_held hheld⟩, z, hz, Cluster.eq_of_held hheld'⟩

/-- Two passes that take turns, call by call. -/
theorem App.neighbors_commute : ∃ t u w' v v',
    Beside (Sample.passAt 0 Sample.key) (Sample.passAt 1 Sample.neighbor) Sample.neighborhood t u w' (.ok v) (.ok v') ∧
    (∃ y, InTurn (Sample.passAt 0 Sample.key) (Sample.passAt 1 Sample.neighbor) Sample.neighborhood y (.ok v) (.ok v') ∧
      y.deployments = w'.deployments ∧ y.services = w'.services ∧ y.secrets = w'.secrets) ∧
    ∃ z, InTurn (Sample.passAt 1 Sample.neighbor) (Sample.passAt 0 Sample.key) Sample.neighborhood z (.ok v') (.ok v) ∧
      z.deployments = w'.deployments ∧ z.services = w'.services ∧ z.secrets = w'.secrets := by
  have hk : Sample.neighborhood.Keyed := by
    unfold Sample.neighborhood
    exact Cluster.keyed_ofEdits _
  have hruns : (Pass.weave (List.replicate 13 [true, false]).flatten (Sample.passAt 0 Sample.key)
      (Sample.passAt 1 Sample.neighbor) Sample.neighborhood).any (fun o =>
        Sample.succeeds (some o.2.2.2.1) && Sample.succeeds (some o.2.2.2.2)) = true := by decide +kernel
  obtain ⟨⟨t, u, w', r, r'⟩, ho, hr⟩ := (Option.any_eq_true ..).1 hruns
  obtain ⟨hr, hr'⟩ := Bool.and_eq_true_iff.1 hr
  obtain ⟨v, hv⟩ := Sample.eq_of_succeeds hr
  obtain ⟨v', hv'⟩ := Sample.eq_of_succeeds hr'
  cases hv
  cases hv'
  have h := Pass.beside_of_weave ho
  have hselected : Sample.neighborhood.selected Sample.key = [.secret ⟨"default", "credentials"⟩] ∧
      Sample.neighborhood.selected Sample.neighbor = [] := by decide +kernel
  have ht : Spares (Sample.neighborhood.selected Sample.neighbor) t := by
    rw [hselected.2]
    exact fun _ _ _ _ hm => (List.not_mem_nil hm).elim
  have hu : Spares (Sample.neighborhood.selected Sample.key) u := by
    refine pass_spares hk (pass_owns hk _ Sample.key) h.swap fun k hm => ?_
    rw [hselected.1] at hm
    cases List.mem_singleton.1 hm
    decide
  exact ⟨t, u, w', v, v', h, passes_commute hk (by decide) h ht hu⟩

end SpinFleet
