import SpinFleet.Proofs.Keyed
import SpinFleet.Proofs.Frames
import SpinFleet.Proofs.Children
/-!
# AppPlan — what a pass over an app may write

Every run of `App.pass`, however it is disturbed, writes a first part of a plan that its reads determine, and all of it
if it comes to a value (`App.pass_run`).  The plan is found in stages, and the run may stop after each: the status, the
`Secret`s, the `Deployment` with the pruning, the `Service`.  What is proved of a pass is proved of its plans.
-/
namespace SpinFleet.App

open Cluster (Edited Stops)
open Attempt (Obeys)

variable {A : Edit → Prop} {w w' : Cluster} {t u : List Move} {s : Settings} {a : App} {c : DeploymentConfig}

/-! ## Stages of the children of a managed app -/

def creates (o : Option Secret) : List Call := (o.map .createSecret).toList

def generatedName (g : Option Secret) : Option String := g.map fun x => x.metadata.anyName

/-- The `Secret` with the configuration that a pass makes for an app: none if the configuration is ready made, and
otherwise one for the document that the objects it has read give. -/
inductive Configures (A : Edit → Prop) (w : Cluster) (t : List Move) (a : App) : Option Secret → Prop
  | verbatim (h : a.spec.runtimeConfig.verbatimSecret.isSome = true) : Configures A w t a none
  | generated {resolved d x} (h : a.spec.runtimeConfig.verbatimSecret = none)
      (hr : Reads A w t (References.ofApp a).toList .empty resolved) (hd : Document.build a resolved = .ok d)
      (hx : a.configSecret (Document.secretName a.name d.toToml) d.toToml = .ok x) : Configures A w t a (some x)

theorem Configures.mono {x : Cluster} {g : Option Secret} (h : Configures A x t a g) (he : Edited A w x)
    (hs : t ⊆ u) : Configures A w u a g := by
  cases h with
  | verbatim h => exact .verbatim h
  | generated h hr hd hx => exact .generated h (hr.mono he hs) hd hx

/-- The `Secret` with the certificates that an app's executor asks for, if it is to be created, and the name of the one
to mount; nothing if there are no certificates to put into it. -/
def certificates (s : Settings) (a : App) (c : DeploymentConfig) : Option (Option Secret × Option String) :=
  match c.caSecret with
  | some name => some (none, some name)
  | none =>
    if !c.installDefaultCACerts then some (none, none)
    else s.caBundle.map fun b => (some (caSecret a.ns b), some defaultCaSecret)

theorem certificates_key {x : Secret} {n : Option String} (h : a.certificates s c = some (some x, n)) :
    x.metadata.key = ⟨a.ns, defaultCaSecret⟩ := by
  unfold certificates at h
  split at h
  · cases h
  · split at h
    · cases h
    · obtain ⟨b, -, hb⟩ := Option.map_eq_some_iff.1 h
      obtain rfl := Option.some.inj (Prod.mk.inj hb).1
      rfl

/-- What may be written to realize an app; the flag says that the plan is whole. -/
inductive RealizePlan (A : Edit → Prop) (w : Cluster) (t : List Move) (s : Settings) (a : App)
    (c : DeploymentConfig) : Bool → List Call → Prop
  | nothing : RealizePlan A w t s a c false []
  | config {g} (hg : Configures A w t a g) : RealizePlan A w t s a c false (creates g)
  | certificates {g ca n} (hg : Configures A w t a g) (hca : a.certificates s c = some (ca, n)) :
      RealizePlan A w t s a c false (creates g ++ creates ca)
  | whole {g ca n d} (hg : Configures A w t a g) (hca : a.certificates s c = some (ca, n))
      (hd : a.deployment c (generatedName g) n = .ok d) :
      RealizePlan A w t s a c true
        (creates g ++ creates ca ++ [.applyDeployment d, .pruneSecrets a.name a.ns (generatedName g)])

theorem resolveDocument_run {r : Option (Except Error (Option Document))}
    (h : Pass.Run A a.resolveDocument.run w t w' r) :
    Quiet A w t w' ∧ ∀ o, r = some (.ok o) →
      (a.spec.runtimeConfig.verbatimSecret.isSome = true ∧ o = none) ∨
      (a.spec.runtimeConfig.verbatimSecret = none ∧ ∃ resolved d,
        Reads A w t (References.ofApp a).toList .empty resolved ∧ Document.build a resolved = .ok d ∧ o = some d) := by
  unfold App.resolveDocument at h
  rcases Attempt.run_bind h with ⟨e, rfl, h₁⟩ | ⟨resolved, t₁, w₁, t₂, rfl, h₁, h₂⟩
  · exact ⟨(Attempt.gather_run h₁).1, fun o ho => (Attempt.no_value o ho).elim⟩
  obtain ⟨q₁, hr⟩ := Attempt.gather_run h₁
  by_cases hv : a.spec.runtimeConfig.verbatimSecret.isSome = true
  · rw [if_pos hv] at h₂
    obtain ⟨q₂, ho⟩ := Attempt.pure_run h₂
    exact ⟨q₁.append q₂, fun o h => .inl ⟨hv, ho o h⟩⟩
  · rw [if_neg hv] at h₂
    have hn : a.spec.runtimeConfig.verbatimSecret = none := by simpa using hv
    rcases Attempt.run_bind h₂ with ⟨e, rfl, h₃⟩ | ⟨d, t₃, w₃, t₄, rfl, h₃, h₄⟩
    · exact ⟨q₁.append (Attempt.ofExcept_run h₃).1, fun o ho => (Attempt.no_value o ho).elim⟩
    · obtain ⟨q₃, hd⟩ := Attempt.ofExcept_run h₃
      obtain ⟨q₄, ho⟩ := Attempt.pure_run h₄
      refine ⟨q₁.append (q₃.append q₄), fun o h => .inr ⟨hn, resolved, d, ?_, hd d rfl, ho o h⟩⟩
      exact (hr resolved rfl).mono (.refl w) (List.subset_append_left ..)

theorem publish_throw_run {α : Type} {e : Event} {err : Error} {r : Option (Except Error α)}
    (h : Pass.Run A (Attempt.publish e >>= fun _ => throw err : Attempt α).run w t w' r) :
    Quiet A w t w' ∧ ∀ b, r ≠ some (.ok b) := by
  rcases Attempt.run_bind h with ⟨e', rfl, h₁⟩ | ⟨_, t₁, w₁, t₂, rfl, h₁, h₂⟩
  · exact ⟨Attempt.publish_run h₁, fun b => Attempt.no_value b⟩
  · obtain ⟨q₂, hn⟩ := Attempt.throw_run h₂
    exact ⟨(Attempt.publish_run h₁).append q₂, hn⟩

theorem documentOrWarn_run {r : Option (Except Error (Option Document))}
    (h : Pass.Run A a.documentOrWarn.run w t w' r) :
    Quiet A w t w' ∧ ∀ o, r = some (.ok o) →
      (a.spec.runtimeConfig.verbatimSecret.isSome = true ∧ o = none) ∨
      (a.spec.runtimeConfig.verbatimSecret = none ∧ ∃ resolved d,
        Reads A w t (References.ofApp a).toList .empty resolved ∧ Document.build a resolved = .ok d ∧ o = some d) := by
  unfold App.documentOrWarn at h
  rcases Attempt.run_tryCatch h with h | ⟨e, t₁, w₁, t₂, rfl, h₁, h₂⟩
  · exact resolveDocument_run h
  -- whatever went wrong is thrown again
  have h₃ : Quiet A w₁ t₂ w' ∧ ∀ b, r ≠ some (.ok b) := by
    cases e with
    | missingDependency => exact publish_throw_run h₂
    | kube | runtimeConfig | construct | dependentsExist | serialization | timeout | internal =>
      exact Attempt.throw_run h₂
  exact ⟨(resolveDocument_run h₁).1.append h₃.1, fun o ho => (h₃.2 o ho).elim⟩

theorem ensureConfigSecret_run {r : Option (Except Error (Option String))}
    (h : Pass.Run A a.ensureConfigSecret.run w t w' r) :
    (Quiet A w t w' ∧ ∀ v, r ≠ some (.ok v)) ∨
    ∃ g, Configures A w t a g ∧ Obeys A w t w' r (creates g) ∧ ∀ v, r = some (.ok v) → v = generatedName g := by
  unfold App.ensureConfigSecret at h
  rcases Attempt.run_bind h with ⟨e, rfl, h₁⟩ | ⟨o, t₁, w₁, t₂, rfl, h₁, h₂⟩
  · exact .inl ⟨(documentOrWarn_run h₁).1, fun v => Attempt.no_value v⟩
  obtain ⟨q₁, ho⟩ := documentOrWarn_run h₁
  rcases ho o rfl with ⟨hv, rfl⟩ | ⟨hv, resolved, d, hr, hd, rfl⟩
  · obtain ⟨q₂, hv'⟩ := Attempt.pure_run h₂
    exact .inr ⟨none, .verbatim hv, .of_quiet (q₁.append q₂), hv'⟩
  rcases Attempt.run_bind h₂ with ⟨e, rfl, h₃⟩ | ⟨x, t₃, w₃, t₄, rfl, h₃, h₄⟩
  · exact .inl ⟨q₁.append (Attempt.ofExcept_run h₃).1, fun v => Attempt.no_value v⟩
  obtain ⟨q₃, hx⟩ := Attempt.ofExcept_run h₃
  have hx := hx x rfl
  have hg : Configures A w (t₁ ++ (t₃ ++ t₄)) a (some x) :=
    .generated hv (hr.mono (.refl w) (List.subset_append_left ..)) hd hx
  refine .inr ⟨some x, hg, ?_⟩
  rcases Attempt.run_bind h₄ with ⟨e, rfl, h₅⟩ | ⟨_, t₅, w₅, t₆, rfl, h₅, h₆⟩
  · exact ⟨((Attempt.write_run rfl h₅).unfinished.after q₃).after q₁, fun v hv => (Attempt.no_value v hv).elim⟩
  · obtain ⟨q₆, hv'⟩ := Attempt.pure_run h₆
    refine ⟨((Attempt.write_run rfl h₅).then_quiet q₆).after q₃ |>.after q₁, fun v hv => ?_⟩
    rw [hv' v hv]
    simp [generatedName, ObjectMeta.anyName, (configSecret_ok hx).1]

theorem ensureCaSecret_run {r : Option (Except Error (Option String))}
    (h : Pass.Run A (a.ensureCaSecret s c).run w t w' r) :
    (Quiet A w t w' ∧ ∀ v, r ≠ some (.ok v)) ∨
    ∃ ca n, a.certificates s c = some (ca, n) ∧ Obeys A w t w' r (creates ca) ∧ ∀ v, r = some (.ok v) → v = n := by
  unfold App.ensureCaSecret at h
  cases hc : c.caSecret with
  | some name =>
    rw [hc] at h
    obtain ⟨q, hv⟩ := Attempt.pure_run h
    exact .inr ⟨none, some name, by simp [certificates, hc], .of_quiet q, hv⟩
  | none =>
    rw [hc] at h
    by_cases hi : (!c.installDefaultCACerts) = true
    · simp only [if_pos hi] at h
      obtain ⟨q, hv⟩ := Attempt.pure_run h
      exact .inr ⟨none, none, by simp only [certificates, hc, if_pos hi], .of_quiet q, hv⟩
    simp only [if_neg hi] at h
    cases hb : s.caBundle with
    | none =>
      rw [hb] at h
      exact .inl (Attempt.throw_run h)
    | some b =>
      rw [hb] at h
      refine .inr ⟨some (caSecret a.ns b), some defaultCaSecret, ?_, ?_⟩
      · simp only [certificates, hc, if_neg hi, hb, Option.map_some]
      rcases Attempt.run_bind h with ⟨e, rfl, h₁⟩ | ⟨_, t₁, w₁, t₂, rfl, h₁, h₂⟩
      · exact ⟨(Attempt.write_run rfl h₁).unfinished, fun v hv => (Attempt.no_value v hv).elim⟩
      · obtain ⟨q₂, hv⟩ := Attempt.pure_run h₂
        exact ⟨(Attempt.write_run rfl h₁).then_quiet q₂, hv⟩

theorem deploymentOrWarn_run {generated ca : Option String} {r : Option (Except Error Deployment)}
    (h : Pass.Run A (a.deploymentOrWarn c generated ca).run w t w' r) :
    Quiet A w t w' ∧ ∀ d, r = some (.ok d) → a.deployment c generated ca = .ok d := by
  unfold App.deploymentOrWarn at h
  cases hd : a.deployment c generated ca with
  | ok d =>
    rw [hd] at h
    obtain ⟨q, hv⟩ := Attempt.pure_run h
    exact ⟨q, fun d' h' => by rw [hv d' h']⟩
  | error e =>
    rw [hd] at h
    obtain ⟨q, hn⟩ := publish_throw_run h
    exact ⟨q, fun d h => (hn d h).elim⟩

/-- **What a pass writes to realize an app** keeps to one of the plans for it. -/
theorem realize_run {r : Option (Except Error Unit)} (h : Pass.Run A (a.realize s c).run w t w' r) :
    ∃ b L, RealizePlan A w t s a c b L ∧ Obeys A w t w' r L ∧ ∀ v, r = some (.ok v) → b = true := by
  unfold App.realize at h
  rcases Attempt.run_bind h with ⟨e, rfl, h₁⟩ | ⟨v, t₁, w₁, t₂, rfl, h₁, h₂⟩
  · rcases ensureConfigSecret_run h₁ with ⟨q, -⟩ | ⟨g, hg, o, -⟩
    · exact ⟨false, [], .nothing, .of_quiet q, fun v hv => (Attempt.no_value v hv).elim⟩
    · exact ⟨false, creates g, .config hg, o.unfinished, fun v hv => (Attempt.no_value v hv).elim⟩
  obtain ⟨-, hn⟩ | ⟨g, hg, o₁, hv⟩ := ensureConfigSecret_run h₁
  · exact (hn v rfl).elim
  obtain rfl := hv v rfl
  have hg {u : List Move} : Configures A w (t₁ ++ u) a g := hg.mono (.refl w) (List.subset_append_left ..)
  rcases Attempt.run_bind h₂ with ⟨e, rfl, h₃⟩ | ⟨v, t₃, w₃, t₄, rfl, h₃, h₄⟩
  · rcases ensureCaSecret_run h₃ with ⟨q, -⟩ | ⟨ca, n, hca, o, -⟩
    · exact ⟨false, creates g, .config hg, o₁.then_quiet q, fun v hv => (Attempt.no_value v hv).elim⟩
    · exact ⟨false, _, .certificates hg hca, o₁.append o.unfinished,
        fun v hv => (Attempt.no_value v hv).elim⟩
  obtain ⟨-, hn⟩ | ⟨ca, n, hca, o₃, hv⟩ := ensureCaSecret_run h₃
  · exact (hn v rfl).elim
  obtain rfl := hv v rfl
  have o₃ := o₁.append o₃
  rcases Attempt.run_bind h₄ with ⟨e, rfl, h₅⟩ | ⟨d, t₅, w₅, t₆, rfl, h₅, h₆⟩
  · refine ⟨false, _, .certificates hg hca, ?_, fun v hv => (Attempt.no_value v hv).elim⟩
    rw [← List.append_assoc]
    exact o₃.then_quiet (deploymentOrWarn_run h₅).1
  obtain ⟨q₅, hd⟩ := deploymentOrWarn_run h₅
  refine ⟨true, _, .whole hg hca (hd d rfl), ?_, fun _ _ => rfl⟩
  rw [← List.append_assoc]
  refine o₃.append (Obeys.after ?_ q₅)
  rcases Attempt.run_bind h₆ with ⟨e, rfl, h₇⟩ | ⟨_, t₇, w₇, t₈, rfl, h₇, h₈⟩
  · exact (Attempt.write_run rfl h₇).stopped _
  · exact (Attempt.write_run rfl h₇).append (Attempt.write_run rfl h₈)

/-! ## Children and status -/

variable {key : ObjectKey} {executor : String} {e : Executor}

/-- What may be written to bring the `Deployment` of an app and its `Secret`s up to date, or to take the `Deployment`
away if the executor makes none. -/
inductive ChildrenPlan (A : Edit → Prop) (w : Cluster) (t : List Move) (s : Settings) (a : App) (key : ObjectKey)
    (e : Executor) : Bool → List Call → Prop
  | external (he : e.spec.createDeployment = false) :
      ChildrenPlan A w t s a key e true [.deleteDeployment key.name key.ns]
  | managed {b L} (he : e.spec.createDeployment = true) (hL : RealizePlan A w t s a e.spec.config b L) :
      ChildrenPlan A w t s a key e b L

inductive ConvergePlan (A : Edit → Prop) (w : Cluster) (t : List Move) (s : Settings) (a : App) (key : ObjectKey)
    (e : Executor) : Bool → List Call → Prop
  | deleting (hd : a.metadata.isDeleting = true) : ConvergePlan A w t s a key e true []
  | children {b L} (hd : a.metadata.isDeleting = false) (hL : ChildrenPlan A w t s a key e b L) :
      ConvergePlan A w t s a key e false L
  | whole {L v} (hd : a.metadata.isDeleting = false) (hL : ChildrenPlan A w t s a key e true L)
      (hv : a.service = .ok v) : ConvergePlan A w t s a key e true (L ++ [.applyService v])

theorem RealizePlan.mono {x : Cluster} {b : Bool} {L : List Call} (h : RealizePlan A x t s a c b L)
    (he : Edited A w x) (hs : t ⊆ u) : RealizePlan A w u s a c b L := by
  cases h with
  | nothing => exact .nothing
  | config hg => exact .config (hg.mono he hs)
  | certificates hg hca => exact .certificates (hg.mono he hs) hca
  | whole hg hca hd => exact .whole (hg.mono he hs) hca hd

theorem ChildrenPlan.mono {x : Cluster} {b : Bool} {L : List Call} (h : ChildrenPlan A x t s a key e b L)
    (he : Edited A w x) (hs : t ⊆ u) : ChildrenPlan A w u s a key e b L := by
  cases h with
  | external hc => exact .external hc
  | managed hc hL => exact .managed hc (hL.mono he hs)

theorem ConvergePlan.mono {x : Cluster} {b : Bool} {L : List Call} (h : ConvergePlan A x t s a key e b L)
    (he : Edited A w x) (hs : t ⊆ u) : ConvergePlan A w u s a key e b L := by
  cases h with
  | deleting hd => exact .deleting hd
  | children hd hL => exact .children hd (hL.mono he hs)
  | whole hd hL hv => exact .whole hd (hL.mono he hs) hv

theorem serve_run {x : Attempt Unit} {m : Measurement} {r : Option (Except Error Action)}
    (hd : a.metadata.isDeleting = false)
    (hx : ∀ {t w' r}, Pass.Run A x.run w t w' r →
      ∃ b L, ChildrenPlan A w t s a key e b L ∧ Obeys A w t w' r L ∧ ∀ v, r = some (.ok v) → b = true)
    (h : Pass.Run A (x >>= fun _ => do
      let service ← Attempt.ofExcept a.service
      Attempt.call (.applyService service)
      Attempt.record m
      return .awaitChange : Attempt Action).run w t w' r) :
    ∃ b L, ConvergePlan A w t s a key e b L ∧ Obeys A w t w' r L ∧ ∀ v, r = some (.ok v) → b = true := by
  rcases Attempt.run_bind h with ⟨err, rfl, h₁⟩ | ⟨v, t₁, w₁, t₂, rfl, h₁, h₂⟩
  · obtain ⟨b, L, hL, o, -⟩ := hx h₁
    exact ⟨false, L, .children hd hL, o.unfinished, fun v hv => (Attempt.no_value v hv).elim⟩
  obtain ⟨b, L, hL, o₁, hb⟩ := hx h₁
  obtain rfl := hb v rfl
  have hL {u : List Move} : ChildrenPlan A w (t₁ ++ u) s a key e true L :=
    hL.mono (.refl w) (List.subset_append_left ..)
  rcases Attempt.run_bind h₂ with ⟨err, rfl, h₃⟩ | ⟨sv, t₃, w₃, t₄, rfl, h₃, h₄⟩
  · exact ⟨false, L, .children hd hL, o₁.then_quiet (Attempt.ofExcept_run h₃).1,
      fun v hv => (Attempt.no_value v hv).elim⟩
  obtain ⟨q₃, hsv⟩ := Attempt.ofExcept_run h₃
  refine ⟨true, _, .whole hd hL (hsv sv rfl), o₁.append (Obeys.after ?_ q₃), fun _ _ => rfl⟩
  rcases Attempt.run_bind h₄ with ⟨err, rfl, h₅⟩ | ⟨_, t₅, w₅, t₆, rfl, h₅, h₆⟩
  · exact (Attempt.write_run rfl h₅).unfinished
  refine (Attempt.write_run rfl h₅).then_quiet ?_
  rcases Attempt.run_bind h₆ with ⟨err, rfl, h₇⟩ | ⟨_, t₇, w₇, t₈, rfl, h₇, h₈⟩
  · exact Attempt.record_run h₇
  · exact (Attempt.record_run h₇).append (Attempt.pure_run h₈).1

/-- **What a pass writes to bring the children of an app up to date** keeps to one of the plans for it. -/
theorem converge_run {r : Option (Except Error Action)}
    (h : Pass.Run A (a.converge s key executor e).run w t w' r) :
    ∃ b L, ConvergePlan A w t s a key e b L ∧ Obeys A w t w' r L ∧ ∀ v, r = some (.ok v) → b = true := by
  unfold App.converge at h
  by_cases hd : a.metadata.isDeleting = true
  · rw [if_pos hd] at h
    exact ⟨true, [], .deleting hd, .of_quiet (Attempt.pure_run h).1, fun _ _ => rfl⟩
  rw [if_neg hd] at h
  have hd : a.metadata.isDeleting = false := by simpa using hd
  by_cases he : e.spec.createDeployment = true
  · simp only [if_pos he] at h
    refine serve_run hd (fun h => ?_) h
    obtain ⟨b, L, hL, o, hb⟩ := realize_run h
    exact ⟨b, L, .managed he hL, o, hb⟩
  · simp only [if_neg he] at h
    refine serve_run hd (fun h => ?_) h
    exact ⟨true, _, .external (by simpa using he), Attempt.write_run rfl h, fun _ _ => rfl⟩

def statusPatch (s : Settings) (a : App) (e : Executor) (d : Option Deployment) : Call :=
  .patchAppStatus a.name a.ns a.metadata.version ((a.status.getD .empty).observe s.now e.name d)

/-- What may be written of the status of an app: an observation of a cluster on the way, or nothing if that failed. -/
inductive StatusPlan (A : Edit → Prop) (w : Cluster) (t : List Move) (s : Settings) (a : App) (e : Executor) :
    Bool → List Call → Prop
  | nothing : StatusPlan A w t s a e false []
  | failed (d : Option Deployment) (err : Error) (h : .failed (a.statusPatch s e d) err ∈ t) :
      StatusPlan A w t s a e true []
  | written {x} (hx : Edited A w x) :
      StatusPlan A w t s a e true [a.statusPatch s e (x.deployments.get? ⟨a.ns, a.name⟩)]

theorem StatusPlan.mono {x : Cluster} {b : Bool} {L : List Call} (h : StatusPlan A x t s a e b L)
    (he : Edited A w x) (hs : t ⊆ u) : StatusPlan A w u s a e b L := by
  cases h with
  | nothing => exact .nothing
  | failed d err h => exact .failed d err (hs h)
  | written hx => exact .written (he.trans hx)

theorem StatusPlan.target {b : Bool} {P : List Call} (h : StatusPlan A w t s a e b P) :
    ∀ c ∈ P, c.target = some .app := by
  intro c hc
  cases h with
  | nothing | failed => cases hc
  | written =>
    obtain rfl := List.mem_singleton.1 hc
    rfl

theorem publishStatus_run {r : Option (Except Error Unit)} (h : Pass.Run A (a.publishStatus s e).run w t w' r) :
    ∃ b L, StatusPlan A w t s a e b L ∧ Obeys A w t w' r L ∧ ∀ v, r = some (.ok v) → b = true := by
  unfold App.publishStatus at h
  rcases Attempt.run_bind h with ⟨err, rfl, h₁⟩ | ⟨d, t₁, w₁, t₂, rfl, h₁, h₂⟩
  · obtain ⟨q₁, -⟩ := Attempt.read_run rfl h₁
    exact ⟨false, [], .nothing, .of_quiet q₁, fun v hv => (Attempt.no_value v hv).elim⟩
  obtain ⟨q₁, hx⟩ := Attempt.read_run rfl h₁
  obtain ⟨x, hwx, -, -, hd⟩ := hx d rfl
  obtain rfl : x.deployments.get? ⟨a.ns, a.name⟩ = d := by injection hd
  have hw : StatusPlan A w (t₁ ++ t₂) s a e true [a.statusPatch s e (x.deployments.get? ⟨a.ns, a.name⟩)] := .written hwx
  have hf {y z : Cluster} (h : y.Fails (a.statusPatch s e (x.deployments.get? ⟨a.ns, a.name⟩)) z) : z = y := by
    cases h
    rfl
  rcases Attempt.run_bind h₂ with ⟨err, rfl, h₃⟩ | ⟨_, t₃, w₃, t₄, rfl, h₃, h₄⟩
  · rcases Attempt.tryWrite_run rfl (fun _ _ => hf) h₃ with o | ⟨q, err', hm⟩
    · exact ⟨true, _, hw, o.unfinished.after q₁, fun _ _ => rfl⟩
    · refine ⟨true, [], .failed (x.deployments.get? ⟨a.ns, a.name⟩) err' ?_, .of_quiet (q₁.append q), fun _ _ => rfl⟩
      exact List.mem_append_right _ hm
  have q₄ := (Attempt.pure_run h₄).1
  rcases Attempt.tryWrite_run rfl (fun _ _ => hf) h₃ with o | ⟨q, err', hm⟩
  · exact ⟨true, _, hw, (o.then_quiet q₄).after q₁, fun _ _ => rfl⟩
  · refine ⟨true, [], .failed (x.deployments.get? ⟨a.ns, a.name⟩) err' ?_, .of_quiet (q₁.append (q.append q₄)),
      fun _ _ => rfl⟩
    exact List.mem_append_right _ (List.mem_append_left _ hm)

/-! ## The whole pass -/

theorem executorOrWarn_run {ns : String} {r : Option (Except Error Executor)}
    (h : Pass.Run A (a.executorOrWarn ns).run w t w' r) :
    Quiet A w t w' ∧ ∀ e, r = some (.ok e) →
      ∃ x, Edited A w x ∧ Edited A x w' ∧ x.executors.get? ⟨ns, a.spec.executor⟩ = some e := by
  unfold App.executorOrWarn at h
  rcases Attempt.run_bind h with ⟨err, rfl, h₁⟩ | ⟨o, t₁, w₁, t₂, rfl, h₁, h₂⟩
  · exact ⟨(Attempt.read_run rfl h₁).1, fun e he => (Attempt.no_value e he).elim⟩
  obtain ⟨q₁, hx⟩ := Attempt.read_run rfl h₁
  obtain ⟨x, hwx, hxw, -, ho⟩ := hx o rfl
  have ho : x.executors.get? ⟨ns, a.spec.executor⟩ = o := by injection ho
  cases o with
  | none =>
    obtain ⟨q₂, hn⟩ := publish_throw_run h₂
    exact ⟨q₁.append q₂, fun e he => (hn e he).elim⟩
  | some e =>
    obtain ⟨q₂, he⟩ := Attempt.pure_run h₂
    refine ⟨q₁.append q₂, fun e' h' => ⟨x, hwx, hxw.trans q₂.edited, ?_⟩⟩
    rw [ho, he e' h']

structure Sees (A : Edit → Prop) (w : Cluster) (t : List Move) (key : ObjectKey) (x : Cluster) (a : App) : Prop where
  edited : Edited A w x
  asked : .acted x (.getApp key.name key.ns) ∈ t
  found : x.apps.get? key = some a

/-- What a pass over the app with a key may write: its status first, if the operator makes its `Deployment`, and then
what the app demands that is found after that. -/
inductive PassPlan (A : Edit → Prop) (w : Cluster) (t : List Move) (s : Settings) (key : ObjectKey) :
    Bool → List Call → Prop
  | nothing : PassPlan A w t s key false []
  | absent {x} (hx : Edited A w x) (ha : x.apps.get? key = none) : PassPlan A w t s key true []
  | external {x a y e b L} (ha : Sees A w t key x a) (hy : Edited A x y)
      (he : y.executors.get? ⟨key.ns, a.spec.executor⟩ = some e) (hc : e.spec.createDeployment = false)
      (hL : ConvergePlan A y t s a key e b L) : PassPlan A w t s key b L
  | observed {x a y e b P} (ha : Sees A w t key x a) (hy : Edited A x y)
      (he : y.executors.get? ⟨key.ns, a.spec.executor⟩ = some e) (hc : e.spec.createDeployment = true)
      (hP : StatusPlan A y t s a e b P) : PassPlan A w t s key false P
  | vanished {x a y e P m z} (ha : Sees A w t key x a) (hy : Edited A x y)
      (he : y.executors.get? ⟨key.ns, a.spec.executor⟩ = some e) (hc : e.spec.createDeployment = true)
      (hP : StatusPlan A y t s a e true P) (hz : Stops A y P m z) (hm : m.map Prod.snd = P)
      (hf : z.apps.get? key = none) : PassPlan A w t s key true P
  | managed {x a y e P m y' z f b L} (ha : Sees A w t key x a) (hy : Edited A x y)
      (he : y.executors.get? ⟨key.ns, a.spec.executor⟩ = some e) (hc : e.spec.createDeployment = true)
      (hP : StatusPlan A y t s a e true P) (hz : Stops A y P m y') (hm : m.map Prod.snd = P)
      (hf : Sees A y' t key z f) (hL : ConvergePlan A z t s f key e b L) : PassPlan A w t s key b (P ++ L)

theorem Sees.mono {x y : Cluster} (h : Sees A y t key x a) (he : Edited A w y) (hs : t ⊆ u) : Sees A w u key x a :=
  ⟨he.trans h.edited, hs h.asked, h.found⟩

theorem Sees.undisturbed {x : Cluster} (h : Sees undisturbed w t key x a) : x = w ∧ w.apps.get? key = some a := by
  obtain rfl := h.edited.eq_of_undisturbed
  exact ⟨rfl, h.found⟩

theorem getApp_run {r : Option (Except Error (Option App))}
    (h : Pass.Run A (Attempt.call (.getApp key.name key.ns)).run w t w' r) :
    Quiet A w t w' ∧
    (r = some (.ok none) → ∃ x, Edited A w x ∧ x.apps.get? key = none) ∧
    ∀ a, r = some (.ok (some a)) → ∃ x, Sees A w t key x a ∧ Edited A x w' := by
  obtain ⟨q, hx⟩ := Attempt.read_run rfl h
  refine ⟨q, fun hr => ?_, fun a hr => ?_⟩
  · obtain ⟨x, hwx, -, -, hn⟩ := hx none hr
    exact ⟨x, hwx, by injection hn⟩
  · obtain ⟨x, hwx, hxw, hm, ha⟩ := hx (some a) hr
    exact ⟨x, ⟨hwx, hm, by injection ha⟩, hxw⟩

/-- **What a pass writes** keeps to one of the plans for it, however the pass is disturbed and wherever it ends. -/
theorem pass_run {r : Option (Except Error Action)} (h : Pass.Run A (App.pass s key).run w t w' r) :
    ∃ b L, PassPlan A w t s key b L ∧ Obeys A w t w' r L ∧ ∀ v, r = some (.ok v) → b = true := by
  unfold App.pass at h
  rcases Attempt.run_bind h with ⟨err, rfl, h₁⟩ | ⟨o, t₁, w₁, t₂, rfl, h₁, h₂⟩
  · exact ⟨false, [], .nothing, .of_quiet (getApp_run h₁).1, fun v hv => (Attempt.no_value v hv).elim⟩
  obtain ⟨q₁, hnone, hsome⟩ := getApp_run h₁
  cases o with
  | none =>
    obtain ⟨x, hx, ha⟩ := hnone rfl
    exact ⟨true, [], .absent hx ha, .of_quiet (q₁.append (Attempt.pure_run h₂).1), fun _ _ => rfl⟩
  | some a =>
    obtain ⟨x, ha, hx⟩ := hsome a rfl
    rcases Attempt.run_bind h₂ with ⟨err, rfl, h₃⟩ | ⟨e, t₃, w₃, t₄, rfl, h₃, h₄⟩
    · exact ⟨false, [], .nothing, .of_quiet (q₁.append (executorOrWarn_run h₃).1),
        fun v hv => (Attempt.no_value v hv).elim⟩
    obtain ⟨q₃, hy⟩ := executorOrWarn_run h₃
    obtain ⟨y, hwy, hyw, he⟩ := hy e rfl
    have ha : Sees A w (t₁ ++ (t₃ ++ t₄)) key x a := ha.mono (.refl w) (List.subset_append_left ..)
    have hxy := hx.trans hwy
    have hs : t₄ ⊆ t₁ ++ (t₃ ++ t₄) := fun m hm => List.mem_append_right _ (List.mem_append_right _ hm)
    have q₃ := q₁.append q₃
    by_cases hc : e.spec.createDeployment = true
    · simp only [if_pos hc] at h₄
      rcases Attempt.run_bind h₄ with ⟨err, rfl, h₅⟩ | ⟨v, t₅, w₅, t₆, rfl, h₅, h₆⟩
      · obtain ⟨b, P, hP, o, -⟩ := publishStatus_run h₅
        refine ⟨false, P, .observed ha hxy he hc (hP.mono hyw hs), ?_, fun v hv => (Attempt.no_value v hv).elim⟩
        exact List.append_assoc .. ▸ o.unfinished.after q₃
      obtain ⟨b, P, hP, o₅, hb⟩ := publishStatus_run h₅
      obtain rfl := hb v rfl
      have hP := hP.mono hyw fun m hm => hs (List.mem_append_left t₆ hm)
      have hz : Stops A y P (writes t₅) w₅ := .of_edited hyw o₅.stops
      have hm := o₅.whole v rfl
      rcases Attempt.run_bind h₆ with ⟨err, rfl, h₇⟩ | ⟨o, t₇, w₇, t₈, rfl, h₇, h₈⟩
      · refine ⟨false, P, .observed ha hxy he hc hP, ?_, fun v hv => (Attempt.no_value v hv).elim⟩
        exact List.append_assoc .. ▸ (o₅.then_quiet (getApp_run h₇).1).after q₃
      obtain ⟨q₇, hnone, hsome⟩ := getApp_run h₇
      cases o with
      | none =>
        obtain ⟨z, hz', hf⟩ := hnone rfl
        refine ⟨true, P, .vanished ha hxy he hc hP (hz.then_edited hz') hm hf, ?_, fun _ _ => rfl⟩
        exact List.append_assoc .. ▸ (o₅.then_quiet (q₇.append (Attempt.pure_run h₈).1)).after q₃
      | some f =>
        obtain ⟨z, hf, hzw⟩ := hsome f rfl
        obtain ⟨b, L, hL, o₈, hb⟩ := converge_run h₈
        have hs₇ : t₇ ⊆ t₁ ++ (t₃ ++ (t₅ ++ (t₇ ++ t₈))) := fun m hm => by simp [hm]
        have hs₈ : t₈ ⊆ t₁ ++ (t₃ ++ (t₅ ++ (t₇ ++ t₈))) := fun m hm => by simp [hm]
        refine ⟨b, P ++ L, ?_, List.append_assoc .. ▸ (o₅.append (o₈.after q₇)).after q₃, hb⟩
        exact .managed ha hxy he hc hP hz hm (hf.mono (.refl _) hs₇) (hL.mono hzw hs₈)
    · simp only [if_neg hc] at h₄
      obtain ⟨b, L, hL, o, hb⟩ := converge_run h₄
      refine ⟨b, L, .external ha hxy he (by simpa using hc) (hL.mono hyw hs), ?_, hb⟩
      exact List.append_assoc .. ▸ o.after q₃

/-! ## Plans with a `Deployment` -/

/-- A plan that applies a `Deployment`, part by part. -/
structure Applying (A : Edit → Prop) (w : Cluster) (t : List Move) (s : Settings) (key : ObjectKey)
    (d : Deployment) where
  /-- The app as it was found at first, and the executor that it names. -/
  first : App
  executor : Executor
  seen : Cluster
  asked : Cluster
  sees : Sees A w t key seen first
  edited : Edited A seen asked
  found : asked.executors.get? ⟨key.ns, first.spec.executor⟩ = some executor
  creating : executor.spec.createDeployment = true
  status : List Call
  statusPlan : StatusPlan A asked t s first executor true status
  written : List (Cluster × Call)
  told : Cluster
  stops : Stops A asked status written told
  whole : written.map Prod.snd = status
  /-- The app as it was found after that, which everything else is made for. -/
  app : App
  fresh : Cluster
  sees_app : Sees A told t key fresh app
  alive : app.metadata.isDeleting = false
  config : Option Secret
  configures : Configures A fresh t app config
  ca : Option Secret
  caName : Option String
  certificates_eq : app.certificates s executor.spec.config = some (ca, caName)
  deployment_eq : app.deployment executor.spec.config (generatedName config) caName = .ok d
  rest : List Call
  rest_eq : rest = [] ∨ ∃ v, app.service = .ok v ∧ rest = [.applyService v]

def Applying.calls {d : Deployment} (p : Applying A w t s key d) : List Call :=
  p.status ++ (creates p.config ++ creates p.ca) ++
    .applyDeployment d :: .pruneSecrets p.app.name p.app.ns (generatedName p.config) :: p.rest

variable {d : Deployment} {b : Bool} {L : List Call}

theorem creates_eq_map (o : Option Secret) : creates o = o.toList.map .createSecret := by
  cases o <;> rfl

theorem mem_creates {o : Option Secret} {c : Call} : c ∈ creates o ↔ ∃ g, o = some g ∧ c = .createSecret g := by
  cases o <;> simp [creates]

theorem creates_target {o : Option Secret} : ∀ c ∈ creates o, c.target = some .secret := by
  intro c hc
  obtain ⟨g, -, rfl⟩ := mem_creates.1 hc
  rfl

theorem RealizePlan.of_apply (h : RealizePlan A w t s a c b L) (hd : .applyDeployment d ∈ L) :
    ∃ g ca n, Configures A w t a g ∧ a.certificates s c = some (ca, n) ∧
      a.deployment c (generatedName g) n = .ok d ∧
      L = creates g ++ creates ca ++ [.applyDeployment d, .pruneSecrets a.name a.ns (generatedName g)] := by
  have no_create {g ca : Option Secret} : .applyDeployment d ∉ creates g ++ creates ca := fun h =>
    (List.mem_append.1 h).elim (fun h => by cases creates_target _ h) fun h => by cases creates_target _ h
  cases h with
  | nothing => cases hd
  | config => cases creates_target _ hd
  | certificates => exact (no_create hd).elim
  | @whole g ca n d' hg hca hd' =>
    have hd : .applyDeployment d ∈ [Call.applyDeployment d', .pruneSecrets a.name a.ns (generatedName g)] :=
      (List.mem_append.1 hd).resolve_left no_create
    obtain rfl : d = d' := by simpa using hd
    exact ⟨g, ca, n, hg, hca, hd', rfl⟩

theorem ChildrenPlan.of_apply (h : ChildrenPlan A w t s a key e b L) (hd : .applyDeployment d ∈ L) :
    e.spec.createDeployment = true ∧ RealizePlan A w t s a e.spec.config b L := by
  cases h with
  | external => cases List.mem_singleton.1 hd
  | managed he hL => exact ⟨he, hL⟩

theorem ConvergePlan.of_apply (h : ConvergePlan A w t s a key e b L) (hd : .applyDeployment d ∈ L) :
    a.metadata.isDeleting = false ∧ e.spec.createDeployment = true ∧ ∃ b' L' rest,
      RealizePlan A w t s a e.spec.config b' L' ∧ .applyDeployment d ∈ L' ∧
      (rest = [] ∨ ∃ v, a.service = .ok v ∧ rest = [.applyService v]) ∧ L = L' ++ rest := by
  cases h with
  | deleting => cases hd
  | children hdel hL =>
    obtain ⟨he, hL⟩ := hL.of_apply hd
    exact ⟨hdel, he, _, L, [], hL, hd, .inl rfl, (List.append_nil L).symm⟩
  | @whole L' v hdel hL hv =>
    have hd : .applyDeployment d ∈ L' := (List.mem_append.1 hd).resolve_right fun h => by
      cases List.mem_singleton.1 h
    obtain ⟨he, hL⟩ := hL.of_apply hd
    exact ⟨hdel, he, true, L', [.applyService v], hL, hd, .inr ⟨v, hv, rfl⟩, rfl⟩

/-- **A plan that applies a `Deployment`** is one for a managed app, and has all parts up to the pruning. -/
theorem PassPlan.applying (h : PassPlan A w t s key b L) (hd : .applyDeployment d ∈ L) :
    ∃ p : Applying A w t s key d, L = p.calls := by
  cases h with
  | nothing | absent => cases hd
  | observed _ _ _ _ hP => cases hP.target _ hd
  | vanished _ _ _ _ hP => cases hP.target _ hd
  | external _ _ _ hc hL =>
    obtain ⟨-, he, -⟩ := hL.of_apply hd
    rw [hc] at he
    cases he
  | @managed x a y e P m y' z f b L ha hy he hc hP hz hm hf hL =>
    have hd : .applyDeployment d ∈ L := (List.mem_append.1 hd).resolve_left fun h => by cases hP.target _ h
    obtain ⟨hdel, -, b', L', rest, hL', hd', hrest, rfl⟩ := hL.of_apply hd
    obtain ⟨g, ca, n, hg, hca, hdep, rfl⟩ := hL'.of_apply hd'
    exact ⟨{
      first := a, executor := e, seen := x, asked := y, sees := ha, edited := hy, found := he, creating := hc
      status := P, statusPlan := hP, written := m, told := y', stops := hz, whole := hm
      app := f, fresh := z, sees_app := hf, alive := hdel
      config := g, configures := hg, ca := ca, caName := n, certificates_eq := hca, deployment_eq := hdep
      rest := rest, rest_eq := hrest }, by simp [Applying.calls]⟩

namespace Applying

variable (p : Applying A w t s key d)

theorem key_eq (hk : w.Keyed) : p.app.metadata.key = key :=
  ((p.stops.keyed ((hk.edited p.sees.edited).edited p.edited)).edited p.sees_app.edited).apps _ _ p.sees_app.found

theorem mem_calls {c : Call} : c ∈ p.calls ↔ c ∈ p.status ∨ c ∈ creates p.config ∨ c ∈ creates p.ca ∨
    c = .applyDeployment d ∨ c = .pruneSecrets p.app.name p.app.ns (generatedName p.config) ∨ c ∈ p.rest := by
  unfold calls
  simp only [List.mem_append, List.mem_cons, or_assoc]

theorem rest_target {c : Call} (hc : c ∈ p.rest) : c.target = some .service := by
  rcases p.rest_eq with h | ⟨v, -, h⟩
  · rw [h] at hc
    cases hc
  · rw [h] at hc
    obtain rfl := List.mem_singleton.1 hc
    rfl

/-- There is one pruning in the plan, and it keeps the `Secret` that was generated. -/
theorem prune_eq {app ns : String} {keep : Option String} (h : .pruneSecrets app ns keep ∈ p.calls) :
    app = p.app.name ∧ ns = p.app.ns ∧ keep = generatedName p.config := by
  rcases p.mem_calls.1 h with h | h | h | h | h | h
  · cases p.statusPlan.target _ h
  · obtain ⟨g, -, h⟩ := mem_creates.1 h
    cases h
  · obtain ⟨g, -, h⟩ := mem_creates.1 h
    cases h
  · cases h
  · cases h
    exact ⟨rfl, rfl, rfl⟩
  · cases p.rest_target h

theorem configures_key {x : Secret} (hx : p.config = some x) :
    ∃ text, x.metadata.key = ⟨p.app.ns, Document.secretName p.app.name text⟩ ∧
      generatedName p.config = some (Document.secretName p.app.name text) := by
  have hg := p.configures
  rw [hx] at hg ⊢
  cases hg with
  | @generated _ d _ _ _ _ h =>
    obtain ⟨hn, hk, -⟩ := configSecret_ok h
    exact ⟨d.toToml, hk, by simp [generatedName, ObjectMeta.anyName, hn]⟩

theorem ca_key {x : Secret} (hx : p.ca = some x) : x.metadata.key = ⟨p.app.ns, defaultCaSecret⟩ :=
  certificates_key (hx ▸ p.certificates_eq)

end Applying

end SpinFleet.App
