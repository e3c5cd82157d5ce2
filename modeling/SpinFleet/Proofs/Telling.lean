import SpinFleet.Proofs.Constructible
import SpinFleet.Proofs.Courses
import SpinFleet.Proofs.Faults
/-!
# Telling — which failures of a pass the users of an app are told

A failure that no repetition clears *blocks* an app: its declaration contradicts itself, a child cannot be built from
it, or something that it refers to is missing.  A pass that ends so should have told the users of the app, once; most
ways out of a pass do (`App.Told`), but not all (`App.Untold`).  Two bindings of one name tell nobody, and neither does
a configuration or a `Service` whose owner has no identity.

`Pass.Publishes` follows the tree of a pass and keeps what was published on the way, so each part of the pass is gone
through once, whatever it is answered.  A part that comes to a value has published nothing, so only ways out have
anything to say.  `App.pass_tells` says it of every run: a pass that gets through has told nothing, and one that ends
blocked took one of the ways out that are listed, and told what that one tells.
-/
namespace SpinFleet

open Simulation (lookup enter)

/-- Failures that stay until somebody changes the app, or until what it refers to is there. -/
def Error.blocks : Error → Bool
  | .missingDependency .. | .runtimeConfig _ | .construct .. => true
  | .kube _ | .dependentsExist .. | .serialization .. | .timeout _ | .internal .. => false

def Answered (t : List Move) (c : Call) (r : Except Error c.Answer) : Prop :=
  (∃ x, .acted x c ∈ t ∧ (x.perform c).answer = r) ∨ ∃ err, .failed c err ∈ t ∧ r = .error err

theorem Answered.mono {t u : List Move} {c : Call} {r : Except Error c.Answer} (h : Answered t c r) (hs : t ⊆ u) :
    Answered u c r :=
  h.imp (fun ⟨x, hm, hx⟩ => ⟨x, hs hm, hx⟩) fun ⟨err, hm, hr⟩ => ⟨err, hs hm, hr⟩

theorem Cluster.blocks_of_perform {w : Cluster} {c : Call} {err : Error} (h : (w.perform c).answer = .error err) :
    err.blocks = false := by
  cases c with
  | patchAppStatus n ns version status =>
    unfold perform at h
    dsimp only at h
    split at h
    · cases h
      rfl
    · split at h
      · cases h
      · cases h
        rfl
  | addFinalizer n ns => cases (w.answer_addFinalizer n ns).symm.trans h
  | removeFinalizer n ns => cases (w.answer_removeFinalizer n ns).symm.trans h
  | createSecret s =>
    unfold perform at h
    dsimp only at h
    split at h <;> cases h
  | _ => cases h

theorem Answered.blocks {t : List Move} (ht : ∀ c err, .failed c err ∈ t → err.blocks = false) {c : Call} {err : Error}
    (h : Answered t c (.error err)) : err.blocks = false := by
  rcases h with ⟨x, -, hx⟩ | ⟨err', hm, he⟩
  · exact Cluster.blocks_of_perform hx
  · cases he
    exact ht c err hm

/-! ## What is told on the way -/

/-- A failed look-up blocks only because an object is missing. -/
def Foreseen (x : Except Error Resolved) : Prop :=
  ∀ err, x = .error err → err.blocks = true → ∃ kind ns n, err = .missingDependency kind ns n

theorem enter_error {acc : Resolved} {ref : Reference} {w : Cluster} {err : Error}
    (h : enter acc ref (w.perform (lookup ref)).answer = .error err) :
    ∃ kind ns n, err = .missingDependency kind ns n := by
  cases ref with
  | secret k =>
    change (do
      let s ← Simulation.demand "secret" k (.ok (w.secrets.get? ⟨k.ns, k.name⟩))
      return acc.addSecret k s) = .error err at h
    cases hg : w.secrets.get? ⟨k.ns, k.name⟩ with
    | none =>
      rw [hg] at h
      cases h
      exact ⟨_, _, _, rfl⟩
    | some s =>
      rw [hg] at h
      cases h
  | configMap k =>
    change (do
      let s ← Simulation.demand "configmap" k (.ok (w.configMaps.get? ⟨k.ns, k.name⟩))
      return acc.addConfigMap k s) = .error err at h
    cases hg : w.configMaps.get? ⟨k.ns, k.name⟩ with
    | none =>
      rw [hg] at h
      cases h
      exact ⟨_, _, _, rfl⟩
    | some s =>
      rw [hg] at h
      cases h

variable {A : Edit → Prop} {w w' : Cluster} {t : List Move}

theorem Gathers.published_eq {refs : List Reference} {acc : Resolved} {r : Option (Except Error Resolved)}
    (h : Gathers A refs acc w t w' r) : published t = [] := by
  induction h with
  | cut | done | missing | failed => rfl
  | found _ _ _ ih | edit _ _ ih => exact ih

theorem Gathers.foreseen {refs : List Reference} {acc : Resolved} {x : Except Error Resolved}
    (h : Gathers A refs acc w t w' (some x)) (ht : ∀ c err, .failed c err ∈ t → err.blocks = false) : Foreseen x := by
  generalize hr : some x = r at h
  induction h with
  | cut => cases hr
  | done =>
    cases hr
    exact nofun
  | found _ _ _ ih | edit _ _ ih => exact ih (fun c err hm => ht c err (List.mem_cons_of_mem _ hm)) hr
  | missing _ h =>
    cases hr
    rintro _ ⟨⟩ -
    exact enter_error h
  | failed =>
    cases hr
    rintro _ ⟨⟩ hb
    cases (ht _ _ List.mem_cons_self).symm.trans hb

namespace Pass

variable {α β : Type} {F : (c : Call) → Except Error c.Answer → Prop} {Q : List Event → α → Prop}
  {R : List Event → β → Prop}

/-- As long as a pass is answered as `F` allows, it ends with events and a result that satisfy `Q`; the events are those
that were published before and its own. -/
def Publishes (F : (c : Call) → Except Error c.Answer → Prop) (Q : List Event → α → Prop) : Pass α → List Event → Prop
  | done a, es => Q es a
  | call c next, es => ∀ r, F c r → (next r).Publishes F Q es
  | gather _ next, es => ∀ x, Foreseen x → (next x).Publishes F Q es
  | publish e next, es => next.Publishes F Q (es ++ [e])
  | record _ next, es => next.Publishes F Q es

theorem Publishes.imp {Q' : List Event → α → Prop} (hQ : ∀ es a, Q es a → Q' es a) :
    ∀ {p : Pass α} {es}, p.Publishes F Q es → p.Publishes F Q' es
  | done _, _, h => hQ _ _ h
  | call _ _, _, h => fun r hr => (h r hr).imp hQ
  | gather _ _, _, h => fun x hx => (h x hx).imp hQ
  | publish _ next, _, h => imp (p := next) hQ h
  | record _ next, _, h => imp (p := next) hQ h

theorem Publishes.bind {f : α → Pass β} (hf : ∀ es a, Q es a → (f a).Publishes F R es) :
    ∀ {p : Pass α} {es}, p.Publishes F Q es → (p.bind f).Publishes F R es
  | done _, _, h => hf _ _ h
  | call _ _, _, h => fun r hr => (h r hr).bind hf
  | gather _ _, _, h => fun x hx => (h x hx).bind hf
  | publish _ next, _, h => bind (p := next) hf h
  | record _ next, _, h => bind (p := next) hf h

/-- **A run tells what its pass tells.** -/
theorem Run.publishes {p : Pass α} {a : α} {es : List Event} (h : Run A p w t w' (some a))
    (hF : ∀ c r, Answered t c r → F c r) (hb : ∀ c err, F c (.error err) → err.blocks = false)
    (hp : p.Publishes F Q es) : Q (es ++ published t) a := by
  have later {m : Move} {u : List Move} (hF : ∀ c r, Answered (m :: u) c r → F c r) c r (h : Answered u c r) : F c r :=
    hF c r (h.mono (List.subset_cons_self ..))
  generalize hr : some a = r at h
  induction h generalizing es with
  | cut | gatherCut => cases hr
  | done =>
    cases hr
    rwa [show published [] = [] from rfl, List.append_nil]
  | act _ ih => exact ih (later hF) (hp _ (hF _ _ (.inl ⟨_, List.mem_cons_self, rfl⟩))) hr
  | fail _ _ ih => exact ih (later hF) (hp _ (hF _ _ (.inr ⟨_, List.mem_cons_self, rfl⟩))) hr
  | @gather refs next w t₁ w₁ x t₂ w' r hg _ ih =>
    have hx : Foreseen x := hg.foreseen fun c err hm =>
      hb c err (hF c _ (.inr ⟨err, List.mem_append_left _ hm, rfl⟩))
    rw [published, List.filterMap_append, ← published, ← published, hg.published_eq, List.nil_append]
    exact ih (fun c r h => hF c r (h.mono (List.subset_append_right ..))) (hp x hx) hr
  | @publish e next w t w' r _ ih =>
    rw [show published (.published e :: t) = e :: published t from rfl, List.append_cons]
    exact ih (later hF) hp hr
  | record _ ih | edit _ _ ih => exact ih (later hF) hp hr

end Pass

/-! ## Attempts -/

namespace Attempt

variable {α β : Type} {F : (c : Call) → Except Error c.Answer → Prop} {Q : α → Prop} {R : β → Prop}
  {E E' : Error → List Event → Prop}

/-- How an attempt ends: with a value and nothing published, or with a failure and what was published of it. -/
def Ends (Q : α → Prop) (E : Error → List Event → Prop) (es : List Event) : Except Error α → Prop
  | .ok a => es = [] ∧ Q a
  | .error err => E err es

/-- As long as an attempt is answered as `F` allows, it publishes nothing unless it fails. -/
def Publishes (F : (c : Call) → Except Error c.Answer → Prop) (Q : α → Prop) (E : Error → List Event → Prop)
    (x : Attempt α) : Prop :=
  x.run.Publishes F (Ends Q E) []

theorem Publishes.imp {Q' : α → Prop} {x : Attempt α} (hx : x.Publishes F Q E) (hQ : ∀ a, Q a → Q' a)
    (hE : ∀ err es, E err es → E' err es) : x.Publishes F Q' E' :=
  Pass.Publishes.imp (fun es r hr => by
    cases r with
    | ok a => exact ⟨hr.1, hQ a hr.2⟩
    | error err => exact hE err es hr) hx

theorem Publishes.bind {x : Attempt α} {f : α → Attempt β} (hx : x.Publishes F Q E)
    (hf : ∀ a, Q a → (f a).Publishes F R E) : (x >>= f).Publishes F R E := by
  unfold Publishes
  rw [bind_run]
  refine Pass.Publishes.bind (fun es r hr => ?_) hx
  cases r with
  | ok a =>
    obtain ⟨rfl, ha⟩ := hr
    exact hf a ha
  | error err => exact hr

theorem publishes_pure {a : α} (h : Q a) : (pure a : Attempt α).Publishes F Q E := ⟨rfl, h⟩

theorem publishes_throw {err : Error} (h : E err []) : (throw err : Attempt α).Publishes F Q E := h

theorem publishes_ofExcept {r : Except Error α} (h : ∀ err, r = .error err → E err []) :
    (ofExcept r).Publishes F (fun a => r = .ok a) E := by
  cases r with
  | ok a => exact ⟨rfl, rfl⟩
  | error err => exact h err rfl

theorem publishes_call {c : Call} (h : ∀ err, F c (.error err) → E err []) :
    (call c).Publishes F (fun a => F c (.ok a)) E := by
  intro r hr
  cases r with
  | ok a => exact ⟨rfl, hr⟩
  | error err => exact h err hr

theorem publishes_tryCall {c : Call} : (tryCall c).Publishes F (fun _ => True) E := fun _ _ => ⟨rfl, trivial⟩

theorem publishes_record (m : Measurement) : (record m).Publishes F (fun _ => True) E := ⟨rfl, trivial⟩

theorem publishes_gather {refs : List Reference} (h : ∀ err, Foreseen (.error err) → E err []) :
    (gather refs).Publishes F (fun _ => True) E := by
  intro x hx
  cases x with
  | ok resolved => exact ⟨rfl, trivial⟩
  | error err => exact h err hx

theorem publishes_warn {e : Event} {err : Error} (h : E err [e]) :
    (publish e >>= fun _ => throw err : Attempt α).Publishes F Q E := h

theorem Publishes.tryCatch {x : Attempt α} {f : Error → Attempt α} (hx : x.Publishes F Q E')
    (hf : ∀ err es, E' err es → es = [] ∧ (f err).Publishes F Q E) : (tryCatch x f).Publishes F Q E := by
  unfold Publishes
  rw [tryCatch_run]
  refine Pass.Publishes.bind (fun es r hr => ?_) hx
  cases r with
  | ok a => exact hr
  | error err =>
    obtain ⟨rfl, h⟩ := hf err es hr
    exact h

end Attempt

/-! ## Ways out of a pass -/

namespace App

/-- The ways out of a pass over an app that tell its users what is wrong, and what each tells.  There is an executor
unless it is what is missing. -/
inductive Told (a : App) : Option Executor → Error → Event → Prop
  | executor {ns} : Told a none (.missingDependency "SpinAppExecutor" ns a.spec.executor)
      (a.warning "MissingExecutor" ("Could not find SpinAppExecutor " ++ ns ++ "/" ++ a.spec.executor))
  | object {e kind ns n} : Told a (some e) (.missingDependency kind ns n)
      (a.warning "MissingDependency" (Error.missingDependency kind ns n).message)
  /-- The `Deployment` cannot be built; the configuration, if one is generated, could be. -/
  | deployment {e err generated ca} (hc : e.spec.createDeployment = true)
      (hg : a.spec.runtimeConfig.verbatimSecret = none → ∃ owner, a.owner = .ok owner)
      (h : a.deployment e.spec.config generated ca = .error err) :
      Told a (some e) err (a.warning "InvalidSpec" err.message)

/-- The ways out that tell nobody. -/
inductive Untold (a : App) : Option Executor → Error → Prop
  /-- Two bindings of a category have one name. -/
  | name {e category n} (hc : e.spec.createDeployment = true)
      (h : 2 ≤ (a.spec.runtimeConfig.names category).count n) : Untold a (some e) (Document.duplicate category n)
  /-- The `Secret` with the configuration has nobody to belong to. -/
  | secret {e err} (hc : e.spec.createDeployment = true) (hg : a.spec.runtimeConfig.verbatimSecret = none)
      (h : a.owner = .error err) : Untold a (some e) err
  /-- The `Service` has nobody to belong to, and there is no `Deployment` that would have been told of. -/
  | service {e err} (hc : e.spec.createDeployment = false) (h : a.owner = .error err) : Untold a (some e) err

variable {a : App} {o : Option Executor} {e : Executor} {err : Error} {es : List Event}

theorem owner_error (h : a.owner = .error err) : ∃ kind detail, err = .construct kind detail := by
  unfold App.owner at h
  split at h <;> cases h
  exact ⟨_, _, rfl⟩

theorem service_error (h : a.service = .error err) : a.owner = .error err := by
  unfold App.service at h
  cases ho : a.owner with
  | ok owner =>
    rw [ho] at h
    cases h
  | error err' =>
    rw [ho] at h
    cases h
    rfl

theorem configSecret_error {name text : String} (h : a.configSecret name text = .error err) :
    a.owner = .error err := by
  unfold App.configSecret at h
  cases ho : a.owner with
  | ok owner =>
    rw [ho] at h
    cases h
  | error err' =>
    rw [ho] at h
    cases h
    rfl

theorem deployment_error_kind {c : DeploymentConfig} {generated ca : Option String}
    (h : a.deployment c generated ca = .error err) : ∃ kind detail, err = .construct kind detail := by
  cases hp : c.profile with
  | error err' =>
    cases (deployment_of_profile hp a generated ca).symm.trans h
    unfold DeploymentConfig.profile at hp
    split at hp <;> cases hp <;> exact ⟨_, _, rfl⟩
  | ok p =>
    rcases deployment_error hp h with h | h | h
    · unfold Storage.configSecret at h
      split at h <;> cases h
      exact ⟨_, _, rfl⟩
    · rcases a.spec.checks.toProbes_cases with ⟨-, h'⟩ | ⟨-, -, h'⟩ | ⟨-, -, probes, h'⟩
      all_goals cases h'.symm.trans h
      all_goals exact ⟨_, _, rfl⟩
    · exact owner_error h

/-- A warning on an app that says what is wrong, or which executor is missing. -/
structure Warns (a : App) (err : Error) (v : Event) : Prop where
  regarding : v.regarding = a.reference
  type : v.type = .warning
  note : v.note = some err.message ∨ ∃ ns n, err = .missingDependency "SpinAppExecutor" ns n ∧
    v.note = some ("Could not find SpinAppExecutor " ++ ns ++ "/" ++ n)

theorem Told.warns {v : Event} (h : a.Told o err v) : a.Warns err v := by
  cases h with
  | executor => exact ⟨rfl, rfl, .inr ⟨_, _, rfl, rfl⟩⟩
  | object | deployment => exact ⟨rfl, rfl, .inl rfl⟩

/-- **No failure is told on one way out and kept back on another.** -/
theorem Told.not_untold {v : Event} (h : a.Told o err v) : ¬ a.Untold o err := by
  intro hu
  cases h with
  | executor => cases hu
  | object =>
    generalize hm : Error.missingDependency _ _ _ = err at hu
    cases hu with
    | name => cases hm
    | secret _ _ h | service _ h =>
      obtain ⟨kind, detail, rfl⟩ := owner_error h
      cases hm
  | deployment hc hg h =>
    obtain ⟨kind, detail, rfl⟩ := deployment_error_kind h
    generalize hd : Error.construct kind detail = err at hu
    cases hu with
    | name => cases hd
    | secret _ hv ho =>
      obtain ⟨owner, hok⟩ := hg hv
      cases hok.symm.trans ho
    | service hc' => cases hc.symm.trans hc'

/-- A failure that blocks was told once, or the way out tells nobody. -/
def Reports (a : App) (o : Option Executor) (err : Error) (es : List Event) : Prop :=
  err.blocks = true → (∃ v, a.Told o err v ∧ es = [v]) ∨ (a.Untold o err ∧ es = [])

/-! ## The parts of a pass -/

open Attempt

variable {F : (c : Call) → Except Error c.Answer → Prop} {s : Settings} {key : ObjectKey}

theorem reports_of_not_blocks (hb : err.blocks = false) : a.Reports o err es := fun h => by
  cases hb.symm.trans h

theorem reports_untold (h : a.Untold o err) : a.Reports o err [] := fun _ => .inr ⟨h, rfl⟩

/-- Building a document fails at a name that is there twice, or at an object that should have been found. -/
theorem reports_build {r : Resolved} (hc : e.spec.createDeployment = true) (h : Document.build a r = .error err) :
    a.Reports (some e) err [] := by
  rcases Document.build_error h with ⟨b, -, hv⟩ | ⟨category, n, rfl, htwice⟩
  · rcases Document.optionValue_cases r a.ns b with ⟨ref, -, -, hv'⟩ | ⟨-, t, hv', -⟩
    all_goals cases hv'.symm.trans hv
    exact reports_of_not_blocks (by cases ref <;> rfl)
  · exact reports_untold (.name hc htwice)

def Documents (a : App) : Option Document → Prop
  | none => a.spec.runtimeConfig.verbatimSecret ≠ none
  | some _ => a.spec.runtimeConfig.verbatimSecret = none

theorem documentOrWarn_publishes (hc : e.spec.createDeployment = true) :
    a.documentOrWarn.Publishes F a.Documents (a.Reports (some e)) := by
  have resolve : a.resolveDocument.Publishes F a.Documents fun err es =>
      es = [] ∧ ((∃ kind ns n, err = .missingDependency kind ns n) ∨ a.Reports (some e) err []) := by
    have looked (err : Error) (h : Foreseen (.error err)) :
        (∃ kind ns n, err = .missingDependency kind ns n) ∨ a.Reports (some e) err [] := by
      cases hb : err.blocks with
      | true => exact .inl (h err rfl hb)
      | false => exact .inr (reports_of_not_blocks hb)
    refine (publishes_gather fun err h => ⟨rfl, looked err h⟩).bind fun resolved _ => ?_
    by_cases hv : a.spec.runtimeConfig.verbatimSecret.isSome = true
    · rw [if_pos hv]
      exact publishes_pure (Option.isSome_iff_ne_none.1 hv)
    · rw [if_neg hv]
      refine (publishes_ofExcept fun err h => ⟨rfl, .inr (reports_build hc h)⟩).bind fun d _ => publishes_pure ?_
      exact Option.not_isSome_iff_eq_none.1 hv
  refine resolve.tryCatch fun err es h => ⟨h.1, ?_⟩
  have rethrow (h : a.Reports (some e) err []) : (throw err : Attempt (Option Document)).Publishes F a.Documents
      (a.Reports (some e)) := publishes_throw h
  cases err with
  | missingDependency => exact publishes_warn fun _ => .inl ⟨_, .object, rfl⟩
  | kube | runtimeConfig | construct | dependentsExist | serialization | timeout | internal =>
    exact rethrow (h.2.resolve_left nofun)

theorem ensureConfigSecret_publishes (hb : ∀ c err, F c (.error err) → err.blocks = false)
    (hc : e.spec.createDeployment = true) : a.ensureConfigSecret.Publishes F
      (fun _ => a.spec.runtimeConfig.verbatimSecret = none → ∃ owner, a.owner = .ok owner) (a.Reports (some e)) := by
  refine (documentOrWarn_publishes hc).bind fun o ho => ?_
  cases o with
  | none => exact publishes_pure fun hv => (ho hv).elim
  | some d =>
    refine (publishes_ofExcept fun err h => reports_untold (.secret hc ho (configSecret_error h))).bind fun x hx => ?_
    refine (publishes_call fun err h => reports_of_not_blocks (hb _ err h)).bind fun _ _ => publishes_pure fun _ => ?_
    unfold App.configSecret at hx
    cases howner : a.owner with
    | ok owner => exact ⟨owner, rfl⟩
    | error err =>
      rw [howner] at hx
      cases hx

theorem ensureCaSecret_publishes (hb : ∀ c err, F c (.error err) → err.blocks = false) (c : DeploymentConfig) :
    (a.ensureCaSecret s c).Publishes F (fun _ => True) (a.Reports o) := by
  unfold App.ensureCaSecret
  cases c.caSecret with
  | some name => exact publishes_pure trivial
  | none =>
    by_cases hi : (!c.installDefaultCACerts) = true
    · simp only [if_pos hi]
      exact publishes_pure trivial
    simp only [if_neg hi]
    cases s.caBundle with
    | none => exact publishes_throw (reports_of_not_blocks rfl)
    | some b =>
      exact (publishes_call fun err h => reports_of_not_blocks (hb _ err h)).bind fun _ _ => publishes_pure trivial

theorem deploymentOrWarn_publishes {generated ca : Option String} (hc : e.spec.createDeployment = true)
    (hg : a.spec.runtimeConfig.verbatimSecret = none → ∃ owner, a.owner = .ok owner) :
    (a.deploymentOrWarn e.spec.config generated ca).Publishes F
      (fun d => a.deployment e.spec.config generated ca = .ok d) (a.Reports (some e)) := by
  unfold App.deploymentOrWarn
  cases h : a.deployment e.spec.config generated ca with
  | ok d => exact publishes_pure rfl
  | error err => exact publishes_warn fun _ => .inl ⟨_, .deployment hc hg h, rfl⟩

/-- An app with a `Deployment` has an identity, so its `Service` can be built. -/
theorem realize_publishes (hb : ∀ c err, F c (.error err) → err.blocks = false) (hc : e.spec.createDeployment = true) :
    (a.realize s e.spec.config).Publishes F (fun _ => ∃ owner, a.owner = .ok owner) (a.Reports (some e)) := by
  refine (ensureConfigSecret_publishes hb hc).bind fun generated hg => ?_
  refine (ensureCaSecret_publishes hb _).bind fun ca _ => ?_
  refine (deploymentOrWarn_publishes hc hg).bind fun d hd => ?_
  have refused {c : Call} err (h : F c (.error err)) : a.Reports (some e) err [] := reports_of_not_blocks (hb c err h)
  obtain ⟨-, -, -, owner, -, -, howner, -⟩ := deployment_parts hd
  refine (publishes_call refused).bind fun _ _ => ?_
  exact (publishes_call refused).imp (fun _ _ => ⟨owner, howner⟩) fun _ _ h => h

/-- **Bringing the children of an app up to date** reports what blocks it, or takes a way out that tells nobody. -/
theorem converge_publishes (hb : ∀ c err, F c (.error err) → err.blocks = false) (executor : String) :
    (a.converge s key executor e).Publishes F (fun _ => True) (a.Reports (some e)) := by
  have refused {c : Call} err (h : F c (.error err)) : a.Reports (some e) err [] := reports_of_not_blocks (hb c err h)
  unfold App.converge
  by_cases hd : a.metadata.isDeleting = true
  · rw [if_pos hd]
    exact publishes_pure trivial
  rw [if_neg hd]
  have serve (h : ∀ err, a.owner = .error err → e.spec.createDeployment = false) : (do
      let service ← Attempt.ofExcept a.service
      Attempt.call (.applyService service)
      Attempt.record (.appInfo key.name key.ns executor)
      return .awaitChange : Attempt Action).Publishes F (fun _ => True) (a.Reports (some e)) := by
    refine (publishes_ofExcept fun err herr => ?_).bind fun v _ => ?_
    · have howner := service_error herr
      exact reports_untold (.service (h err howner) howner)
    · exact (publishes_call refused).bind fun _ _ => (publishes_record _).bind fun _ _ => publishes_pure trivial
  by_cases hc : e.spec.createDeployment = true
  · simp only [if_pos hc]
    refine (realize_publishes hb hc).bind fun _ ⟨owner, hok⟩ => serve fun err herr => ?_
    cases hok.symm.trans herr
  · simp only [if_neg hc]
    exact (publishes_call refused).bind fun _ _ => serve fun _ _ => Bool.eq_false_iff.2 hc

theorem publishStatus_publishes (hb : ∀ c err, F c (.error err) → err.blocks = false) {E : Error → List Event → Prop}
    (hE : ∀ err, err.blocks = false → E err []) : (a.publishStatus s e).Publishes F (fun _ => True) E :=
  (publishes_call fun err h => hE err (hb _ err h)).bind fun _ _ =>
    publishes_tryCall.bind fun _ _ => publishes_pure trivial

/-- What a pass went by: the app that it was told of, and what it was told of the executor, which is the one that the
app named when it was first seen. -/
structure GoesBy (F : (c : Call) → Except Error c.Answer → Prop) (key : ObjectKey) (a : App) (o : Option Executor) :
    Prop where
  app : F (.getApp key.name key.ns) (.ok (some a))
  executor : ∃ first : App, F (.getApp key.name key.ns) (.ok (some first)) ∧
    F (.getExecutor first.spec.executor key.ns) (.ok o)

/-- What a pass owes the users of an app when it fails: if they are blocked, a report by what it went by. -/
def Owes (F : (c : Call) → Except Error c.Answer → Prop) (key : ObjectKey) (err : Error) (es : List Event) : Prop :=
  err.blocks = true → ∃ a o, GoesBy F key a o ∧ a.Reports o err es

theorem owes_of_not_blocks (hb : err.blocks = false) : Owes F key err es := fun h => by
  cases hb.symm.trans h

theorem executorOrWarn_publishes (hb : ∀ c err, F c (.error err) → err.blocks = false)
    (ha : F (.getApp key.name key.ns) (.ok (some a))) : (a.executorOrWarn key.ns).Publishes F
      (fun e => F (.getExecutor a.spec.executor key.ns) (.ok (some e))) (Owes F key) := by
  refine Publishes.bind (publishes_call fun err h => owes_of_not_blocks (hb _ err h)) fun o ho => ?_
  cases o with
  | none => exact publishes_warn fun _ => ⟨a, none, ⟨ha, a, ha, ho⟩, fun _ => .inl ⟨_, .executor, rfl⟩⟩
  | some e => exact publishes_pure ho

theorem pass_publishes (hb : ∀ c err, F c (.error err) → err.blocks = false) :
    (App.pass s key).Publishes F (fun _ => True) (Owes F key) := by
  have refused {c : Call} err (h : F c (.error err)) : Owes F key err [] := owes_of_not_blocks (hb c err h)
  unfold App.pass
  refine Publishes.bind (publishes_call refused) fun o ho => ?_
  cases o with
  | none => exact publishes_pure trivial
  | some first =>
    refine Publishes.bind (executorOrWarn_publishes hb ho) fun e he => ?_
    have converge {a : App} (ha : F (.getApp key.name key.ns) (.ok (some a))) :
        (a.converge s key first.spec.executor e).Publishes F (fun _ => True) (Owes F key) :=
      (converge_publishes hb _).imp (fun _ h => h) fun err es h _ => ⟨a, some e, ⟨ha, first, ho, he⟩, h⟩
    by_cases hc : e.spec.createDeployment = true
    · simp only [if_pos hc]
      refine Publishes.bind (publishStatus_publishes hb fun err => owes_of_not_blocks) fun _ _ => ?_
      refine Publishes.bind (publishes_call refused) fun o ha => ?_
      cases o with
      | none => exact publishes_pure trivial
      | some fresh => exact converge ha
    · simp only [if_neg hc]
      exact converge ho

/-- **What a pass tells**, whatever others do in between, as long as calls fail only with failures that can go away by
themselves.  A pass that gets through has told nothing.  One that ends blocked took one of the ways out that are listed:
it has published one warning on the app, or it took a way out that tells nobody, and the app stays as it is. -/
theorem pass_tells {r : Except Error Action} (h : Pass.Run A (App.pass s key).run w t w' (some r))
    (ht : ∀ c err, .failed c err ∈ t → err.blocks = false) :
    (∀ v, r = .ok v → published t = []) ∧
    ∀ err, r = .error err → err.blocks = true → ∃ a o, GoesBy (Answered t) key a o ∧
      ((∃ v, a.Told o err v ∧ ¬ a.Untold o err ∧ a.Warns err v ∧ published t = [v]) ∨
        (a.Untold o err ∧ published t = [])) := by
  have hb (c : Call) (err : Error) : Answered t c (.error err) → err.blocks = false := Answered.blocks ht
  have hends := h.publishes (fun _ _ h => h) hb (pass_publishes hb)
  cases r with
  | ok v => exact ⟨fun _ _ => hends.1, nofun⟩
  | error err =>
    refine ⟨nofun, ?_⟩
    rintro _ ⟨⟩ hblocks
    obtain ⟨a, o, hgo, hr⟩ := hends hblocks
    refine ⟨a, o, hgo, (hr hblocks).imp ?_ id⟩
    rintro ⟨v, htold, hv⟩
    exact ⟨v, htold, htold.not_untold, htold.warns, hv⟩

end App

namespace Sample

def rivals : RuntimeConfig :=
  { storeAt "a" with keyValueStores := (storeAt "a").keyValueStores ++ (storeAt "b").keyValueStores }

end Sample

/-- **A failure that nobody is told of.**  The pass is not repeated, so the app stays as it is. -/
theorem App.pass_silent_rivals : ∃ t w', let err := Document.duplicate .keyValueStore "default"
    Pass.Run undisturbed (App.pass Sample.settings Sample.key).run (Sample.cluster Sample.rivals) t w'
      (some (.error err)) ∧
    (∀ c err, .failed c err ∉ t) ∧ err.blocks = true ∧ err.policy = .awaitChange ∧ published t = [] := by
  obtain ⟨t, ht, h⟩ := Sample.pass_undisturbed (Sample.cluster Sample.rivals)
  have hr : (Sample.pass none [] (Sample.cluster Sample.rivals)).2 =
      some (.error (Document.duplicate .keyValueStore "default")) := by decide +kernel
  rw [hr] at h
  refine ⟨t, _, h, ht, rfl, rfl, ?_⟩
  obtain ⟨a, o, -, ⟨v, htold, -⟩ | ⟨-, hsilent⟩⟩ :=
    (App.pass_tells h fun c err hm => (ht c err hm).elim).2 _ rfl rfl
  · generalize hd : Document.duplicate .keyValueStore "default" = err at htold
    cases htold with
    | executor | object => cases hd
    | deployment _ _ h =>
      obtain ⟨kind, detail, rfl⟩ := App.deployment_error_kind h
      cases hd
  · exact hsilent

end SpinFleet
