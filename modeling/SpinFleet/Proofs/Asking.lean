import SpinFleet.Proofs.Keyed
import SpinFleet.Proofs.Reads
/-!
# Asking — which calls a pass may make

`Pass.AsksIf F P Q` says of the tree of a pass that, as long as it is answered as `F` allows, all its calls satisfy `P`,
and that it then ends with results that satisfy `Q`; `Pass.Asks P Q` says so of what any cluster answers.  It is proved
along the pass, one rule for each way of putting passes together, and then holds of every run (`Pass.Run.asks`): of the
calls that act as well as of those that fail, however others edit.

`App.Tends` lists the calls that bring the children of an app up to date (`App.converge_asks`), and with the reads
around them these are all that a pass asks for (`App.pass_asks_of`).
-/
namespace SpinFleet

open Simulation (lookup)

def Move.call? : Move → Option Call
  | .acted _ c | .failed c _ => some c
  | .published _ | .recorded _ | .edited _ => none

/-- The calls of a run, those that act as well as those that fail. -/
def calls (t : List Move) : List Call := t.filterMap Move.call?

@[simp] theorem calls_append (t u : List Move) : calls (t ++ u) = calls t ++ calls u := List.filterMap_append ..

@[simp] theorem calls_acted (w : Cluster) (c : Call) (t : List Move) : calls (.acted w c :: t) = c :: calls t := rfl

@[simp] theorem calls_failed (c : Call) (e : Error) (t : List Move) : calls (.failed c e :: t) = c :: calls t := rfl

theorem mem_calls {c : Call} {t : List Move} : c ∈ calls t ↔ ∃ m ∈ t, m.call? = some c := List.mem_filterMap

/-- What a cluster may answer: an app that is found has the key that was asked for. -/
def Call.Answers : (c : Call) → Except Error c.Answer → Prop
  | .getApp n ns, r => ∀ a : App, r = .ok (some a) → a.metadata.key = ⟨ns, n⟩
  | _, _ => True

theorem Call.answers_error (c : Call) (e : Error) : c.Answers (.error e) := by
  cases c with
  | getApp =>
    intro a ha
    cases ha
  | _ => trivial

theorem Cluster.Keyed.answers {w : Cluster} (hk : w.Keyed) (c : Call) : c.Answers (w.perform c).answer := by
  cases c with
  | getApp n ns =>
    intro a ha
    have ha : w.apps.get? ⟨ns, n⟩ = some a := by injection ha
    exact hk.apps _ _ ha
  | _ => trivial

namespace Pass

variable {α β : Type} {F : (c : Call) → Except Error c.Answer → Prop} {P P' : Call → Prop} {Q Q' : α → Prop}
  {R : β → Prop}

/-- As long as a pass is answered as it may be, its calls are of some sort, and so are its results. -/
def AsksIf (F : (c : Call) → Except Error c.Answer → Prop) (P : Call → Prop) (Q : α → Prop) : Pass α → Prop
  | done a => Q a
  | call c next => P c ∧ ∀ r, F c r → (next r).AsksIf F P Q
  | gather refs next => (∀ ref ∈ refs, P (lookup ref)) ∧ ∀ r, (next r).AsksIf F P Q
  | publish _ next => next.AsksIf F P Q
  | record _ next => next.AsksIf F P Q

abbrev Asks (P : Call → Prop) (Q : α → Prop) (p : Pass α) : Prop := p.AsksIf Call.Answers P Q

theorem AsksIf.mono (hP : ∀ c, P c → P' c) (hQ : ∀ a, Q a → Q' a) : ∀ {p : Pass α}, p.AsksIf F P Q → p.AsksIf F P' Q'
  | done _, h => hQ _ h
  | call _ _, h => ⟨hP _ h.1, fun r hr => (h.2 r hr).mono hP hQ⟩
  | gather _ _, h => ⟨fun ref hm => hP _ (h.1 ref hm), fun r => (h.2 r).mono hP hQ⟩
  | publish _ next, h => mono (p := next) hP hQ h
  | record _ next, h => mono (p := next) hP hQ h

theorem AsksIf.bind {f : α → Pass β} (hf : ∀ a, Q a → (f a).AsksIf F P R) :
    ∀ {p : Pass α}, p.AsksIf F P Q → (p.bind f).AsksIf F P R
  | done _, h => hf _ h
  | call _ _, h => ⟨h.1, fun r hr => (h.2 r hr).bind hf⟩
  | gather _ _, h => ⟨h.1, fun r => (h.2 r).bind hf⟩
  | publish _ next, h => bind (p := next) hf h
  | record _ next, h => bind (p := next) hf h

end Pass

variable {A : Edit → Prop}

theorem Gathers.asks {P : Call → Prop} {refs : List Reference} {acc : Resolved} {w w' : Cluster} {t : List Move}
    {r : Option (Except Error Resolved)} (h : Gathers A refs acc w t w' r) (hP : ∀ ref ∈ refs, P (lookup ref)) :
    ∀ c ∈ calls t, P c := by
  induction h with
  | cut | done => exact List.forall_mem_nil P
  | @found refs ref rest acc acc' w t w' r perm _ _ ih =>
    refine List.forall_mem_cons.2 ⟨hP ref (perm.mem_iff.2 List.mem_cons_self), ih fun ref' hm => hP ref' ?_⟩
    exact perm.mem_iff.2 (List.mem_cons_of_mem _ hm)
  | missing mem | failed mem => exact List.forall_mem_singleton.2 (hP _ mem)
  | edit _ _ ih => exact ih hP

/-- **A run makes the calls that its pass may make.** -/
theorem Pass.Run.asks {α : Type} {P : Call → Prop} {Q : α → Prop} {p : Pass α} {w w' : Cluster} {t : List Move}
    {r : Option α} (h : Run A p w t w' r) (hk : w.Keyed) (hp : p.Asks P Q) : ∀ c ∈ calls t, P c := by
  induction h with
  | cut | done => exact List.forall_mem_nil P
  | act _ ih => exact List.forall_mem_cons.2 ⟨hp.1, ih (hk.perform _) (hp.2 _ (hk.answers _))⟩
  | fail hf _ ih => exact List.forall_mem_cons.2 ⟨hp.1, ih (hk.fails hf) (hp.2 _ (Call.answers_error ..))⟩
  | gather hg _ ih =>
    rw [calls_append]
    exact List.forall_mem_append.2 ⟨hg.asks hp.1, ih (hk.edited hg.quiet.edited) (hp.2 _)⟩
  | gatherCut hg => exact hg.asks hp.1
  | publish _ ih | record _ ih => exact ih hk hp
  | edit _ _ ih => exact ih (hk.edit _) hp

/-- **What edits and the calls of a run keep, holds wherever the run ends.** -/
theorem Pass.Run.keeps {α : Type} {J : Cluster → Prop} {p : Pass α} {w w' : Cluster} {t : List Move} {r : Option α}
    (h : Run A p w t w' r) (hw : J w) (hedits : ∀ x, A x → .edited x ∈ t → ∀ y, J y → J (y.edit x))
    (hcalls : ∀ c ∈ calls t, ∀ y z, y.Leaves c z → J y → J z) : J w' := by
  have gathered {refs acc w t w' r} (h : Gathers A refs acc w t w' r) (hw : J w)
      (hedits : ∀ x, A x → .edited x ∈ t → ∀ y, J y → J (y.edit x)) : J w' := by
    induction h with
    | cut | done | missing | failed => exact hw
    | found _ _ _ ih => exact ih hw fun x hx hm => hedits x hx (List.mem_cons_of_mem _ hm)
    | edit hx _ ih =>
      refine ih (hedits _ hx List.mem_cons_self _ hw) fun x hx hm => hedits x hx (List.mem_cons_of_mem _ hm)
  induction h with
  | cut | done => exact hw
  | act _ ih =>
    refine ih (hcalls _ List.mem_cons_self _ _ (.inl rfl) hw)
      (fun x hx hm => hedits x hx (List.mem_cons_of_mem _ hm)) ?_
    exact fun c hc => hcalls c (List.mem_cons_of_mem _ hc)
  | fail hf _ ih =>
    refine ih (hcalls _ List.mem_cons_self _ _ (.inr hf) hw) (fun x hx hm => hedits x hx (List.mem_cons_of_mem _ hm)) ?_
    exact fun c hc => hcalls c (List.mem_cons_of_mem _ hc)
  | gather hg _ ih =>
    rw [calls_append] at hcalls
    refine ih (gathered hg hw fun x hx hm => hedits x hx (List.mem_append_left _ hm))
      (fun x hx hm => hedits x hx (List.mem_append_right _ hm)) ?_
    exact fun c hc => hcalls c (List.mem_append_right _ hc)
  | gatherCut hg => exact gathered hg hw hedits
  | publish _ ih | record _ ih => exact ih hw (fun x hx hm => hedits x hx (List.mem_cons_of_mem _ hm)) hcalls
  | edit hx _ ih =>
    exact ih (hedits _ hx List.mem_cons_self _ hw) (fun x hx hm => hedits x hx (List.mem_cons_of_mem _ hm)) hcalls

/-! ## Attempts -/

namespace Attempt

variable {α β : Type} {F : (c : Call) → Except Error c.Answer → Prop} {P P' : Call → Prop} {Q : α → Prop}
  {R : β → Prop}

def AsksIf (F : (c : Call) → Except Error c.Answer → Prop) (P : Call → Prop) (Q : α → Prop) (x : Attempt α) : Prop :=
  x.run.AsksIf F P fun r => ∀ a, r = .ok a → Q a

abbrev Asks (P : Call → Prop) (Q : α → Prop) (x : Attempt α) : Prop := x.AsksIf Call.Answers P Q

theorem AsksIf.mono {x : Attempt α} (h : x.AsksIf F P Q) (hP : ∀ c, P c → P' c) : x.AsksIf F P' fun _ => True :=
  Pass.AsksIf.mono hP (fun _ _ _ _ => trivial) h

theorem AsksIf.bind {x : Attempt α} {f : α → Attempt β} (hx : x.AsksIf F P Q) (hf : ∀ a, Q a → (f a).AsksIf F P R) :
    (x >>= f).AsksIf F P R := by
  show (x >>= f).run.AsksIf F P _
  rw [bind_run]
  refine Pass.AsksIf.bind (fun r hr => ?_) hx
  cases r with
  | ok a => exact hf a (hr a rfl)
  | error => exact nofun

theorem asks_pure {a : α} (h : Q a) : (pure a : Attempt α).AsksIf F P Q := fun _ hb => by
  cases hb
  exact h

theorem asks_throw (e : Error) : (throw e : Attempt α).AsksIf F P Q := nofun

theorem asks_ofExcept (r : Except Error α) : (ofExcept r).AsksIf F P fun a => r = .ok a := fun _ h => h

theorem asks_call {c : Call} (h : P c) : (call c).AsksIf F P fun a => F c (.ok a) := by
  refine ⟨h, fun r hr a ha => ?_⟩
  cases ha
  exact hr

theorem asks_tryCall {c : Call} (h : P c) : (tryCall c).AsksIf F P fun _ => True := ⟨h, fun _ _ _ _ => trivial⟩

theorem asks_gather {refs : List Reference} (h : ∀ ref ∈ refs, P (lookup ref)) :
    (gather refs).AsksIf F P fun _ => True :=
  ⟨h, fun _ _ _ => trivial⟩

theorem asks_publish (e : Event) : (publish e).AsksIf F P fun _ => True := fun _ _ => trivial

theorem asks_record (m : Measurement) : (record m).AsksIf F P fun _ => True := fun _ _ => trivial

theorem AsksIf.tryCatch {x : Attempt α} {f : Error → Attempt α} (hx : x.AsksIf F P Q)
    (hf : ∀ e, (f e).AsksIf F P Q) : (tryCatch x f).AsksIf F P Q := by
  refine Pass.AsksIf.bind (fun r hr => ?_) hx
  cases r with
  | ok a => exact hr
  | error e => exact hf e

end Attempt

/-! ## Passes over apps -/

namespace App

open Attempt

variable {F : (c : Call) → Except Error c.Answer → Prop} {s : Settings} {a : App} {key : ObjectKey} {e : Executor}

theorem executorOrWarn_asks {P : Call → Prop} {ns : String} (hP : P (.getExecutor a.spec.executor ns)) :
    (a.executorOrWarn ns).AsksIf F P fun _ => True := by
  refine (asks_call hP).bind fun o _ => ?_
  cases o with
  | none => exact (asks_publish _).bind fun _ _ => asks_throw _
  | some e => exact asks_pure trivial

theorem publishStatus_asks {P : Call → Prop} (hd : P (.getDeployment a.name a.ns))
    (hp : ∀ version status, P (.patchAppStatus a.name a.ns version status)) :
    (a.publishStatus s e).AsksIf F P fun _ => True :=
  (asks_call hd).bind fun _ _ => (asks_tryCall (hp _ _)).bind fun _ _ => asks_pure trivial

inductive Tends (s : Settings) (a : App) (key : ObjectKey) (e : Executor) : Call → Prop
  | look {ref} (h : ref ∈ (References.ofApp a).toList) : Tends s a key e (lookup ref)
  | configure {text x} (h : a.configSecret (Document.secretName a.name text) text = .ok x) :
      Tends s a key e (.createSecret x)
  | certify {bundle} (h : s.caBundle = some bundle) : Tends s a key e (.createSecret (caSecret a.ns bundle))
  | apply {generated ca d} (hc : e.spec.createDeployment = true)
      (h : a.deployment e.spec.config generated ca = .ok d) : Tends s a key e (.applyDeployment d)
  | prune (keep : Option String) : Tends s a key e (.pruneSecrets a.name a.ns keep)
  | delete : Tends s a key e (.deleteDeployment key.name key.ns)
  | serve {v} (h : a.service = .ok v) : Tends s a key e (.applyService v)

theorem documentOrWarn_asks : a.documentOrWarn.AsksIf F (Tends s a key e) fun _ => True := by
  have resolve : a.resolveDocument.AsksIf F (Tends s a key e) fun _ => True := by
    refine (asks_gather fun _ => .look).bind fun resolved _ => ?_
    by_cases hv : a.spec.runtimeConfig.verbatimSecret.isSome = true
    · rw [if_pos hv]
      exact asks_pure trivial
    · rw [if_neg hv]
      exact (asks_ofExcept _).bind fun _ _ => asks_pure trivial
  refine resolve.tryCatch fun err => ?_
  cases err with
  | missingDependency => exact (asks_publish _).bind fun _ _ => asks_throw _
  | kube | runtimeConfig | construct | dependentsExist | serialization | timeout | internal => exact asks_throw _

theorem ensureConfigSecret_asks : a.ensureConfigSecret.AsksIf F (Tends s a key e) fun _ => True := by
  refine documentOrWarn_asks.bind fun o _ => ?_
  cases o with
  | none => exact asks_pure trivial
  | some d =>
    exact (asks_ofExcept _).bind fun x hx => (asks_call (.configure hx)).bind fun _ _ => asks_pure trivial

theorem ensureCaSecret_asks (c : DeploymentConfig) :
    (a.ensureCaSecret s c).AsksIf F (Tends s a key e) fun _ => True := by
  unfold App.ensureCaSecret
  cases c.caSecret with
  | some name => exact asks_pure trivial
  | none =>
    by_cases hi : (!c.installDefaultCACerts) = true
    · simp only [if_pos hi]
      exact asks_pure trivial
    simp only [if_neg hi]
    cases hb : s.caBundle with
    | none => exact asks_throw _
    | some b => exact (asks_call (.certify hb)).bind fun _ _ => asks_pure trivial

theorem deploymentOrWarn_asks (c : DeploymentConfig) (generated ca : Option String) :
    (a.deploymentOrWarn c generated ca).AsksIf F (Tends s a key e) fun d => a.deployment c generated ca = .ok d := by
  unfold App.deploymentOrWarn
  cases a.deployment c generated ca with
  | ok d => exact asks_pure rfl
  | error err => exact (asks_publish _).bind fun _ _ => asks_throw _

theorem realize_asks (hc : e.spec.createDeployment = true) :
    (a.realize s e.spec.config).AsksIf F (Tends s a key e) fun _ => True := by
  refine ensureConfigSecret_asks.bind fun generated _ => ?_
  refine (ensureCaSecret_asks _).bind fun ca _ => ?_
  refine (deploymentOrWarn_asks _ generated ca).bind fun d hd => ?_
  refine (asks_call (.apply hc hd)).bind fun _ _ => ?_
  exact (asks_call (.prune generated)).mono fun _ => id

/-- **The calls of a pass that brings the children of an app up to date.** -/
theorem converge_asks (executor : String) : (a.converge s key executor e).AsksIf F (Tends s a key e) fun _ => True := by
  unfold App.converge
  by_cases hd : a.metadata.isDeleting = true
  · rw [if_pos hd]
    exact asks_pure trivial
  rw [if_neg hd]
  have serve : (do
      let service ← Attempt.ofExcept a.service
      Attempt.call (.applyService service)
      Attempt.record (.appInfo key.name key.ns executor)
      return .awaitChange : Attempt Action).AsksIf F (Tends s a key e) fun _ => True := by
    refine (asks_ofExcept _).bind fun v hv => (asks_call (.serve hv)).bind fun _ _ => ?_
    exact (asks_record _).bind fun _ _ => asks_pure trivial
  by_cases hc : e.spec.createDeployment = true
  · simp only [if_pos hc]
    exact (realize_asks hc).bind fun _ _ => serve
  · simp only [if_neg hc]
    exact (asks_call .delete).bind fun _ _ => serve

/-- **What a pass asks for**: the app, the executor that it names, what is needed to write down its status, and what
brings its children up to date. -/
theorem pass_asks_if {P : Call → Prop} {G : App → Prop} (hF : ∀ a, F (.getApp key.name key.ns) (.ok (some a)) → G a)
    (hkey : ∀ a, G a → a.metadata.key = key) (hget : P (.getApp key.name key.ns))
    (hexecutor : ∀ n, P (.getExecutor n key.ns)) (hdeployment : P (.getDeployment key.name key.ns))
    (hstatus : ∀ version status, P (.patchAppStatus key.name key.ns version status))
    (hchildren : ∀ a e c, G a → Tends s a key e c → P c) : (App.pass s key).AsksIf F P fun _ => True := by
  unfold App.pass
  refine .bind (asks_call hget) fun o ho => ?_
  cases o with
  | none => exact asks_pure trivial
  | some a =>
    refine .bind (executorOrWarn_asks (hexecutor _)) fun e _ => ?_
    have converge {b : App} (hb : G b) : (b.converge s key a.spec.executor e).AsksIf F P fun _ => True :=
      (converge_asks a.spec.executor).mono fun c hc => hchildren b e c hb hc
    by_cases hc : e.spec.createDeployment = true
    · simp only [if_pos hc]
      have hn : a.name = key.name := congrArg ObjectKey.name (hkey a (hF a ho))
      have hns : a.ns = key.ns := congrArg ObjectKey.ns (hkey a (hF a ho))
      refine .bind (publishStatus_asks (hn ▸ hns ▸ hdeployment) fun v st => hn ▸ hns ▸ hstatus v st) fun _ _ => ?_
      refine .bind (asks_call hget) fun o ho => ?_
      cases o with
      | none => exact asks_pure trivial
      | some fresh => exact converge (hF fresh ho)
    · simp only [if_neg hc]
      exact converge (hF a ho)

theorem pass_asks_of {P : Call → Prop} (hget : P (.getApp key.name key.ns)) (hexecutor : ∀ n, P (.getExecutor n key.ns))
    (hdeployment : P (.getDeployment key.name key.ns))
    (hstatus : ∀ version status, P (.patchAppStatus key.name key.ns version status))
    (hchildren : ∀ a e c, a.metadata.key = key → Tends s a key e c → P c) : (App.pass s key).Asks P fun _ => True :=
  pass_asks_if (fun a h => h a rfl) (fun _ h => h) hget hexecutor hdeployment hstatus hchildren

end App

end SpinFleet
