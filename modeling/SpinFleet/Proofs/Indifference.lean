import SpinFleet.Proofs.Asking
import SpinFleet.Proofs.Lockstep
/-!
# Indifference — the status of an app never steers its children

Two passes over the same app are in step, whatever was observed of the app and whatever the clock shows
(`App.pass_inStep`), so runs of them make the same calls for the children of the app (`App.children_ignore_status`).
-/
namespace SpinFleet

open Simulation

/-- **A pass that asks for no app is in step with itself.** -/
theorem Pass.Asks.inStep {α : Type} {P : Call → Prop} {Q : α → Prop}
    (hP : ∀ c, P c → ∀ r r', c.AnswersAlike r r' → r = r' ∧ c.Answers r) :
    ∀ {p : Pass α}, p.Asks P Q → p.InStep Eq p
  | .done _, _ => .done rfl
  | .call c _, h => .call c fun r r' hr => by
    obtain ⟨rfl, ha⟩ := hP c h.1 r r' hr
    exact Asks.inStep hP (h.2 r ha)
  | .gather refs _, h => .gather refs fun r => Asks.inStep hP (h.2 r)
  | .publish e next, h => .publish e (Asks.inStep (p := next) hP h)
  | .record m next, h => .record m (Asks.inStep (p := next) hP h)

theorem alike_eq_iff {α : Type} {r r' : Except Error α} : Alike Eq r r' ↔ r = r' := by
  cases r <;> cases r' <;> simp [Alike]

namespace Attempt

variable {α β γ δ : Type} {R : α → β → Prop} {S : γ → δ → Prop}

def InStep (R : α → β → Prop) (x : Attempt α) (y : Attempt β) : Prop := Pass.InStep (Alike R) x.run y.run

theorem InStep.bind {x : Attempt α} {y : Attempt β} {f : α → Attempt γ} {g : β → Attempt δ} (h : InStep R x y)
    (hf : ∀ a b, R a b → InStep S (f a) (g b)) : InStep S (x >>= f) (y >>= g) := by
  show Pass.InStep _ (x >>= f).run (y >>= g).run
  rw [bind_run, bind_run]
  refine Pass.InStep.bind h fun r r' hr => ?_
  match r, r', hr with
  | .ok a, .ok b, hr => exact hf a b hr
  | .error _, .error _, hr => exact .done hr

theorem inStep_pure {a : α} {b : β} (h : R a b) : InStep R (pure a : Attempt α) (pure b : Attempt β) := .done h

theorem inStep_throw (e : Error) : InStep R (throw e : Attempt α) (throw e : Attempt β) := .done rfl

theorem inStep_call (c : Call) : Pass.InStep c.AnswersAlike (call c).run (call c).run := .call c fun _ _ => .done

theorem inStep_publish (e : Event) : InStep Eq (publish e) (publish e) := .publish e (.done rfl)

end Attempt

namespace App

open Attempt

variable {s s' : Settings} {a b : App} {key : ObjectKey} {e : Executor}

theorem executorOrWarn_inStep (hd : a.Declares b) (ns : String) :
    InStep Eq (a.executorOrWarn ns) (b.executorOrWarn ns) := by
  obtain ⟨v, st, rfl⟩ := hd.exists_eq
  refine InStep.bind (R := Eq) ((inStep_call _).mono fun r r' hr => alike_eq_iff.2 hr) fun o _ ho => ?_
  subst ho
  cases o with
  | none => exact (inStep_publish _).bind fun _ _ _ => inStep_throw _
  | some e => exact inStep_pure rfl

/-- The observed status and its version are written down, but nothing that follows depends on them. -/
theorem publishStatus_inStep (hd : a.Declares b) (e : Executor) :
    InStep Eq (a.publishStatus s e) (b.publishStatus s' e) := by
  obtain ⟨v, st, rfl⟩ := hd.exists_eq
  refine InStep.bind (R := Eq) ((inStep_call _).mono fun r r' hr => alike_eq_iff.2 hr) fun d _ hd => ?_
  subst hd
  exact .patch _ _ fun _ _ => .done rfl

theorem converge_inStep (a : App) (executor : String) :
    InStep Eq (a.converge s key executor e) (a.converge s key executor e) := by
  refine (Pass.Asks.inStep (fun c hc r r' hr => ?_) (converge_asks (s := s) executor)).mono fun _ _ => alike_eq_iff.2
  cases hc with
  | @look ref => cases ref <;> exact ⟨hr, trivial⟩
  | configure | certify | apply | prune | delete | serve => exact ⟨hr, trivial⟩

theorem Declares.converge_eq (hd : a.Declares b) (hs : s'.caBundle = s.caBundle) (executor : String) :
    b.converge s' key executor e = a.converge s key executor e := by
  obtain ⟨v, st, rfl⟩ := hd.exists_eq
  obtain ⟨bundle, now⟩ := s
  obtain ⟨_, now'⟩ := s'
  cases hs
  rfl

/-- **Two passes over the same app are in step**, whatever was observed of it and whatever the clock shows. -/
theorem pass_inStep (hs : s'.caBundle = s.caBundle) (key : ObjectKey) :
    InStep Eq (App.pass s key) (App.pass s' key) := by
  refine InStep.bind (inStep_call _) fun o o' ho => ?_
  cases ho with
  | none => exact inStep_pure rfl
  | @some a b hd =>
    refine (executorOrWarn_inStep hd key.ns).bind fun e _ he => ?_
    subst he
    cases hc : e.spec.createDeployment with
    | false =>
      simp only [Bool.false_eq_true, if_false]
      rw [hd.spec, hd.converge_eq hs]
      exact converge_inStep a _
    | true =>
      simp only [if_true]
      refine (publishStatus_inStep hd e).bind fun _ _ _ => ?_
      refine InStep.bind (inStep_call _) fun f f' hf => ?_
      cases hf with
      | none => exact inStep_pure rfl
      | @some f f' hf =>
        show InStep Eq (f.converge s key a.spec.executor e) (f'.converge s' key b.spec.executor e)
        rw [hd.spec, hf.converge_eq hs]
        exact converge_inStep f _

end App

namespace App

/-- **The children of an app ignore its status.**  Two passes over apps that differ at most in their statuses and
versions make the same calls for their children, which go the same way, and end with the same result; so do two passes
of which one can write down the status and the other cannot, whatever else happens to both of them. -/
theorem children_ignore_status {w v : Cluster} {script script' : List Cue} {s s' : Settings} (hw : w.SameDeclared v)
    (hc : ScriptsAlike script script') (hs : s'.caBundle = s.caBundle) (deadline : Option Nat) (key : ObjectKey) :
    let r := run deadline (App.pass s key).run (.ofCluster w script)
    let r' := run deadline (App.pass s' key).run (.ofCluster v script')
    r'.1.childCalls = r.1.childCalls ∧ r'.2 = r.2 ∧ r.1.cluster.SameDeclared r'.1.cluster := by
  obtain ⟨h, hr⟩ := run_inStep deadline (pass_inStep hs key) (World.inStep_ofCluster hw hc)
  dsimp only
  refine ⟨h.childCalls_eq, ?_, h.cluster⟩
  generalize (run deadline (App.pass s key).run (.ofCluster w script)).2 = r,
    (run deadline (App.pass s' key).run (.ofCluster v script')).2 = r' at hr
  cases hr with
  | none => rfl
  | some hr => exact congrArg some (alike_eq_iff.1 hr).symm

/-- Lets every writing of a status fail. -/
def refusal (e : Error) : Cue := ⟨"patch_app_status", none, none, 0, some e, []⟩

theorem scriptsAlike_refusal (e : Error) : ScriptsAlike [] [refusal e] := fun c n => by
  cases c with
  | patchAppStatus => exact ⟨rfl, rfl⟩
  | _ => rfl

/-- A pass that cannot write down the status of an app that was observed before, next to one over an app that was never
observed. -/
theorem children_ignore_status_refused :
    let w := Sample.cluster (Sample.storeAt "a")
    let observed := (w.perform (.patchAppStatus "hello" "default" "" ⟨[], some "shim", 3⟩)).cluster
    let r := Sample.pass none [] w
    let r' := Sample.pass none [refusal Cluster.versionConflict] observed
    (r'.1.childCalls = r.1.childCalls ∧ r'.2 = r.2 ∧ r.1.cluster.SameDeclared r'.1.cluster) ∧
      r.1.childCalls.map (fun c => (c.1.verb, c.2)) =
        [("create_secret_if_absent", .created), ("apply_deployment", .done),
          ("prune_runtime_config_secrets", .pruned []), ("apply_service", .done)] ∧
      (r.1.cluster.apps.get? Sample.key >>= App.status).map AppStatus.readyReplicas = some 0 ∧
      (r'.1.cluster.apps.get? Sample.key >>= App.status).map AppStatus.readyReplicas = some 3 :=
  ⟨children_ignore_status (Cluster.sameDeclared_patch ..) (scriptsAlike_refusal _) rfl none Sample.key,
    by decide +kernel, by decide +kernel, by decide +kernel⟩

end App
end SpinFleet
