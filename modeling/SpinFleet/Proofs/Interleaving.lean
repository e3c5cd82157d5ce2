import SpinFleet.Proofs.AppPlan
import SpinFleet.Proofs.Asking
/-!
# Interleaving — what others do between the calls of a pass

A run is its calls with the edits of others in between.  `Pass.Run.of_call` and `Attempt.run_call_bind` take a run apart
at its first call and name the edits before it, so that the cluster which the call reaches is known exactly: it is what
these edits have made of the one before.

Taken apart this way, a pass that gets as far as writing down a status has made four calls, the last of them the write
(`App.StatusWrite`).  A pass that does not get there has ended early (`App.EndsEarly`): it was cut, a look-up failed, or
what it found is nothing to write a status for.  It writes no status then, and applies no `Deployment` either
(`App.pass_writes_status`).
-/
namespace SpinFleet

variable {A : Edit → Prop} {w w' : Cluster} {t : List Move}

def Move.edit? : Move → Option Edit
  | .edited x => some x
  | _ => none

def edits (t : List Move) : List Edit := t.filterMap Move.edit?

@[simp] theorem edits_append (t u : List Move) : edits (t ++ u) = edits t ++ edits u := List.filterMap_append ..

@[simp] theorem edits_acted (w : Cluster) (c : Call) (t : List Move) : edits (.acted w c :: t) = edits t := rfl

@[simp] theorem edits_edited (xs : List Edit) : edits (xs.map .edited) = xs := by
  induction xs with
  | nil => rfl
  | cons x xs ih => exact congrArg (x :: ·) ih

theorem filterMap_edited {α : Type} {f : Move → Option α} (hf : ∀ x, f (.edited x) = none) (xs : List Edit) :
    (xs.map .edited).filterMap f = [] := by
  refine List.filterMap_eq_nil_iff.2 fun m hm => ?_
  obtain ⟨x, -, rfl⟩ := List.mem_map.1 hm
  exact hf x

@[simp] theorem calls_edited (xs : List Edit) : calls (xs.map .edited) = [] := filterMap_edited (fun _ => rfl) xs

namespace Cluster

def editAll (w : Cluster) (xs : List Edit) : Cluster := xs.foldl Cluster.edit w

theorem editAll_append (w : Cluster) (xs ys : List Edit) : w.editAll (xs ++ ys) = (w.editAll xs).editAll ys :=
  List.foldl_append

theorem Keyed.editAll (h : w.Keyed) (xs : List Edit) : (w.editAll xs).Keyed := by
  induction xs generalizing w with
  | nil => exact h
  | cons x xs ih => exact ih (h.edit x)

end Cluster

theorem Cluster.answer_read (w : Cluster) {c : Call} (hc : c.isWrite = false) : ∃ a, (w.perform c).answer = .ok a := by
  cases c <;> first | exact ⟨_, rfl⟩ | cases hc

/-- Whether a call neither writes down a status nor applies a `Deployment`. -/
def Call.isAside : Call → Bool
  | .patchAppStatus .. | .applyDeployment _ => false
  | _ => true

inductive Call.Goes (w : Cluster) (c : Call) : Move → Cluster → Except Error c.Answer → Prop
  | acted : Goes w c (.acted w c) (w.perform c).cluster (w.perform c).answer
  | failed {e w'} (h : w.Fails c w') : Goes w c (.failed c e) w' (.error e)

theorem Call.Goes.elim {c : Call} {m : Move} {r : Except Error c.Answer} (h : c.Goes w m w' r) :
    (m = .acted w c ∧ w' = (w.perform c).cluster) ∨ ∃ e, m = .failed c e ∧ w.Fails c w' := by
  cases h with
  | acted => exact .inl ⟨rfl, rfl⟩
  | failed hf => exact .inr ⟨_, rfl, hf⟩

theorem Call.Goes.keyed {c : Call} {m : Move} {r : Except Error c.Answer} (h : c.Goes w m w' r) (hk : w.Keyed) :
    w'.Keyed := by
  cases h with
  | acted => exact hk.perform c
  | failed hf => exact hk.fails hf

theorem Call.Goes.calls_eq {c : Call} {m : Move} {r : Except Error c.Answer} (h : c.Goes w m w' r) (t : List Move) :
    calls (m :: t) = c :: calls t := by
  cases h <;> rfl

theorem Call.Goes.edits_eq {c : Call} {m : Move} {r : Except Error c.Answer} (h : c.Goes w m w' r) (t : List Move) :
    edits (m :: t) = edits t := by
  cases h <;> rfl

namespace Call

variable {α : Type} {r : Option (Except Error α)} {c c' : Call}

/-- A run comes to its end at a call: it was cut before the call, or the call failed and the run fails with it. -/
inductive BreaksOff (c : Call) : List Move → Option (Except Error α) → Prop
  | cut (xs : List Edit) : BreaksOff c (xs.map .edited) none
  | failed (xs ys : List Edit) {e r} (hr : r = none ∨ r = some (.error e)) :
      BreaksOff c (xs.map .edited ++ .failed c e :: ys.map .edited) r

theorem BreaksOff.call_eq (h : c.BreaksOff t r) (hc : c' ∈ calls t) : c' = c := by
  cases h with
  | cut => simp at hc
  | failed =>
    simpa using hc

/-- A run begins with a call: others edit until it acts in the cluster `x`, and `u` is what is left of the run. -/
def Begins (c : Call) (w : Cluster) (t : List Move) (x : Cluster) (u : List Move) : Prop :=
  ∃ xs : List Edit, x = w.editAll xs ∧ t = xs.map .edited ++ .acted x c :: u

theorem Begins.calls_eq {x : Cluster} {u : List Move} (h : c.Begins w t x u) : calls t = c :: calls u := by
  obtain ⟨xs, -, rfl⟩ := h
  rw [calls_append, calls_edited]
  rfl

end Call

namespace Pass

variable {α β : Type}

theorem Run.of_done {a : α} {r : Option α} (h : Run A (.done a) w t w' r) : ∃ xs : List Edit,
    t = xs.map .edited ∧ w' = w.editAll xs := by
  generalize hp : Pass.done a = p at h
  induction h with
  | cut | done => exact ⟨[], rfl, rfl⟩
  | @edit _ _ x _ _ _ _ _ ih =>
    obtain ⟨xs, rfl, rfl⟩ := ih hp
    exact ⟨x :: xs, rfl, rfl⟩
  | act | fail | gather | gatherCut | publish | record => cases hp

/-- **A run that is to begin with a call** sees others edit, and then the call go on, unless it was cut before. -/
theorem Run.of_call {c : Call} {next : Except Error c.Answer → Pass α} {r : Option α}
    (h : Run A (.call c next) w t w' r) : ∃ xs : List Edit,
      (r = none ∧ t = xs.map .edited ∧ w' = w.editAll xs) ∨
      ∃ m y answer u, t = xs.map .edited ++ m :: u ∧ c.Goes (w.editAll xs) m y answer ∧
        Run A (next answer) y u w' r := by
  generalize hp : Pass.call c next = p at h
  induction h with
  | cut => exact ⟨[], .inl ⟨rfl, rfl, rfl⟩⟩
  | act h =>
    cases hp
    exact ⟨[], .inr ⟨_, _, _, _, rfl, .acted, h⟩⟩
  | fail hf h =>
    cases hp
    exact ⟨[], .inr ⟨_, _, _, _, rfl, .failed hf, h⟩⟩
  | @edit _ _ x _ _ _ _ _ ih =>
    obtain ⟨xs, ⟨rfl, rfl, rfl⟩ | ⟨m, y, answer, u, rfl, hm, hu⟩⟩ := ih hp
    · exact ⟨x :: xs, .inl ⟨rfl, rfl, rfl⟩⟩
    · exact ⟨x :: xs, .inr ⟨m, y, answer, u, rfl, hm, hu⟩⟩
  | done | gather | gatherCut | publish | record => cases hp

end Pass

namespace Attempt

variable {α β : Type}

theorem run_of_bind {x : Attempt α} {f : α → Attempt β} {a : α} {w₁ : Cluster} {u : List Move}
    {r : Option (Except Error β)} (h : Pass.Run A x.run w t w₁ (some (.ok a))) (h' : Pass.Run A (f a).run w₁ u w' r) :
    Pass.Run A (x >>= f).run w (t ++ u) w' r := by
  rw [bind_run]
  exact Pass.Run.bind h h'

theorem call_bind (c : Call) (f : c.Answer → Attempt β) : (call c >>= f).run = .call c fun r => match r with
    | .ok a => (f a).run
    | .error e => .done (.error e) := by
  rw [bind_run]
  show Pass.call c _ = Pass.call c _
  congr 1
  funext r
  cases r <;> rfl

theorem call_bind_bind {γ : Type} (c : Call) (f : c.Answer → Attempt β) (g : β → Attempt γ) :
    (call c >>= f >>= g).run = (call c >>= fun a => f a >>= g).run := by
  show Pass.call _ _ = Pass.call _ _
  congr 1
  funext r
  cases r <;> rfl

theorem tryCall_bind (c : Call) (f : Except Error c.Answer → Attempt β) :
    (tryCall c >>= f).run = .call c fun r => (f r).run := by
  rw [bind_run]
  rfl

/-- A run that is to begin with a read and goes on with what it was answered: it breaks off, or it was answered with
what the cluster held just then. -/
theorem run_call_bind {c : Call} {f : c.Answer → Attempt β} {r : Option (Except Error β)} (hc : c.isWrite = false)
    (h : Pass.Run A (call c >>= f).run w t w' r) :
    c.BreaksOff t r ∨
    ∃ (xs : List Edit) (a : c.Answer) (u : List Move), t = xs.map .edited ++ .acted (w.editAll xs) c :: u ∧
      ((w.editAll xs).perform c).answer = .ok a ∧ Pass.Run A (f a).run (w.editAll xs) u w' r := by
  rw [call_bind] at h
  obtain ⟨xs, ⟨rfl, rfl, -⟩ | ⟨m, y, answer, u, rfl, hm, hu⟩⟩ := h.of_call
  · exact .inl (.cut xs)
  · cases hm with
    | acted =>
      obtain ⟨a, ha⟩ := (w.editAll xs).answer_read hc
      rw [Cluster.perform_read _ hc, ha] at hu
      exact .inr ⟨xs, a, u, rfl, ha, hu⟩
    | failed =>
      obtain ⟨ys, rfl, -⟩ := hu.of_done
      exact .inl (.failed xs ys (Pass.done_run (β := Unit) hu).1)

theorem run_of_call {c : Call} {a : c.Answer} (ha : (w.perform c).answer = .ok a) :
    Pass.Run A (call c).run w [.acted w c] (w.perform c).cluster (some (.ok a)) :=
  ha ▸ .act .done

theorem run_of_read {c : Call} {a : c.Answer} (hc : c.isWrite = false) (ha : (w.perform c).answer = .ok a) :
    Pass.Run A (call c).run w [.acted w c] w (some (.ok a)) := by
  have h := run_of_call (A := A) ha
  rwa [w.perform_read hc] at h

end Attempt

namespace App

open Attempt

variable {s : Settings} {key : ObjectKey} {a : App} {e : Executor} {r : Option (Except Error Action)}

theorem executorOrWarn_bind_run {ns : String} {f : Executor → Attempt Action} (hk : w.Keyed)
    (h : Pass.Run A (a.executorOrWarn ns >>= f).run w t w' r) :
    (Call.getExecutor a.spec.executor ns).BreaksOff t r ∨
    ∃ x u, (Call.getExecutor a.spec.executor ns).Begins w t x u ∧
      ((x.executors.get? ⟨ns, a.spec.executor⟩ = none ∧ calls u = []) ∨
        ∃ e, x.executors.get? ⟨ns, a.spec.executor⟩ = some e ∧ Pass.Run A (f e).run x u w' r) := by
  unfold App.executorOrWarn at h
  rw [call_bind_bind] at h
  rcases run_call_bind rfl h with h | ⟨xs, o, u, rfl, ho, h⟩
  · exact .inl h
  have ho : (w.editAll xs).executors.get? ⟨ns, a.spec.executor⟩ = o := by injection ho
  refine .inr ⟨_, u, ⟨xs, rfl, rfl⟩, ?_⟩
  cases o with
  | some e => exact .inr ⟨e, ho, h⟩
  | none =>
    -- the warning is no call, and after it nothing comes
    have hasks (ev : Event) (err : Error) :
        ((Attempt.publish ev >>= fun _ => throw err) >>= f).Asks (fun _ => False) fun _ => True :=
      ((asks_publish ev).bind fun _ _ => asks_throw err).bind fun _ (hno : False) => hno.elim
    exact .inl ⟨ho, List.eq_nil_iff_forall_not_mem.2 (h.asks (hk.editAll xs) (hasks _ _))⟩

/-! ## The status write of a pass -/

/-- What a pass goes on with after it has written down the status of an app: it looks up the app anew. -/
def finishing (s : Settings) (key : ObjectKey) (a : App) (e : Executor) : Attempt Action := do
  match ← Attempt.call (.getApp key.name key.ns) with
  | none => return .awaitChange
  | some fresh => fresh.converge s key a.spec.executor e

theorem publishStatus_bind (f : Unit → Attempt Action) : (a.publishStatus s e >>= f).run = (do
    let d ← Attempt.call (.getDeployment a.name a.ns)
    let _ ← Attempt.tryCall (a.statusPatch s e d)
    f () : Attempt Action).run := by
  show Pass.call _ _ = Pass.call _ _
  congr 1
  funext r
  cases r <;> rfl

/-- A pass that gets as far as writing down a status: what it has read, one after the other, what others did before each
read and before the write, and how the write went. -/
structure StatusWrite (A : Edit → Prop) (w : Cluster) (t : List Move) (s : Settings) (key : ObjectKey) (w' : Cluster)
    (r : Option (Except Error Action)) where
  early : List Edit
  app : App
  app_found : (w.editAll early).apps.get? key = some app
  second : List Edit
  executor : Executor
  executor_found : (w.editAll (early ++ second)).executors.get? ⟨key.ns, app.spec.executor⟩ = some executor
  creating : executor.spec.createDeployment = true
  third : List Edit
  deployment : Option Deployment
  deployment_found : (w.editAll (early ++ second ++ third)).deployments.get? ⟨app.ns, app.name⟩ = deployment
  fourth : List Edit
  move : Move
  answer : Except Error Unit
  after : Cluster
  goes : (app.statusPatch s executor deployment).Goes (w.editAll (early ++ second ++ third ++ fourth)) move after answer
  late : List Move
  /-- Whatever came of the write, the pass goes on. -/
  rest : Pass.Run A (app.finishing s key executor).run after late w' r
  trace_eq : t = early.map .edited ++ .acted (w.editAll early) (.getApp key.name key.ns) ::
    (second.map .edited ++ .acted (w.editAll (early ++ second)) (.getExecutor app.spec.executor key.ns) ::
      (third.map .edited ++ .acted (w.editAll (early ++ second ++ third)) (.getDeployment app.name app.ns) ::
        (fourth.map .edited ++ move :: late)))

theorem StatusWrite.key_eq (p : StatusWrite A w t s key w' r) (hk : w.Keyed) : p.app.metadata.key = key :=
  (hk.editAll _).apps _ _ p.app_found

theorem StatusWrite.calls_eq (p : StatusWrite A w t s key w' r) : calls t =
    [.getApp key.name key.ns, .getExecutor p.app.spec.executor key.ns, .getDeployment p.app.name p.app.ns,
      p.app.statusPatch s p.executor p.deployment] ++ calls p.late := by
  have ht := congrArg calls p.trace_eq
  simpa [p.goes.calls_eq] using ht

theorem Tends.isAside {c : Call} (h : Tends s a key e c) (hc : e.spec.createDeployment = false) : c.isAside = true := by
  cases h with
  | @look ref => cases ref <;> rfl
  | apply hc' => cases hc.symm.trans hc'
  | configure | certify | prune | delete | serve => rfl

/-- A pass that has found an app ends before it has come to writing the status of that app. -/
inductive EndsFor (a : App) (key : ObjectKey) (w : Cluster) (t : List Move) (r : Option (Except Error Action)) : Prop
  | unread (h : (Call.getExecutor a.spec.executor key.ns).BreaksOff t r)
  | absent {x u} (h : (Call.getExecutor a.spec.executor key.ns).Begins w t x u)
      (he : x.executors.get? ⟨key.ns, a.spec.executor⟩ = none)
  | external {x u e} (h : (Call.getExecutor a.spec.executor key.ns).Begins w t x u)
      (he : x.executors.get? ⟨key.ns, a.spec.executor⟩ = some e) (hc : e.spec.createDeployment = false)
  /-- The executor is there and makes `Deployment`s, but the `Deployment` could not be looked up. -/
  | unobserved {x u e} (h : (Call.getExecutor a.spec.executor key.ns).Begins w t x u)
      (he : x.executors.get? ⟨key.ns, a.spec.executor⟩ = some e) (hc : e.spec.createDeployment = true)
      (hd : (Call.getDeployment a.name a.ns).BreaksOff u r)
  | cut {x u e y} {xs : List Edit} (h : (Call.getExecutor a.spec.executor key.ns).Begins w t x u)
      (he : x.executors.get? ⟨key.ns, a.spec.executor⟩ = some e) (hc : e.spec.createDeployment = true)
      (hd : (Call.getDeployment a.name a.ns).Begins x u y (xs.map .edited)) (hr : r = none)

/-- A pass ends before it has come to writing a status: it is cut, a look-up fails, or what it finds is nothing to write
a status for. -/
inductive EndsEarly (key : ObjectKey) (w : Cluster) (t : List Move) (r : Option (Except Error Action)) : Prop
  | unread (h : (Call.getApp key.name key.ns).BreaksOff t r)
  | absent {x u} (h : (Call.getApp key.name key.ns).Begins w t x u) (ha : x.apps.get? key = none)
  | found {x u a} (h : (Call.getApp key.name key.ns).Begins w t x u) (ha : x.apps.get? key = some a)
      (hu : a.EndsFor key x u r)

/-- **A pass that comes to writing a status** has made just the four calls for it, whatever others do.  One that has
ended early writes no status and applies no `Deployment`. -/
theorem pass_writes_status (hk : w.Keyed) (h : Pass.Run A (App.pass s key).run w t w' r) :
    (EndsEarly key w t r ∧ ∀ c ∈ calls t, c.isAside = true) ∨ Nonempty (StatusWrite A w t s key w' r) := by
  unfold App.pass at h
  rcases run_call_bind rfl h with h₁ | ⟨early, o, t₁, rfl, ho, h₁⟩
  · exact .inl ⟨.unread h₁, fun c hc => h₁.call_eq hc ▸ rfl⟩
  have ho : (w.editAll early).apps.get? key = o := by injection ho
  have happ : (Call.getApp key.name key.ns).Begins w _ _ t₁ := ⟨early, rfl, rfl⟩
  rw [happ.calls_eq, List.forall_mem_cons, and_iff_right (a := Call.isAside _ = true) rfl]
  cases o with
  | none =>
    obtain ⟨xs, rfl, -⟩ := Pass.Run.of_done h₁
    exact .inl ⟨.absent happ ho, by simp⟩
  | some a =>
  rcases executorOrWarn_bind_run (hk.editAll early) h₁ with h₂ | ⟨x, t₂, hexec, ⟨he, ht₂⟩ | ⟨e, he, h₂⟩⟩
  · exact .inl ⟨.found happ ho (.unread h₂), fun c hc => h₂.call_eq hc ▸ rfl⟩
  · refine .inl ⟨.found happ ho (.absent hexec he), ?_⟩
    rw [hexec.calls_eq, ht₂]
    simp [Call.isAside]
  have haside (ht₂ : ∀ c ∈ calls t₂, c.isAside = true) : ∀ c ∈ calls t₁, c.isAside = true := by
    rw [hexec.calls_eq]
    exact List.forall_mem_cons.2 ⟨rfl, ht₂⟩
  obtain ⟨second, rfl, rfl⟩ := id hexec
  by_cases hc : e.spec.createDeployment = true
  · simp only [if_pos hc] at h₂
    rw [publishStatus_bind] at h₂
    rcases run_call_bind rfl h₂ with h₃ | ⟨third, d, t₃, rfl, hd, h₃⟩
    · exact .inl ⟨.found happ ho (.unobserved hexec he hc h₃), haside fun c hm => h₃.call_eq hm ▸ rfl⟩
    rw [tryCall_bind] at h₃
    obtain ⟨fourth, ⟨hr, rfl, -⟩ | ⟨m, z, answer, late, rfl, hm, hlate⟩⟩ := h₃.of_call
    · exact .inl ⟨.found happ ho (.cut hexec he hc ⟨third, rfl, rfl⟩ hr), haside (by simp [Call.isAside])⟩
    · refine .inr ⟨{
        early, app := a, app_found := ho, second, executor := e, executor_found := ?_, creating := hc,
        third, deployment := d, deployment_found := ?_, fourth, move := m, answer, after := z,
        goes := ?_, late, rest := hlate, trace_eq := ?_ }⟩
      · rwa [Cluster.editAll_append]
      · simp only [Cluster.editAll_append] at hd ⊢
        injection hd
      · simpa only [Cluster.editAll_append] using hm
      · simp only [Cluster.editAll_append]
  · simp only [if_neg hc] at h₂
    have hc := eq_false_of_ne_true hc
    have htends := h₂.asks ((hk.editAll early).editAll _) (converge_asks _)
    exact .inl ⟨.found happ ho (.external hexec he hc), haside fun c hm => (htends c hm).isAside hc⟩

/-- Whatever can happen from the status write on can happen to a pass that finds a managed app. -/
theorem pass_opens (ha : w.apps.get? key = some a) (he : w.executors.get? ⟨key.ns, a.spec.executor⟩ = some e)
    (hc : e.spec.createDeployment = true)
    (h : Pass.Run A (.call (a.statusPatch s e (w.deployments.get? ⟨a.ns, a.name⟩)) fun _ => (a.finishing s key e).run)
      w t w' r) :
    Pass.Run A (App.pass s key).run w (.acted w (.getApp key.name key.ns) ::
      .acted w (.getExecutor a.spec.executor key.ns) :: .acted w (.getDeployment a.name a.ns) :: t) w' r := by
  have found : (w.perform (.getApp key.name key.ns)).answer = .ok (some a) := congrArg Except.ok ha
  have named : (w.perform (.getExecutor a.spec.executor key.ns)).answer = .ok (some e) := congrArg Except.ok he
  have executor : Pass.Run A (a.executorOrWarn key.ns).run w [.acted w (.getExecutor a.spec.executor key.ns)] w
      (some (.ok e)) := run_of_bind (run_of_read rfl named) .done
  refine run_of_bind (run_of_read rfl found) (run_of_bind executor ?_)
  simp only [if_pos hc]
  rw [publishStatus_bind]
  refine run_of_bind (run_of_read rfl rfl) ?_
  rw [tryCall_bind]
  exact h

end App

end SpinFleet
