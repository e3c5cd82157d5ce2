import SpinFleet.Proofs.Finalizers
import SpinFleet.Proofs.Keyed
import SpinFleet.Proofs.Verdicts
import SpinFleet.Reconcile.Executor
/-!
# Fleet — passes over executors among the others

The webhook lets apps in, users delete apps and executors, and passes over executors go on call by call, as many at
once as there are.  A `Fleet` is the cluster and what is left of every pass; `Fleet.Step` says what one deed does, and
`Fleet.Run` what a row of deeds does.

Nobody makes executors here.  So an executor that is being deleted stays so until it is gone, and what a pass was told
of an executor may be old, but never says too early that it is being deleted.
-/
namespace SpinFleet

def App.executorKey (a : App) : ObjectKey := ⟨a.ns, a.spec.executor⟩

namespace Cluster

/-- The webhook lets an app through, which goes to the namespace that it was asked about. -/
def Admits (w : Cluster) (a : App) : Prop :=
  ∃ (r : Admission.Request) (j : Json) (t : List Move) (w' : Cluster) (p : Option Json),
    r.object = some j ∧ App.codec.decode j = .ok a ∧ r.nsOf a.metadata = a.ns ∧
      Pass.Run undisturbed r.validatingApp w t w' (some (.allow p))

theorem Admits.executor {w : Cluster} {a : App} (h : w.Admits a) : ∃ e, w.executors.get? a.executorKey = some e := by
  obtain ⟨r, j, t, w', p, hj, ha, hns, hrun⟩ := h
  obtain ⟨e, he, -⟩ := Admission.Request.validatingApp_allows hj ha hrun
  exact ⟨e, by rw [App.executorKey, ← hns]; exact he⟩

theorem admits_of_errors {w : Cluster} {r : Admission.Request} {j : Json} {a : App} {e : Executor}
    (hj : r.object = some j) (ha : App.codec.decode j = .ok a) (hns : r.nsOf a.metadata = a.ns)
    (he : w.executors.get? a.executorKey = some e) (herrors : a.spec.errors (some e) = []) : w.Admits a := by
  rw [App.executorKey, ← hns] at he
  obtain ⟨t, h⟩ := Admission.Request.allows_of_errors hj ha he herrors
  exact ⟨r, j, t, w, none, hj, ha, hns, h⟩

def doomed (e : Executor) (time : Instant) : Executor :=
  { e with metadata := { e.metadata with deletionTimestamp := e.metadata.deletionTimestamp <|> some time } }

/-- A user deletes an executor, which stays for now if it is held. -/
def deleteExecutor (w : Cluster) (k : ObjectKey) (time : Instant) : Cluster :=
  match w.executors.get? k with
  | none => w
  | some e =>
    if e.metadata.finalizerList.isEmpty then { w with executors := w.executors.erase k }
    else { w with executors := w.executors.insert k (doomed e time) }

end Cluster

inductive Deed
  /-- An app is admitted and stored. -/
  | admitted (a : App)
  | appDeleted (k : ObjectKey)
  | executorDeleted (k : ObjectKey) (time : Instant)
  /-- A pass begins over an executor, of which it was told in this state. -/
  | started (i : Nat) (e : Executor)
  /-- A pass makes a call. -/
  | acted (i : Nat) (c : Call)
  /-- A call of a pass fails, and has done nothing. -/
  | failed (i : Nat) (c : Call) (e : Error)
  /-- A pass publishes or records something. -/
  | told (i : Nat)

/-- A cluster, and what is left of each pass. -/
structure Fleet where
  cluster : Cluster
  passes : Nat → Pass (Except Error Action)

namespace Fleet

def start (w : Cluster) : Fleet := ⟨w, fun _ => .done (.ok .awaitChange)⟩

def advance (s : Fleet) (i : Nat) (p : Pass (Except Error Action)) : Fleet :=
  { s with passes := fun j => if j = i then p else s.passes j }

/-- Every executor of this key is being deleted, if there is one. -/
def Dooms (w : Cluster) (k : ObjectKey) : Prop := ∀ e, w.executors.get? k = some e → e.metadata.isDeleting = true

inductive Step : Fleet → Deed → Fleet → Prop
  | admitted {s a} (h : s.cluster.Admits a) :
      Step s (.admitted a) { s with cluster := s.cluster.edit (.putApp a) }
  | appDeleted {s k} : Step s (.appDeleted k) { s with cluster := s.cluster.edit (.delete .app k) }
  | executorDeleted {s k time} : Step s (.executorDeleted k time) { s with cluster := s.cluster.deleteExecutor k time }
  | started {s i e} (h : e.metadata.isDeleting = true → Dooms s.cluster e.metadata.key) :
      Step s (.started i e) (s.advance i e.pass.run)
  | acted {s i c next} (h : s.passes i = .call c next) :
      Step s (.acted i c) ({ s with cluster := (s.cluster.perform c).cluster }.advance i
        (next (s.cluster.perform c).answer))
  | failed {s i c next e} (h : s.passes i = .call c next) : Step s (.failed i c e) (s.advance i (next (.error e)))
  | published {s i e next} (h : s.passes i = .publish e next) : Step s (.told i) (s.advance i next)
  | recorded {s i m next} (h : s.passes i = .record m next) : Step s (.told i) (s.advance i next)

inductive Run (s₀ : Fleet) : List Deed → Fleet → Prop
  | refl : Run s₀ [] s₀
  | snoc {t s d s'} (h : Run s₀ t s) (hd : Step s d s') : Run s₀ (t ++ [d]) s'

variable {s₀ s : Fleet} {t : List Deed} {i : Nat}

theorem advance_passes_self (p : Pass (Except Error Action)) : (s.advance i p).passes i = p := if_pos rfl

theorem Run.starts (h : Run s₀ t s) (i : Nat) {e : Executor} (hd : Dooms s.cluster e.metadata.key) :
    ∃ s', Run s₀ (t ++ [.started i e]) s' ∧ s'.cluster = s.cluster ∧ s'.passes i = e.pass.run :=
  ⟨_, .snoc h (.started fun _ => hd), rfl, advance_passes_self _⟩

theorem Run.acts (h : Run s₀ t s) {c : Call} {next : Except Error c.Answer → Pass (Except Error Action)}
    (hp : s.passes i = .call c next) :
    ∃ s', Run s₀ (t ++ [.acted i c]) s' ∧ s'.cluster = (s.cluster.perform c).cluster ∧
      s'.passes i = next (s.cluster.perform c).answer :=
  ⟨_, .snoc h (.acted hp), rfl, advance_passes_self _⟩

end Fleet

/-! ## What passes over executors are -/

def Pass.Calls {α : Type} (P : Call → Prop) : Pass α → Prop
  | .done _ => True
  | .call c next => P c ∧ ∀ r, (next r).Calls P
  | .gather _ next => ∀ r, (next r).Calls P
  | .publish _ next => next.Calls P
  | .record _ next => next.Calls P

namespace Executor

def dependents (e : Executor) (apps : List App) : Nat := (apps.filter fun a => a.spec.executor == e.name).length

def releasing (e : Executor) : Pass (Except Error Action) :=
  .call (.removeFinalizer e.name e.ns) fun r => .done (r.map fun _ => .awaitChange)

def deciding (e : Executor) (apps : List App) : Pass (Except Error Action) :=
  if 0 < e.dependents apps then
    .publish (e.dependentsWarning (e.dependents apps)) (.done (.error (.dependentsExist e.name (e.dependents apps))))
  else e.releasing

def listing (e : Executor) : Pass (Except Error Action) :=
  .call (.listApps e.ns) fun r => match r with
    | .error err => .done (.error err)
    | .ok apps => e.deciding apps

theorem handleDeletion_run (e : Executor) :
    e.handleDeletion.run = if !e.hasFinalizer then .done (.ok .awaitChange) else e.listing := by
  unfold handleDeletion
  cases e.hasFinalizer with
  | false => rfl
  | true =>
    show Pass.call _ _ = Pass.call _ _
    congr 1
    funext r
    cases r with
    | error => rfl
    | ok apps =>
      show ExceptT.run (if 0 < e.dependents apps then _ else _) = e.deciding apps
      unfold deciding
      split
      · rfl
      · show Pass.call _ _ = Pass.call _ _
        congr 1
        funext r
        cases r <;> rfl

theorem pass_of_deleting {e : Executor} (hd : e.metadata.isDeleting = true) (hf : e.hasFinalizer = true) :
    e.pass.run = e.listing := by
  rw [pass, if_pos hd, handleDeletion_run, hf]
  rfl

def Holds (c : Call) : Prop := ∃ n ns, c = .addFinalizer n ns

/-- **A pass over an executor** takes hold of it at most, or it asks for the apps first.  It does that only if the
executor is being deleted. -/
theorem pass_cases (e : Executor) :
    e.pass.run.Calls Holds ∨ e.metadata.isDeleting = true ∧ e.pass.run = e.listing := by
  cases hd : e.metadata.isDeleting with
  | true =>
    cases hf : e.hasFinalizer with
    | true => exact .inr ⟨rfl, pass_of_deleting hd hf⟩
    | false =>
      rw [pass, if_pos hd, handleDeletion_run, hf]
      exact .inl trivial
  | false =>
    refine .inl ?_
    unfold pass
    rw [hd]
    cases e.hasFinalizer with
    | true => exact trivial
    | false =>
      refine ⟨⟨_, _, rfl⟩, fun r => ?_⟩
      cases r <;> exact trivial

theorem deciding_cases (e : Executor) (apps : List App) :
    (e.deciding apps).Calls Holds ∨ (∀ a ∈ apps, a.spec.executor ≠ e.name) ∧ e.deciding apps = e.releasing := by
  unfold deciding
  split
  · exact .inl trivial
  · rename_i h
    refine .inr ⟨fun a ha hname => h (List.length_pos_of_mem (List.mem_filter.mpr ⟨ha, ?_⟩)), rfl⟩
    exact beq_iff_eq.mpr hname

end Executor

end SpinFleet
