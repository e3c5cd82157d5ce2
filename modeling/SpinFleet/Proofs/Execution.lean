import SpinFleet.Simulation.Run
/-!
# Executions — what can happen while a pass runs

A pass is run by somebody who does not own the cluster: a call may fail, other writers edit between any two calls, and
the run may be cut short anywhere, by a deadline or by the end of the process.  `Pass.Run A p w t w' r` says that all
of this can happen: from the cluster `w` the pass `p` makes the moves `t`, leaves the cluster `w'`, and has come to the
result `r`, or to none if it was cut.  The edits of others are those that `A` permits; `undisturbed` permits none.

A call that fails has done nothing, with one exception: pruning deletes one `Secret` after the other, so a pruning that
fails has deleted those of a first part of the list (`Cluster.Fails`).

`Pass.run_bind` and `Attempt.run_bind` take a run of two passes in a row apart, `Pass.Run.bind` puts two runs together.
-/
namespace SpinFleet

/-- Something that is seen of a pass while it runs. -/
inductive Move
  /-- A call acted on a cluster, which answered. -/
  | acted (w : Cluster) (c : Call)
  | failed (c : Call) (e : Error)
  | published (e : Event)
  | recorded (m : Measurement)
  /-- Another writer edited. -/
  | edited (x : Edit)

def undisturbed : Edit → Prop := fun _ => False

namespace Cluster

inductive Edited (A : Edit → Prop) : Cluster → Cluster → Prop
  | refl (w : Cluster) : Edited A w w
  | step {w w' : Cluster} {x : Edit} (hx : A x) (h : Edited A (w.edit x) w') : Edited A w w'

/-- The clusters that a failing call may leave. -/
inductive Fails (w : Cluster) : Call → Cluster → Prop
  | idle (c : Call) : Fails w c w
  | pruning {app ns : String} {keep : Option String} {names : List String}
      (h : names <+: staleSecrets app (w.labelledSecrets app ns) keep) :
      Fails w (.pruneSecrets app ns keep) (w.deleteSecrets ns names)

theorem Edited.trans {A : Edit → Prop} {w x y : Cluster} (h : Edited A w x) (h' : Edited A x y) : Edited A w y := by
  induction h with
  | refl => exact h'
  | step hx _ ih => exact .step hx (ih h')

theorem Edited.keeps {A : Edit → Prop} {J : Cluster → Prop} {w w' : Cluster} (h : Edited A w w') (hw : J w)
    (edits : ∀ x y, A y → J x → J (x.edit y)) : J w' := by
  induction h with
  | refl => exact hw
  | step hx _ ih => exact ih (edits _ _ hx hw)

theorem Edited.eq_of_undisturbed {w w' : Cluster} (h : Edited undisturbed w w') : w' = w := by
  cases h with
  | refl => rfl
  | step hx => exact hx.elim

end Cluster

open Simulation (lookup enter)

/-- A run of a look-up of several objects.  The look-ups act one after the other, in any order; the first that fails
ends the whole. -/
inductive Gathers (A : Edit → Prop) :
    List Reference → Resolved → Cluster → List Move → Cluster → Option (Except Error Resolved) → Prop
  | cut {refs acc w} : Gathers A refs acc w [] w none
  | done {acc w} : Gathers A [] acc w [] w (some (.ok acc))
  | found {refs ref rest acc acc' w t w' r} (perm : refs.Perm (ref :: rest))
      (h : enter acc ref (w.perform (lookup ref)).answer = .ok acc') (next : Gathers A rest acc' w t w' r) :
      Gathers A refs acc w (.acted w (lookup ref) :: t) w' r
  | missing {refs ref acc e w} (mem : ref ∈ refs)
      (h : enter acc ref (w.perform (lookup ref)).answer = .error e) :
      Gathers A refs acc w [.acted w (lookup ref)] w (some (.error e))
  | failed {refs ref acc e w} (mem : ref ∈ refs) :
      Gathers A refs acc w [.failed (lookup ref) e] w (some (.error e))
  | edit {refs acc w x t w' r} (hx : A x) (next : Gathers A refs acc (w.edit x) t w' r) :
      Gathers A refs acc w (.edited x :: t) w' r

theorem Gathers.restrict {A B : Edit → Prop} {refs : List Reference} {acc : Resolved} {w w' : Cluster} {t : List Move}
    {r : Option (Except Error Resolved)} (h : Gathers A refs acc w t w' r) (hAB : ∀ x, A x → .edited x ∈ t → B x) :
    Gathers B refs acc w t w' r := by
  induction h with
  | cut => exact .cut
  | done => exact .done
  | found perm h _ ih => exact .found perm h (ih fun x hx hm => hAB x hx (List.mem_cons_of_mem _ hm))
  | missing mem h => exact .missing mem h
  | failed mem => exact .failed mem
  | edit hx _ ih =>
    exact .edit (hAB _ hx List.mem_cons_self) (ih fun x hx hm => hAB x hx (List.mem_cons_of_mem _ hm))

namespace Pass

variable {α β : Type} {A : Edit → Prop}

/-- A run of a pass: its moves, the cluster that it leaves, and its result, none if it was cut. -/
inductive Run (A : Edit → Prop) : Pass α → Cluster → List Move → Cluster → Option α → Prop
  | cut {p w} : Run A p w [] w none
  | done {a w} : Run A (.done a) w [] w (some a)
  | act {c next w t w' r} (h : Run A (next (w.perform c).answer) (w.perform c).cluster t w' r) :
      Run A (.call c next) w (.acted w c :: t) w' r
  | fail {c next e w w₁ t w' r} (hf : w.Fails c w₁) (h : Run A (next (.error e)) w₁ t w' r) :
      Run A (.call c next) w (.failed c e :: t) w' r
  | gather {refs next w t₁ w₁ x t₂ w' r} (hg : Gathers A refs .empty w t₁ w₁ (some x))
      (h : Run A (next x) w₁ t₂ w' r) : Run A (.gather refs next) w (t₁ ++ t₂) w' r
  | gatherCut {refs next w t w'} (hg : Gathers A refs .empty w t w' none) :
      Run A (.gather refs next) w t w' none
  | publish {e next w t w' r} (h : Run A next w t w' r) : Run A (.publish e next) w (.published e :: t) w' r
  | record {m next w t w' r} (h : Run A next w t w' r) : Run A (.record m next) w (.recorded m :: t) w' r
  | edit {p w x t w' r} (hx : A x) (h : Run A p (w.edit x) t w' r) : Run A p w (.edited x :: t) w' r

theorem Run.restrict {B : Edit → Prop} {p : Pass α} {w w' : Cluster} {t : List Move} {r : Option α}
    (h : Run A p w t w' r) (hAB : ∀ x, A x → .edited x ∈ t → B x) : Run B p w t w' r := by
  induction h with
  | cut => exact .cut
  | done => exact .done
  | act _ ih => exact .act (ih fun x hx hm => hAB x hx (List.mem_cons_of_mem _ hm))
  | fail hf _ ih => exact .fail hf (ih fun x hx hm => hAB x hx (List.mem_cons_of_mem _ hm))
  | gather hg _ ih =>
    exact .gather (hg.restrict fun x hx hm => hAB x hx (List.mem_append_left _ hm))
      (ih fun x hx hm => hAB x hx (List.mem_append_right _ hm))
  | gatherCut hg => exact .gatherCut (hg.restrict hAB)
  | publish _ ih => exact .publish (ih fun x hx hm => hAB x hx (List.mem_cons_of_mem _ hm))
  | record _ ih => exact .record (ih fun x hx hm => hAB x hx (List.mem_cons_of_mem _ hm))
  | edit hx _ ih =>
    exact .edit (hAB _ hx List.mem_cons_self) (ih fun x hx hm => hAB x hx (List.mem_cons_of_mem _ hm))

theorem Run.mono {B : Edit → Prop} (hAB : ∀ x, A x → B x) {p : Pass α} {w w' : Cluster} {t : List Move}
    {r : Option α} (h : Run A p w t w' r) : Run B p w t w' r := h.restrict fun x hx _ => hAB x hx

def Splits (A : Edit → Prop) (p : Pass α) (f : α → Pass β) (w : Cluster) (t : List Move) (w' : Cluster)
    (r : Option β) : Prop :=
  (r = none ∧ Run A p w t w' none) ∨
  ∃ a t₁ w₁ t₂, t = t₁ ++ t₂ ∧ Run A p w t₁ w₁ (some a) ∧ Run A (f a) w₁ t₂ w' r

theorem Splits.prepend {p q : Pass α} {f : α → Pass β} {w x w' : Cluster} {t u : List Move} {r : Option β}
    (hu : ∀ {t w' r}, Run A q x t w' r → Run A p w (u ++ t) w' r) (h : Splits A q f x t w' r) :
    Splits A p f w (u ++ t) w' r := by
  rcases h with ⟨rfl, h₁⟩ | ⟨a, t₁, w₁, t₂, rfl, h₁, h₂⟩
  · exact .inl ⟨rfl, hu h₁⟩
  · exact .inr ⟨a, u ++ t₁, w₁, t₂, (List.append_assoc ..).symm, hu h₁, h₂⟩

/-- **A run of two passes in a row** is a run of the first that was cut, or one of each. -/
theorem run_bind {p : Pass α} {f : α → Pass β} {w w' : Cluster} {t : List Move} {r : Option β}
    (h : Run A (p.bind f) w t w' r) :
    (r = none ∧ Run A p w t w' none) ∨
    ∃ a t₁ w₁ t₂, t = t₁ ++ t₂ ∧ Run A p w t₁ w₁ (some a) ∧ Run A (f a) w₁ t₂ w' r := by
  show Splits A p f w t w' r
  generalize hq : p.bind f = q at h
  have first_done {q w t w' r} (h : Run A q w t w' r) {a} (ha : f a = q) : Splits A (.done a) f w t w' r :=
    .inr ⟨a, [], w, t, rfl, .done, ha ▸ h⟩
  -- a first pass that is done leaves all moves to the second; otherwise both begin with the same call
  induction h generalizing p with
  | @cut q w => exact .inl ⟨rfl, .cut⟩
  | @edit q w x t w' r hx h ih => exact (ih hq).prepend (u := [.edited x]) (.edit hx)
  | @done b w =>
    cases p with
    | done a => exact first_done .done hq
    | call | gather | publish | record => cases hq
  | @act c next w t w' r h ih =>
    cases p with
    | done a => exact first_done (.act h) hq
    | call c' next' =>
      cases hq
      exact (ih rfl).prepend (u := [.acted w c]) .act
    | gather | publish | record => cases hq
  | @fail c next e w w₁ t w' r hf h ih =>
    cases p with
    | done a => exact first_done (.fail hf h) hq
    | call c' next' =>
      cases hq
      exact (ih rfl).prepend (u := [.failed c e]) (.fail hf)
    | gather | publish | record => cases hq
  | @gather refs next w t₀ w₀ x t w' r hg h ih =>
    cases p with
    | done a => exact first_done (.gather hg h) hq
    | gather refs' next' =>
      cases hq
      exact (ih rfl).prepend (.gather hg)
    | call | publish | record => cases hq
  | @gatherCut refs next w t w' hg =>
    cases p with
    | done a => exact first_done (.gatherCut hg) hq
    | gather refs' next' =>
      cases hq
      exact .inl ⟨rfl, .gatherCut hg⟩
    | call | publish | record => cases hq
  | @publish e next w t w' r h ih =>
    cases p with
    | done a => exact first_done (.publish h) hq
    | publish e' next' =>
      cases hq
      exact (ih rfl).prepend (u := [.published e]) .publish
    | call | gather | record => cases hq
  | @record m next w t w' r h ih =>
    cases p with
    | done a => exact first_done (.record h) hq
    | record m' next' =>
      cases hq
      exact (ih rfl).prepend (u := [.recorded m]) .record
    | call | gather | publish => cases hq

theorem done_run {a : α} {w w' : Cluster} {t : List Move} {r : Option α} (h : Run A (.done a) w t w' r) :
    (r = none ∨ r = some a) ∧ ∀ b : β, Run A (.done b) w t w' (r.map fun _ => b) := by
  generalize hp : Pass.done a = p at h
  induction h with
  | cut => exact ⟨.inl rfl, fun _ => .cut⟩
  | done =>
    cases hp
    exact ⟨.inr rfl, fun _ => .done⟩
  | edit hx _ ih => exact ⟨(ih hp).1, fun b => .edit hx ((ih hp).2 b)⟩
  | act | fail | gather | gatherCut | publish | record => cases hp

theorem bind_done : ∀ p : Pass α, p.bind .done = p
  | .done _ => rfl
  | .call c next => congrArg (Pass.call c) (funext fun r => bind_done (next r))
  | .gather refs next => congrArg (Pass.gather refs) (funext fun r => bind_done (next r))
  | .publish e next => congrArg (Pass.publish e) (bind_done next)
  | .record m next => congrArg (Pass.record m) (bind_done next)

theorem Run.bind {p : Pass α} {f : α → Pass β} {a : α} {w w₁ w' : Cluster} {t u : List Move} {r : Option β}
    (h : Run A p w t w₁ (some a)) (h' : Run A (f a) w₁ u w' r) : Run A (p.bind f) w (t ++ u) w' r := by
  generalize hb : some a = b at h
  induction h with
  | cut | gatherCut => cases hb
  | done =>
    cases hb
    exact h'
  | act _ ih => exact .act (ih h' hb)
  | fail hf _ ih => exact .fail hf (ih h' hb)
  | gather hg _ ih => exact List.append_assoc .. ▸ .gather hg (ih h' hb)
  | publish _ ih => exact .publish (ih h' hb)
  | record _ ih => exact .record (ih h' hb)
  | edit hx _ ih => exact .edit hx (ih h' hb)

theorem Run.then_done {p : Pass α} {a : α} {w w₁ w' : Cluster} {t₁ t₂ : List Move} {r : Option α}
    (h : Run A p w t₁ w₁ (some a)) (h' : Run A (.done a) w₁ t₂ w' r) : Run A p w (t₁ ++ t₂) w' r := by
  have hb := h.bind (f := .done) h'
  rwa [bind_done] at hb

end Pass

namespace Attempt

variable {α β : Type} {A : Edit → Prop} {w w' : Cluster} {t : List Move}

theorem bind_run (x : Attempt α) (f : α → Attempt β) :
    (x >>= f).run = x.run.bind fun r => match r with
      | .ok a => (f a).run
      | .error e => .done (.error e) := by
  show Pass.bind _ _ = _
  congr 1
  funext r
  cases r <;> rfl

theorem no_value {e : Option Error} (a : α) : (e.map .error : Option (Except Error α)) ≠ some (.ok a) := by
  cases e <;> exact nofun

/-- **A run of two attempts in a row** is a run of the first that came to no value, or one of each. -/
theorem run_bind {x : Attempt α} {f : α → Attempt β} {r : Option (Except Error β)}
    (h : Pass.Run A (x >>= f).run w t w' r) :
    (∃ e : Option Error, r = e.map .error ∧ Pass.Run A x.run w t w' (e.map .error)) ∨
    ∃ a t₁ w₁ t₂, t = t₁ ++ t₂ ∧ Pass.Run A x.run w t₁ w₁ (some (.ok a)) ∧ Pass.Run A (f a).run w₁ t₂ w' r := by
  rw [bind_run] at h
  rcases Pass.run_bind h with ⟨rfl, h₁⟩ | ⟨e | a, t₁, w₁, t₂, rfl, h₁, h₂⟩
  · exact .inl ⟨none, rfl, h₁⟩
  · obtain ⟨rfl | rfl, h₂⟩ := Pass.done_run (β := Except Error α) h₂
    · exact .inl ⟨none, rfl, h₁.then_done (h₂ (.error e))⟩
    · exact .inl ⟨some e, rfl, h₁.then_done (h₂ (.error e))⟩
  · exact .inr ⟨a, t₁, w₁, t₂, rfl, h₁, h₂⟩

theorem tryCatch_run (x : Attempt α) (f : Error → Attempt α) :
    (tryCatch x f).run = x.run.bind fun r => match r with
      | .ok a => .done (.ok a)
      | .error e => (f e).run := by
  show Pass.bind _ _ = _
  congr 1
  funext r
  cases r <;> rfl

/-- A run of an attempt with a handler is a run of the attempt, or one that failed and then one of the handler. -/
theorem run_tryCatch {x : Attempt α} {f : Error → Attempt α} {r : Option (Except Error α)}
    (h : Pass.Run A (tryCatch x f).run w t w' r) :
    Pass.Run A x.run w t w' r ∨
    ∃ e t₁ w₁ t₂, t = t₁ ++ t₂ ∧ Pass.Run A x.run w t₁ w₁ (some (.error e)) ∧ Pass.Run A (f e).run w₁ t₂ w' r := by
  rw [tryCatch_run] at h
  rcases Pass.run_bind h with ⟨rfl, h₁⟩ | ⟨e | a, t₁, w₁, t₂, rfl, h₁, h₂⟩
  · exact .inl h₁
  · exact .inr ⟨e, t₁, w₁, t₂, rfl, h₁, h₂⟩
  · exact .inl (h₁.then_done h₂)

end Attempt

end SpinFleet
