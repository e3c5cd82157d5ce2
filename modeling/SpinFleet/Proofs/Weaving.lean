import SpinFleet.Proofs.Asking
/-!
# Weaving — two passes that run beside each other

Two passes over one cluster take turns, one call at a time and in any order, and what a call finds is what the calls of
both have made of the cluster (`Pass.Beside`).  Nobody else edits, and no call fails.  A look-up of several objects
makes its calls one after the other, in whatever order (`Pass.Step`), so the other pass may come between these as well.

`Pass.weave` lets two passes take the turns that a list says; what it comes to is one way for them to run beside each
other (`Pass.beside_of_weave`).
-/
namespace SpinFleet

open Simulation (lookup enter)

namespace Pass

variable {α β : Type}

def inOrder (next : Except Error Resolved → Pass α) : List Reference → Resolved → Pass α
  | [], acc => next (.ok acc)
  | ref :: rest, acc => .call (lookup ref) fun r =>
    match enter acc ref r with
    | .ok acc => inOrder next rest acc
    | .error e => next (.error e)

/-- What a pass does next: what is seen of it, what is left of it, and the cluster after that. -/
inductive Step : Pass α → Cluster → List Move → Pass α → Cluster → Prop
  | call (c : Call) (next : Except Error c.Answer → Pass α) (w : Cluster) :
      Step (.call c next) w [.acted w c] (next (w.perform c).answer) (w.perform c).cluster
  | gather {refs l : List Reference} (perm : refs.Perm l) (next : Except Error Resolved → Pass α) (w : Cluster) :
      Step (.gather refs next) w [] (inOrder next l .empty) w
  | publish (e : Event) (next : Pass α) (w : Cluster) : Step (.publish e next) w [.published e] next w
  | record (m : Measurement) (next : Pass α) (w : Cluster) : Step (.record m next) w [.recorded m] next w

inductive Steps : Pass α → Cluster → List Move → Cluster → α → Prop
  | done (a : α) (w : Cluster) : Steps (.done a) w [] w a
  | step {p q : Pass α} {w x w' : Cluster} {m t : List Move} {a : α} (h : Step p w m q x) (rest : Steps q x t w' a) :
      Steps p w (m ++ t) w' a

/-- **Two passes beside each other**, to the ends of both: what is seen of each, the cluster that they leave, and their
results. -/
inductive Beside : Pass α → Pass β → Cluster → List Move → List Move → Cluster → α → β → Prop
  | done (a : α) (b : β) (w : Cluster) : Beside (.done a) (.done b) w [] [] w a b
  | left {p p' : Pass α} {q : Pass β} {w x w' : Cluster} {m t u : List Move} {a : α} {b : β} (h : Step p w m p' x)
      (rest : Beside p' q x t u w' a b) : Beside p q w (m ++ t) u w' a b
  | right {p : Pass α} {q q' : Pass β} {w x w' : Cluster} {m t u : List Move} {a : α} {b : β} (h : Step q w m q' x)
      (rest : Beside p q' x t u w' a b) : Beside p q w t (m ++ u) w' a b

/-- A run that nobody disturbs: others edit nothing, and no call fails. -/
structure Alone (p : Pass α) (w : Cluster) (t : List Move) (w' : Cluster) (a : α) : Prop where
  run : Run undisturbed p w t w' (some a)
  unfailing : ∀ c e, .failed c e ∉ t

def InTurn (p : Pass α) (q : Pass β) (w w' : Cluster) (a : α) (b : β) : Prop :=
  ∃ t x u, p.Alone w t x a ∧ q.Alone x u w' b

/-! ## Steps -/

variable {p p' : Pass α} {q : Pass β} {w x w' : Cluster} {t u m : List Move} {a : α} {b : β}

theorem Step.unfailing (h : Step p w m p' x) (c : Call) (e : Error) : .failed c e ∉ m := by
  cases h <;> simp

theorem Step.keeps {J : Cluster → Prop} (h : Step p w m p' x) (hw : J w)
    (hcalls : ∀ c ∈ calls m, J w → J (w.perform c).cluster) : J x := by
  cases h with
  | call c => exact hcalls c List.mem_cons_self hw
  | gather | publish | record => exact hw

/-! ## A pass alone -/

theorem perform_lookup (w : Cluster) (ref : Reference) : (w.perform (lookup ref)).cluster = w := by
  cases ref <;> rfl

theorem Steps.inOrder {next : Except Error Resolved → Pass α} :
    ∀ {refs l : List Reference} {acc : Resolved} {t : List Move}, refs.Perm l →
      Steps (Pass.inOrder next l acc) w t w' a →
      ∃ t₁ t₂ r, t = t₁ ++ t₂ ∧ Gathers undisturbed refs acc w t₁ w (some r) ∧ Steps (next r) w t₂ w' a
  | refs, [], acc, t, perm, h => by
    obtain rfl := perm.eq_nil
    exact ⟨[], t, .ok acc, rfl, .done, h⟩
  | refs, ref :: rest, acc, t, perm, h => by
    cases h with
    | step h hrest =>
      cases h with
      | call =>
        rw [perform_lookup] at hrest
        cases he : enter acc ref (w.perform (lookup ref)).answer with
        | ok acc' =>
          simp only [he] at hrest
          obtain ⟨t₁, t₂, r, rfl, hg, hs⟩ := Steps.inOrder (.refl rest) hrest
          exact ⟨_ :: t₁, t₂, r, rfl, .found perm he hg, hs⟩
        | error e =>
          simp only [he] at hrest
          exact ⟨[_], _, .error e, rfl, .missing (perm.mem_iff.2 List.mem_cons_self) he, hrest⟩

theorem Steps.unfailing (h : Steps p w t w' a) (c : Call) (e : Error) : .failed c e ∉ t := by
  induction h with
  | done => exact List.not_mem_nil
  | step h _ ih => exact fun hm => (List.mem_append.1 hm).elim (h.unfailing c e) ih

theorem Steps.run : ∀ {p : Pass α} {w w' : Cluster} {t : List Move} {a : α}, Steps p w t w' a →
    Run undisturbed p w t w' (some a)
  | .done _, _, _, _, _, h => by
    cases h with
    | done => exact .done
    | step h => cases h
  | .call c next, _, _, _, _, h => by
    cases h with
    | step h rest =>
      cases h with
      | call => exact .act rest.run
  | .gather refs next, _, _, _, _, h => by
    cases h with
    | step h rest =>
      cases h with
      | gather perm =>
        obtain ⟨t₁, t₂, r, rfl, hg, hs⟩ := rest.inOrder perm
        exact List.nil_append _ ▸ .gather hg hs.run
  | .publish e next, _, _, _, _, h => by
    cases h with
    | step h rest =>
      cases h with
      | publish => exact .publish rest.run
  | .record m next, _, _, _, _, h => by
    cases h with
    | step h rest =>
      cases h with
      | record => exact .record rest.run

/-- **Whoever steps to his end alone** has a run that nobody disturbs. -/
theorem Steps.alone (h : Steps p w t w' a) : Alone p w t w' a := ⟨h.run, h.unfailing⟩

theorem Alone.acted {c : Call} (h : Alone p w t w' a) (hc : c ∈ calls t) : ∃ x, .acted x c ∈ t := by
  obtain ⟨m, hm, hc⟩ := mem_calls.1 hc
  cases m with
  | acted x c' =>
    cases hc
    exact ⟨x, hm⟩
  | failed c' e => exact (h.unfailing c' e hm).elim
  | published | recorded | edited => cases hc

/-! ## Two passes -/

theorem Beside.swap (h : Beside p q w t u w' a b) : Beside q p w u t w' b a := by
  induction h with
  | done a b w => exact .done b a w
  | left h _ ih => exact .right h ih
  | right h _ ih => exact .left h ih

variable {F : (c : Call) → Except Error c.Answer → Prop} {P : Call → Prop} {Q : α → Prop} {R : β → Prop}

theorem AsksIf.inOrder {next : Except Error Resolved → Pass α} (hn : ∀ r, (next r).AsksIf F P Q) :
    ∀ {l : List Reference} {acc : Resolved}, (∀ ref ∈ l, P (lookup ref)) → (Pass.inOrder next l acc).AsksIf F P Q
  | [], acc, _ => hn (.ok acc)
  | ref :: rest, acc, hl => by
    refine ⟨hl ref List.mem_cons_self, fun r _ => ?_⟩
    dsimp only
    cases enter acc ref r with
    | ok acc' => exact AsksIf.inOrder hn fun ref' hm => hl ref' (List.mem_cons_of_mem _ hm)
    | error e => exact hn (.error e)

theorem AsksIf.step (hp : p.AsksIf F P Q) (h : Step p w m p' x) (hw : ∀ c, F c (w.perform c).answer) :
    (∀ c ∈ calls m, P c) ∧ p'.AsksIf F P Q := by
  cases h with
  | call c => exact ⟨List.forall_mem_singleton.2 hp.1, hp.2 _ (hw c)⟩
  | gather perm =>
    exact ⟨List.forall_mem_nil P, AsksIf.inOrder hp.2 fun ref hm => hp.1 ref (perm.mem_iff.2 hm)⟩
  | publish | record => exact ⟨List.forall_mem_nil P, hp⟩

/-! ## Turns -/

/-- One step of a pass; a look-up goes through the objects as they are listed. -/
def advance : Pass α → Cluster → List Move × Pass α × Cluster
  | done a, w => ([], done a, w)
  | call c next, w => ([.acted w c], next (w.perform c).answer, (w.perform c).cluster)
  | gather refs next, w => ([], inOrder next refs .empty, w)
  | publish e next, w => ([.published e], next, w)
  | record m next, w => ([.recorded m], next, w)

/-- Two passes that take turns: the first where the list says `true`, and the second where it says `false`. -/
def weave : List Bool → Pass α → Pass β → Cluster → Option (List Move × List Move × Cluster × α × β)
  | [], done a, done b, w => some ([], [], w, a, b)
  | [], _, _, _ => none
  | true :: turns, p, q, w =>
    (weave turns (p.advance w).2.1 q (p.advance w).2.2).map fun r => ((p.advance w).1 ++ r.1, r.2)
  | false :: turns, p, q, w =>
    (weave turns p (q.advance w).2.1 (q.advance w).2.2).map fun r => (r.1, (q.advance w).1 ++ r.2.1, r.2.2)

theorem step_or_done (p : Pass α) (w : Cluster) :
    Step p w (p.advance w).1 (p.advance w).2.1 (p.advance w).2.2 ∨ p.advance w = ([], p, w) := by
  cases p with
  | done => exact .inr rfl
  | call => exact .inl (.call ..)
  | gather refs => exact .inl (.gather (.refl refs) ..)
  | publish => exact .inl (.publish ..)
  | record => exact .inl (.record ..)

/-- **Passes that take turns run beside each other.** -/
theorem beside_of_weave : ∀ {turns : List Bool} {p : Pass α} {q : Pass β} {w : Cluster} {t u : List Move},
    weave turns p q w = some (t, u, w', a, b) → Beside p q w t u w' a b
  | [], p, q, w, t, u, h => by
    cases p <;> cases q <;> cases h
    exact .done ..
  | true :: turns, p, q, w, t, u, h => by
    obtain ⟨⟨t', u', r⟩, h', hr⟩ := Option.map_eq_some_iff.1 h
    cases hr
    rcases step_or_done p w with hs | hs
    · exact .left hs (beside_of_weave h')
    · rw [hs] at h' ⊢
      exact beside_of_weave h'
  | false :: turns, p, q, w, t, u, h => by
    obtain ⟨⟨t', u', r⟩, h', hr⟩ := Option.map_eq_some_iff.1 h
    cases hr
    rcases step_or_done q w with hs | hs
    · exact .right hs (beside_of_weave h')
    · rw [hs] at h' ⊢
      exact beside_of_weave h'

end Pass

end SpinFleet
