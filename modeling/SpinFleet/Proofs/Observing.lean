import Mathlib.Data.List.Induction
import Mathlib.Data.List.Forall2
import SpinFleet.App.Observe
/-!
# Observing — the status of an app settles

Observing the same `Deployment` twice is observing it once (`AppStatus.observe_observe`), and it does not matter when,
but for the times that are taken from the clock (`AppStatus.observe_like`).  Without this, every status that is written
down would be the reason to write another one.

A `Deployment` may report several conditions of one type, and then the last one stays; what keeps the time of the first
observation through the second is that both see the same last change.
-/
namespace SpinFleet

namespace Condition

/-- Two times that are the same, or were both read off the clock. -/
def SameTime (clock : List Instant) (a b : Instant) : Prop := a = b ∨ a ∈ clock ∧ b ∈ clock

structure Like (clock : List Instant) (a b : Condition) : Prop where
  type : a.type = b.type
  status : a.status = b.status
  reason : a.reason = b.reason
  message : a.message = b.message
  time : SameTime clock a.lastTransitionTime b.lastTransitionTime

variable {clock : List Instant}

theorem SameTime.trans {a b c : Instant} (h : SameTime clock a b) (h' : SameTime clock b c) : SameTime clock a c := by
  rcases h with rfl | h
  · exact h'
  · rcases h' with rfl | h'
    · exact .inr h
    · exact .inr ⟨h.1, h'.2⟩

theorem Like.refl (c : Condition) : Like clock c c := ⟨rfl, rfl, rfl, rfl, .inl rfl⟩

theorem Like.trans {a b c : Condition} (h : Like clock a b) (h' : Like clock b c) : Like clock a c :=
  ⟨h.type.trans h'.type, h.status.trans h'.status, h.reason.trans h'.reason, h.message.trans h'.message,
    h.time.trans h'.time⟩

def setAll (news cs : List Condition) : List Condition := news.foldl (fun cs c => set c cs) cs

def updateAll (news : List Condition) (c : Condition) : Condition := news.foldl update c

/-! ## Up to times -/

theorem Like.update {a a' b b' : Condition} (h : Like clock a a') (h' : Like clock b b') :
    Like clock (update a b) (update a' b') := by
  unfold Condition.update
  by_cases hs : a.status = b.status
  · rw [if_pos hs, if_pos (h.status ▸ h'.status ▸ hs)]
    exact ⟨h.type, h.status, h'.reason, h'.message, h.time⟩
  · rw [if_neg hs, if_neg (h.status ▸ h'.status ▸ hs)]
    exact ⟨h.type, h'.status, h'.reason, h'.message, h'.time⟩

theorem set_like {b b' : Condition} (hb : Like clock b b') {cs cs' : List Condition}
    (h : List.Forall₂ (Like clock) cs cs') : List.Forall₂ (Like clock) (set b cs) (set b' cs') := by
  induction h with
  | nil => exact .cons hb .nil
  | @cons a a' cs cs' ha hcs ih =>
    unfold set
    by_cases ht : a.type = b.type
    · rw [if_pos ht, if_pos (ha.type ▸ hb.type ▸ ht)]
      exact .cons (ha.update hb) hcs
    · rw [if_neg ht, if_neg (ha.type ▸ hb.type ▸ ht)]
      exact .cons ha ih

theorem setAll_like {bs bs' : List Condition} (hb : List.Forall₂ (Like clock) bs bs') {cs cs' : List Condition}
    (h : List.Forall₂ (Like clock) cs cs') : List.Forall₂ (Like clock) (setAll bs cs) (setAll bs' cs') := by
  induction hb generalizing cs cs' with
  | nil => exact h
  | cons hb _ ih => exact ih (set_like hb h)

/-! ## A second time -/

@[simp] theorem update_type (old new : Condition) : (update old new).type = old.type := by
  unfold update
  split <;> rfl

@[simp] theorem update_status (old new : Condition) : (update old new).status = new.status := by
  unfold update
  split
  · assumption
  · rfl

theorem update_of_eq {old new : Condition} (h : old.status = new.status) :
    update old new = { old with reason := new.reason, message := new.message } :=
  if_pos h

theorem update_of_ne {old new : Condition} (h : old.status ≠ new.status) :
    update old new = { new with type := old.type } :=
  if_neg h

theorem update_self (c : Condition) : update c c = c := update_of_eq rfl

theorem update_update (old new : Condition) : update (update old new) new = update old new := by
  rw [update_of_eq (update_status old new)]
  unfold update
  split <;> rfl

@[simp] theorem updateAll_type (news : List Condition) (c : Condition) : (updateAll news c).type = c.type := by
  induction news generalizing c with
  | nil => rfl
  | cons b news ih => exact (ih _).trans (update_type c b)

theorem updateAll_concat (news : List Condition) (b c : Condition) :
    updateAll (news ++ [b]) c = update (updateAll news c) b := by
  simp [updateAll]

theorem updateAll_status {news : List Condition} (hne : news ≠ []) (c c' : Condition) :
    (updateAll news c).status = (updateAll news c').status := by
  cases news using List.reverseRecOn with
  | nil => exact (hne rfl).elim
  | append_singleton news b => rw [updateAll_concat, updateAll_concat, update_status, update_status]

theorem update_congr {a b : Condition} (ht : a.type = b.type) (hs : a.status = b.status)
    (hl : a.lastTransitionTime = b.lastTransitionTime) (new : Condition) : update a new = update b new := by
  obtain ⟨_, _, _, _, _⟩ := a
  cases ht
  cases hs
  cases hl
  rfl

theorem updateAll_congr {news : List Condition} (hne : news ≠ []) {a b : Condition} (ht : a.type = b.type)
    (hs : a.status = b.status) (hl : a.lastTransitionTime = b.lastTransitionTime) :
    updateAll news a = updateAll news b := by
  cases news with
  | nil => exact (hne rfl).elim
  | cons new news => exact congrArg (updateAll news) (update_congr ht hs hl new)

theorem updateAll_updateAll (news : List Condition) (c : Condition) :
    updateAll news (updateAll news c) = updateAll news c := by
  induction news using List.reverseRecOn with
  | nil => rfl
  | append_singleton news b ih =>
    rcases eq_or_ne news [] with rfl | hne
    · exact update_update c b
    rw [updateAll_concat news b c, updateAll_concat]
    by_cases hs : (updateAll news c).status = b.status
    · -- the last one has moved no time, so the others see what they had left
      have same : updateAll news { updateAll news c with reason := b.reason, message := b.message } =
          updateAll news (updateAll news c) := updateAll_congr hne rfl rfl rfl
      rw [update_of_eq hs, same, ih, update_of_eq hs]
    · -- the last one has taken over, and takes over again
      rw [update_of_ne hs, update_of_ne]
      · rw [updateAll_type]
      · rw [updateAll_status hne _ c]
        exact hs

theorem setAll_cons (news : List Condition) (x : Condition) (cs : List Condition) :
    setAll news (x :: cs) =
      updateAll (news.filter (·.type = x.type)) x :: setAll (news.filter (·.type ≠ x.type)) cs := by
  induction news generalizing x cs with
  | nil => rfl
  | cons b news ih =>
    show setAll news (set b (x :: cs)) = _
    unfold set
    by_cases ht : x.type = b.type
    · rw [if_pos ht, ih, update_type]
      simp [ht, updateAll]
    · rw [if_neg ht, ih]
      simp [Ne.symm ht, setAll]

/-- **Setting conditions a second time changes nothing.** -/
theorem setAll_setAll (news cs : List Condition) : setAll news (setAll news cs) = setAll news cs := by
  induction cs generalizing news with
  | cons x cs ih =>
    rw [setAll_cons, setAll_cons, updateAll_type, updateAll_updateAll, ih]
  | nil =>
    induction hn : news.length using Nat.strongRecOn generalizing news with
    | ind n ih =>
      cases news with
      | nil => rfl
      | cons b news =>
        have hlt : (news.filter (·.type ≠ b.type)).length < n := by
          have := List.length_filter_le (fun c : Condition => decide (c.type ≠ b.type)) news
          rw [← hn, List.length_cons]
          omega
        -- the first one comes to stand at the head, where it is updated by itself in vain
        have hb : setAll (b :: news) [] =
            updateAll (b :: news.filter (·.type = b.type)) b :: setAll (news.filter (·.type ≠ b.type)) [] := by
          show setAll news [b] = _
          rw [setAll_cons]
          show _ = updateAll _ (update b b) :: _
          rw [update_self]
        rw [hb, setAll_cons, updateAll_type]
        rw [List.filter_cons_of_pos (by simp), List.filter_cons_of_neg (by simp), updateAll_updateAll, ih _ hlt _ rfl]

end Condition

namespace AppStatus

open Condition (Like setAll)

variable {clock : List Instant}

structure Like (clock : List Instant) (a b : AppStatus) : Prop where
  conditions : List.Forall₂ (Condition.Like clock) a.conditions b.conditions
  activeScheduler : a.activeScheduler = b.activeScheduler
  readyReplicas : a.readyReplicas = b.readyReplicas

theorem forall₂_refl (cs : List Condition) : List.Forall₂ (Condition.Like clock) cs cs :=
  List.forall₂_same.2 fun c _ => .refl c

theorem Like.refl (s : AppStatus) : Like clock s s := ⟨forall₂_refl _, rfl, rfl⟩

theorem forall₂_trans {as bs cs : List Condition} (h : List.Forall₂ (Condition.Like clock) as bs)
    (h' : List.Forall₂ (Condition.Like clock) bs cs) : List.Forall₂ (Condition.Like clock) as cs := by
  induction h generalizing cs with
  | nil => exact h'
  | cons hx _ ih =>
    cases h' with
    | cons hy h' => exact .cons (hx.trans hy) (ih h')

theorem Like.trans {a b c : AppStatus} (h : Like clock a b) (h' : Like clock b c) : Like clock a c :=
  ⟨forall₂_trans h.conditions h'.conditions, h.activeScheduler.trans h'.activeScheduler,
    h.readyReplicas.trans h'.readyReplicas⟩

theorem observedConditions_like {n n' : Instant} (hn : n ∈ clock) (hn' : n' ∈ clock) (d : Option Deployment) :
    List.Forall₂ (Condition.Like clock) (observedConditions n d) (observedConditions n' d) := by
  unfold observedConditions
  cases d with
  | none =>
    rw [List.forall₂_map_left_iff, List.forall₂_map_right_iff]
    exact List.forall₂_same.2 fun type _ => ⟨rfl, rfl, rfl, rfl, .inr ⟨hn, hn'⟩⟩
  | some d =>
    dsimp only
    rw [List.forall₂_map_left_iff, List.forall₂_map_right_iff]
    refine List.forall₂_same.2 fun c _ => ⟨rfl, rfl, rfl, rfl, ?_⟩
    unfold DeploymentCondition.toCondition
    cases c.lastTransitionTime with
    | none => exact .inr ⟨hn, hn'⟩
    | some l => exact .inl rfl

/-- **When something is observed does not matter**, but for the times read off the clock. -/
theorem observe_like {n n' : Instant} (hn : n ∈ clock) (hn' : n' ∈ clock) (executor : String) (d : Option Deployment)
    (s : AppStatus) : Like clock (s.observe n executor d) (s.observe n' executor d) :=
  ⟨Condition.setAll_like (observedConditions_like hn hn' d) (forall₂_refl _), rfl, rfl⟩

/-- **To observe the same twice is to observe it once.** -/
theorem observe_observe (n : Instant) (executor : String) (d : Option Deployment) (s : AppStatus) :
    (s.observe n executor d).observe n executor d = s.observe n executor d := by
  unfold observe
  exact congrArg (AppStatus.mk · _ _) (Condition.setAll_setAll ..)

/-- Of a `Deployment`, only that it is there and the status that it reports are observed. -/
theorem observe_congr {d d' : Option Deployment} (hsome : d.isSome = d'.isSome)
    (hst : (d >>= Deployment.status) = (d' >>= Deployment.status)) (n : Instant) (executor : String) (s : AppStatus) :
    s.observe n executor d = s.observe n executor d' := by
  have hr : observedReplicas d = observedReplicas d' := by
    unfold observedReplicas
    rw [hst]
  have hc : observedConditions n d = observedConditions n d' := by
    unfold observedConditions
    cases d with
    | none =>
      cases d' with
      | none => rfl
      | some d' => cases hsome
    | some d =>
      cases d' with
      | none => cases hsome
      | some d' =>
        have hst : d.status = d'.status := hst
        dsimp only
        rw [hst]
  unfold observe
  rw [hc, hr]

/-- A `Deployment` that has not reported anything yet leaves the conditions as they are. -/
theorem observe_silent {d : Deployment} (hd : d.status = none) (n : Instant) (executor : String) (s : AppStatus) :
    s.observe n executor (some d) = ⟨s.conditions, some executor, 0⟩ := by
  unfold observe observedConditions observedReplicas
  simp [hd]

/-- **An observation after another one tells of the same**, also if the `Deployment` has come to be in between. -/
theorem observe_again {n₁ n₂ n₃ : Instant} (h₁ : n₁ ∈ clock) (h₂ : n₂ ∈ clock) (h₃ : n₃ ∈ clock)
    {d d' : Option Deployment} (hsome : d.isSome = true → d'.isSome = true)
    (hst : (d' >>= Deployment.status) = (d >>= Deployment.status)) (executor : String) (s : AppStatus) :
    Like clock ((s.observe n₁ executor d).observe n₂ executor d') (s.observe n₃ executor d) := by
  refine .trans ?_ (observe_like h₁ h₃ executor d s)
  by_cases h : d'.isSome = d.isSome
  · rw [observe_congr h hst]
    have hl := observe_like h₂ h₁ executor d (s.observe n₁ executor d)
    rwa [observe_observe] at hl
  · match d, d' with
    | none, none => exact (h rfl).elim
    | some _, none => cases hsome rfl
    | some _, some _ => exact (h rfl).elim
    | none, some d' =>
      rw [observe_silent hst]
      exact .refl _

end AppStatus

end SpinFleet
