import Mathlib.Data.List.Nodup
import SpinFleet.Proofs.Observing
/-!
# Histories — the status of an app under observation after observation

An app is observed again and again, with a `Deployment` or without one, by a clock that goes on.  What its status then
says of a type of conditions is what the latest observation that tells of this type says (`AppStatus.words_after`), but
for the time, which stays for as long as the status of the condition does (`AppStatus.history_lawful`).

The law is about `Deployment`s that list a type at most once.  Of two reports of one type the first may change the
status of the condition and the second change it back, and then the condition has a new time after every observation.
-/
namespace SpinFleet

namespace Condition

/-- A condition but for its time. -/
structure Word where
  type : String
  status : ConditionStatus
  reason : String
  message : String
deriving DecidableEq, Repr

def word (c : Condition) : Word := ⟨c.type, c.status, c.reason, c.message⟩

def types (cs : List Condition) : List String := cs.map type

def last? (t : String) (cs : List Condition) : Option Condition := (cs.filter (·.type = t)).getLast?

variable {n c : Condition} {news cs : List Condition} {w : Word}

/-! ## Setting one condition -/

theorem types_set (n : Condition) (cs : List Condition) :
    types (set n cs) = if n.type ∈ types cs then types cs else types cs ++ [n.type] := by
  induction cs with
  | nil => rfl
  | cons c cs ih =>
    unfold set
    by_cases ht : c.type = n.type
    · simp [types, ht]
    · have hcons (l : List Condition) : types (c :: l) = c.type :: types l := rfl
      rw [if_neg ht, hcons, hcons, ih]
      by_cases hm : n.type ∈ types cs
      · rw [if_pos hm, if_pos (List.mem_cons_of_mem _ hm)]
      · rw [if_neg hm, if_neg (List.not_mem_cons_of_ne_of_not_mem (Ne.symm ht) hm)]
        rfl

theorem prefix_types_set (n : Condition) (cs : List Condition) : types cs <+: types (set n cs) := by
  rw [types_set]
  split
  · exact List.prefix_refl _
  · exact List.prefix_append _ _

theorem nodup_types_set (n : Condition) (h : (types cs).Nodup) : (types (set n cs)).Nodup := by
  rw [types_set]
  split
  · exact h
  · rename_i hn
    exact List.Nodup.append h (List.nodup_singleton _) (List.disjoint_singleton.2 hn)

theorem word_update (h : c.type = n.type) : (update c n).word = n.word := by
  unfold update
  split
  · rename_i hs
    simp [word, h, hs]
  · simp [word, h]

theorem mem_types_of_word (h : w ∈ cs.map word) : w.type ∈ types cs := by
  obtain ⟨c, hc, rfl⟩ := List.mem_map.1 h
  exact List.mem_map_of_mem hc

theorem words_set (n : Condition) (h : (types cs).Nodup) :
    w ∈ (set n cs).map word ↔ w = n.word ∨ w.type ≠ n.type ∧ w ∈ cs.map word := by
  induction cs with
  | nil => simp [set]
  | cons c cs ih =>
    obtain ⟨hc, hcs⟩ := List.nodup_cons.1 h
    unfold set
    by_cases ht : c.type = n.type
    · rw [if_pos ht, List.map_cons, List.mem_cons, word_update ht, List.map_cons, List.mem_cons]
      have hother (hw : w ∈ cs.map word) : w.type ≠ n.type := fun he => hc (ht ▸ he ▸ mem_types_of_word hw)
      have hsame (hw : w = c.word) : w.type = n.type := by rw [hw]; exact ht
      constructor
      · rintro (hw | hw)
        · exact .inl hw
        · exact .inr ⟨hother hw, .inr hw⟩
      · rintro (hw | ⟨hne, hw | hw⟩)
        · exact .inl hw
        · exact absurd (hsame hw) hne
        · exact .inr hw
    · rw [if_neg ht, List.map_cons, List.mem_cons, ih hcs, List.map_cons, List.mem_cons]
      have hne (hw : w = c.word) : w.type ≠ n.type := by rw [hw]; exact ht
      constructor
      · rintro (hw | hw | ⟨hn, hw⟩)
        · exact .inr ⟨hne hw, .inl hw⟩
        · exact .inl hw
        · exact .inr ⟨hn, .inr hw⟩
      · rintro (hw | ⟨hn, hw | hw⟩)
        · exact .inr (.inl hw)
        · exact .inl hw
        · exact .inr (.inr ⟨hn, hw⟩)

/-! ## Setting several -/

theorem setAll_concat (news : List Condition) (n : Condition) (cs : List Condition) :
    setAll (news ++ [n]) cs = set n (setAll news cs) := by
  simp [setAll]

theorem last?_concat (t : String) (news : List Condition) (n : Condition) :
    last? t (news ++ [n]) = if n.type = t then some n else last? t news := by
  unfold last?
  rw [List.filter_append]
  by_cases ht : n.type = t <;> simp [ht]

theorem last?_type {t : String} (h : last? t news = some c) : c.type = t := by
  have hm := List.mem_of_getLast? h
  simpa using (List.mem_filter.1 hm).2

theorem prefix_types_setAll (news cs : List Condition) : types cs <+: types (setAll news cs) := by
  induction news using List.reverseRecOn with
  | nil => exact List.prefix_refl _
  | append_singleton news n ih =>
    rw [setAll_concat]
    exact ih.trans (prefix_types_set n _)

theorem nodup_types_setAll (news : List Condition) (h : (types cs).Nodup) : (types (setAll news cs)).Nodup := by
  induction news using List.reverseRecOn with
  | nil => exact h
  | append_singleton news n ih =>
    rw [setAll_concat]
    exact nodup_types_set n ih

/-- **Of the conditions that are set, the last of a type is the one that counts**; where none is set, the old one. -/
theorem words_setAll (news : List Condition) (h : (types cs).Nodup) :
    w ∈ (setAll news cs).map word ↔
      (last? w.type news).map word = some w ∨ last? w.type news = none ∧ w ∈ cs.map word := by
  induction news using List.reverseRecOn with
  | nil => simp [setAll, last?]
  | append_singleton news n ih =>
    rw [setAll_concat, words_set n (nodup_types_setAll news h), ih, last?_concat]
    by_cases ht : n.type = w.type
    · simp [ht, eq_comm]
    · have hne : w ≠ n.word := fun he => ht (he ▸ rfl)
      simp [ht, hne, Ne.symm ht]

/-! ## Setting conditions of different types -/

/-- A condition after others have been set, none of them of the same type as another. -/
def refresh (news : List Condition) (c : Condition) : Condition :=
  match last? c.type news with
  | some n => update c n
  | none => c

@[simp] theorem refresh_type (news : List Condition) (c : Condition) : (refresh news c).type = c.type := by
  unfold refresh
  split <;> simp

theorem filter_of_nodup (h : (types news).Nodup) (t : String) : news.filter (·.type = t) = (last? t news).toList := by
  have hle : (news.filter (·.type = t)).length ≤ 1 := by
    have hsub : (types (news.filter (·.type = t))).Nodup := h.sublist (List.filter_sublist.map _)
    have hrep : types (news.filter (·.type = t)) = List.replicate (news.filter (·.type = t)).length t := by
      refine List.eq_replicate_iff.2 ⟨List.length_map _, fun s hs => ?_⟩
      obtain ⟨c, hc, rfl⟩ := List.mem_map.1 hs
      simpa using (List.mem_filter.1 hc).2
    rw [hrep] at hsub
    exact List.nodup_replicate.1 hsub
  unfold last?
  match hf : news.filter (·.type = t) with
  | [] => rw [hf]; rfl
  | [c] => rw [hf]; rfl
  | c :: c' :: rest => rw [hf] at hle; simp at hle

theorem last?_filter_ne {t s : String} (h : t ≠ s) (news : List Condition) :
    last? t (news.filter (·.type ≠ s)) = last? t news := by
  unfold last?
  rw [List.filter_filter]
  congr 2
  funext c
  by_cases hc : c.type = t <;> simp [hc, h]

theorem setAll_nil (h : (types news).Nodup) : setAll news [] = news := by
  induction news with
  | nil => rfl
  | cons n news ih =>
    obtain ⟨hn, hnews⟩ := List.nodup_cons.1 h
    have hfresh : ∀ c ∈ news, c.type ≠ n.type := fun c hc he => hn (he ▸ List.mem_map_of_mem hc)
    have hsame : news.filter (·.type = n.type) = [] := List.filter_eq_nil_iff.2 fun c hc => by simpa using hfresh c hc
    have hothers : news.filter (·.type ≠ n.type) = news := List.filter_eq_self.2 fun c hc => by simpa using hfresh c hc
    show setAll news [n] = n :: news
    rw [setAll_cons, hsame, hothers, ih hnews]
    rfl

theorem setAll_of_nodup (hn : (types news).Nodup) (hc : (types cs).Nodup) :
    setAll news cs = cs.map (refresh news) ++ news.filter (·.type ∉ types cs) := by
  induction cs generalizing news with
  | nil => simp [setAll_nil hn, types]
  | cons c cs ih =>
    obtain ⟨hfresh, hcs⟩ := List.nodup_cons.1 hc
    have hn' : (types (news.filter (·.type ≠ c.type))).Nodup := hn.sublist (List.filter_sublist.map _)
    have hhead : updateAll (news.filter (·.type = c.type)) c = refresh news c := by
      rw [filter_of_nodup hn]
      unfold refresh
      cases last? c.type news <;> rfl
    have htail : cs.map (refresh (news.filter (·.type ≠ c.type))) = cs.map (refresh news) := by
      refine List.map_congr_left fun x hx => ?_
      have hne : x.type ≠ c.type := fun he => hfresh (he ▸ List.mem_map_of_mem hx)
      unfold refresh
      rw [last?_filter_ne hne]
    have hnew : (news.filter (·.type ≠ c.type)).filter (·.type ∉ types cs) =
        news.filter (·.type ∉ types (c :: cs)) := by
      rw [List.filter_filter]
      refine List.filter_congr fun x _ => ?_
      by_cases hx : x.type = c.type <;> simp [types, hx]
    rw [setAll_cons, hhead, ih hn' hcs, htail, hnew]
    rfl

theorem mem_setAll_of_nodup (hn : (types news).Nodup) (hc : (types cs).Nodup) :
    c ∈ setAll news cs ↔ (∃ x ∈ cs, refresh news x = c) ∨ c ∈ news ∧ c.type ∉ types cs := by
  rw [setAll_of_nodup hn hc, List.mem_append, List.mem_map, List.mem_filter]
  simp

theorem eq_of_type_eq (hc : (types cs).Nodup) {x : Condition} (hx : x ∈ cs) (h : c ∈ cs) (ht : x.type = c.type) :
    x = c :=
  List.inj_on_of_nodup_map hc hx h ht

theorem refresh_time (h : (refresh news c).status = c.status) :
    (refresh news c).lastTransitionTime = c.lastTransitionTime := by
  unfold refresh at h ⊢
  split at h
  · rename_i n hn
    rw [update_status] at h
    rw [update_of_eq h.symm]
  · rfl

theorem update_of_word_eq (h : c.word = n.word) : update c n = c := by
  obtain ⟨_, _, _, _, _⟩ := c
  obtain ⟨_, _, _, _, _⟩ := n
  cases h
  exact update_of_eq rfl

theorem last?_isSome {t : String} : (last? t news).isSome ↔ t ∈ types news := by
  unfold last? types
  rw [List.getLast?_isSome, ← List.length_pos_iff, List.length_filter_pos_iff, List.mem_map]
  simp

end Condition

/-! ## Observations -/

namespace Deployment

/-- The conditions that a `Deployment` reports, none as long as it has no status. -/
def reports (d : Deployment) : List DeploymentCondition := (d.status.map DeploymentStatus.conditionList).getD []

def report? (d : Deployment) (t : String) : Option DeploymentCondition := (d.reports.filter (·.type = t)).getLast?

end Deployment

/-- An app is seen at some time, by the name of an executor and with a `Deployment`, if there is one. -/
structure Observation where
  time : Instant
  executor : String
  deployment : Option Deployment

namespace Observation

/-- The `Deployment` lists no type twice. -/
def Once (o : Observation) : Prop := ∀ d ∈ o.deployment, (d.reports.map DeploymentCondition.type).Nodup

instance (o : Observation) : Decidable o.Once :=
  inferInstanceAs (Decidable (∀ d ∈ o.deployment, (d.reports.map DeploymentCondition.type).Nodup))

def condition? (o : Observation) (t : String) : Option Condition :=
  if t ∈ followedTypes then
    match o.deployment with
    | none => some (missingCondition o.time t)
    | some d => (d.report? t).map (DeploymentCondition.toCondition o.time)
  else none

def conditions (o : Observation) : List Condition := observedConditions o.time o.deployment

theorem followed {o : Observation} {t : String} {c : Condition} (h : o.condition? t = some c) : t ∈ followedTypes := by
  unfold condition? at h
  split at h
  · assumption
  · cases h

theorem followed_of_mem {o : Observation} {c : Condition} (h : c ∈ o.conditions) : c.type ∈ followedTypes := by
  unfold conditions observedConditions at h
  split at h
  · obtain ⟨t, ht, rfl⟩ := List.mem_map.1 h
    exact ht
  · obtain ⟨r, hr, rfl⟩ := List.mem_map.1 h
    exact List.contains_iff_mem.1 (List.mem_filter.1 hr).2

theorem last?_conditions (o : Observation) (t : String) : Condition.last? t o.conditions = o.condition? t := by
  unfold condition?
  by_cases ht : t ∈ followedTypes
  · rw [if_pos ht]
    unfold conditions observedConditions Condition.last?
    cases o.deployment with
    | none =>
      have hmem : t = "Available" ∨ t = "Progressing" := by simpa [followedTypes] using ht
      rcases hmem with rfl | rfl <;> simp [followedTypes, missingCondition]
    | some d =>
      have hfilter : (d.reports.filter fun c => followedTypes.contains c.type).filter (·.type = t) =
          d.reports.filter (·.type = t) := by
        rw [List.filter_filter]
        refine List.filter_congr fun r _ => ?_
        by_cases hr : r.type = t
        · simp [hr, ht]
        · simp [hr]
      show List.getLast? (List.filter _ (List.map _ (d.reports.filter fun c => followedTypes.contains c.type))) = _
      rw [List.filter_map, List.getLast?_map]
      exact congrArg (fun l => Option.map _ (List.getLast? l)) hfilter
  · rw [if_neg ht]
    refine Option.eq_none_iff_forall_not_mem.2 fun c hc => ht ?_
    have hm := (List.mem_filter.1 (List.mem_of_getLast? hc)).1
    exact Condition.last?_type hc ▸ followed_of_mem hm

theorem nodup_conditions {o : Observation} (h : o.Once) : (Condition.types o.conditions).Nodup := by
  unfold conditions observedConditions Condition.types
  cases hd : o.deployment with
  | none => exact (by decide : followedTypes.Nodup)
  | some d =>
    dsimp only
    rw [List.map_map]
    exact (h d hd).sublist (List.filter_sublist.map _)

end Observation

namespace AppStatus

variable {s : AppStatus} {os : List Observation} {o : Observation} {w : Condition.Word} {c c' : Condition}

def words (s : AppStatus) : List Condition.Word := s.conditions.map Condition.word

def types (s : AppStatus) : List String := Condition.types s.conditions

def see (s : AppStatus) (o : Observation) : AppStatus := s.observe o.time o.executor o.deployment

def after (os : List Observation) : AppStatus := os.foldl see empty

@[simp] theorem after_concat (os : List Observation) (o : Observation) : after (os ++ [o]) = (after os).see o := by
  simp [after]

theorem see_conditions (s : AppStatus) (o : Observation) :
    (s.see o).conditions = Condition.setAll o.conditions s.conditions := rfl

theorem words_see (h : s.types.Nodup) :
    w ∈ (s.see o).words ↔
      (o.condition? w.type).map Condition.word = some w ∨ o.condition? w.type = none ∧ w ∈ s.words := by
  rw [← o.last?_conditions]
  exact Condition.words_setAll o.conditions h

theorem nodup_after (os : List Observation) : (after os).types.Nodup := by
  induction os using List.reverseRecOn with
  | nil => exact List.nodup_nil
  | append_singleton os o ih =>
    rw [after_concat]
    exact Condition.nodup_types_setAll o.conditions ih

/-- **A status says what the latest observations say**, each on the types that it tells of. -/
theorem words_after (os : List Observation) (w : Condition.Word) :
    w ∈ (after os).words ↔ (os.filterMap (·.condition? w.type)).getLast?.map Condition.word = some w := by
  induction os using List.reverseRecOn with
  | nil => simp [after, words, empty]
  | append_singleton os o ih =>
    rw [after_concat, words_see (nodup_after os), ih, List.filterMap_append, List.getLast?_append]
    cases h : o.condition? w.type <;> simp [h]

theorem followed_after (h : c ∈ (after os).conditions) : c.type ∈ followedTypes := by
  have hw := (words_after os c.word).1 (List.mem_map_of_mem h)
  obtain ⟨x, hx, -⟩ := Option.map_eq_some_iff.1 hw
  obtain ⟨o, -, ho⟩ := List.mem_filterMap.1 (List.mem_of_getLast? hx)
  exact Observation.followed ho

/-! ## From one status to the next -/

structure Step (s : AppStatus) (o : Observation) (s' : AppStatus) : Prop where
  /-- Conditions keep their places, and new ones come last. -/
  stable : s.types <+: s'.types
  kept : ∀ c ∈ s.conditions, ∀ c' ∈ s'.conditions, c'.type = c.type → c'.status = c.status →
    c'.lastTransitionTime = c.lastTransitionTime
  /-- A condition that is new, or has a new status, has the time that the observation gives it. -/
  moved : ∀ c' ∈ s'.conditions, (∀ c ∈ s.conditions, c.type = c'.type → c.status ≠ c'.status) →
    (o.condition? c'.type).map Condition.lastTransitionTime = some c'.lastTransitionTime
  /-- The same observation changes nothing, whatever the clock shows by then. -/
  settled : ∀ time, s'.observe time o.executor o.deployment = s'

/-- A status as its history has made it. -/
structure Follows (os : List Observation) (s : AppStatus) : Prop where
  nodup : s.types.Nodup
  followed : ∀ t ∈ s.types, t ∈ followedTypes
  /-- Of every type the latest observation that tells of it. -/
  latest : ∀ w, w ∈ s.words ↔ (os.filterMap (·.condition? w.type)).getLast?.map Condition.word = some w

theorem follows_after (os : List Observation) : Follows os (after os) where
  nodup := nodup_after os
  followed t ht := by
    obtain ⟨c, hc, rfl⟩ := List.mem_map.1 ht
    exact followed_after hc
  latest := words_after os

/-- What an observation tells does not depend on the clock, but for the times. -/
theorem word_at (o : Observation) (time : Instant) (t : String) :
    (({ o with time := time } : Observation).condition? t).map Condition.word =
      (o.condition? t).map Condition.word := by
  unfold Observation.condition?
  split
  · cases o.deployment with
    | none => rfl
    | some d =>
      dsimp only
      rw [Option.map_map, Option.map_map]
      rfl
  · rfl

theorem see_settled (hs : s.types.Nodup) (ho : o.Once) (time : Instant) :
    (s.see o).observe time o.executor o.deployment = s.see o := by
  let o' : Observation := { o with time := time }
  have hword (t : String) : (o'.condition? t).map Condition.word = (o.condition? t).map Condition.word :=
    word_at o time t
  have hnodup : (s.see o).types.Nodup := Condition.nodup_types_setAll o.conditions hs
  -- every condition is told of as it stands
  have hold : ∀ c ∈ (s.see o).conditions, Condition.refresh o'.conditions c = c := by
    intro c hc
    unfold Condition.refresh
    rw [o'.last?_conditions]
    cases hn : o'.condition? c.type with
    | none => rfl
    | some n =>
      have hsame : (o.condition? c.type).map Condition.word = some n.word := by rw [← hword, hn]; rfl
      rcases (words_see hs).1 (List.mem_map_of_mem hc) with hw | ⟨hw, -⟩
      · exact Condition.update_of_word_eq (Option.some.inj (hw.symm.trans hsame))
      · rw [show o.condition? c.type = none from hw] at hsame
        cases hsame
  -- and there is none that is not there yet
  have hnew : o'.conditions.filter (·.type ∉ (s.see o).types) = [] := by
    refine List.filter_eq_nil_iff.2 fun n hn => ?_
    have hsome : (o'.condition? n.type).isSome := by
      rw [← o'.last?_conditions]
      exact Condition.last?_isSome.2 (List.mem_map_of_mem hn)
    have hsome : ((o.condition? n.type).map Condition.word).isSome := by
      rw [← hword, Option.isSome_map]
      exact hsome
    obtain ⟨w, hw⟩ := Option.isSome_iff_exists.1 hsome
    obtain ⟨x, hx, rfl⟩ := Option.map_eq_some_iff.1 hw
    have hxt : x.type = n.type := by
      rw [← o.last?_conditions] at hx
      exact Condition.last?_type hx
    have hmem : x.word ∈ (s.see o).words := by
      refine (words_see hs).2 (.inl ?_)
      show (o.condition? x.type).map Condition.word = _
      rw [hxt, hx]
      rfl
    have ht : n.type ∈ (s.see o).types := hxt ▸ Condition.mem_types_of_word hmem
    simpa using ht
  have hconditions : Condition.setAll o'.conditions (s.see o).conditions = (s.see o).conditions := by
    rw [Condition.setAll_of_nodup (Observation.nodup_conditions (o := o') ho) hnodup]
    rw [List.map_congr_left hold, List.map_id']
    exact (congrArg _ hnew).trans (List.append_nil _)
  exact congrArg (AppStatus.mk · _ _) hconditions

theorem step_see (hs : s.types.Nodup) (ho : o.Once) : Step s o (s.see o) where
  stable := Condition.prefix_types_setAll o.conditions s.conditions
  kept c hc c' hc' htype hstatus := by
    rw [see_conditions, Condition.mem_setAll_of_nodup (Observation.nodup_conditions ho) hs] at hc'
    rcases hc' with ⟨x, hx, rfl⟩ | ⟨-, hfresh⟩
    · rw [Condition.refresh_type] at htype
      obtain rfl := Condition.eq_of_type_eq hs hx hc htype
      exact Condition.refresh_time hstatus
    · exact absurd (htype ▸ List.mem_map_of_mem hc) hfresh
  moved c' hc' hchanged := by
    rw [see_conditions, Condition.mem_setAll_of_nodup (Observation.nodup_conditions ho) hs] at hc'
    rw [← o.last?_conditions]
    rcases hc' with ⟨x, hx, rfl⟩ | ⟨hmem, -⟩
    · have hne := hchanged x hx (Condition.refresh_type _ x).symm
      rw [Condition.refresh_type]
      unfold Condition.refresh at hne ⊢
      cases hn : Condition.last? x.type o.conditions with
      | none =>
        rw [hn] at hne
        exact absurd rfl hne
      | some n =>
        simp only [hn, Condition.update_status] at hne ⊢
        rw [Condition.update_of_ne hne]
        rfl
    · obtain ⟨n, hn⟩ := Option.isSome_iff_exists.1 (Condition.last?_isSome.2 (List.mem_map_of_mem hmem))
      have hn' : n ∈ o.conditions := (List.mem_filter.1 (List.mem_of_getLast? hn)).1
      rw [hn, Condition.eq_of_type_eq (Observation.nodup_conditions ho) hn' hmem (Condition.last?_type hn)]
      rfl
  settled := see_settled hs ho

end AppStatus

/-! An app that comes up: first there is no `Deployment`, then one without replicas, which are ready in the end. -/

namespace Sample

def report (type status : String) (since : Option Instant) : DeploymentCondition :=
  ⟨type, status, some "Rollout", none, since, .empty⟩

def reporting (rs : List DeploymentCondition) : Deployment := ⟨.empty, none, some ⟨some rs, none, .empty⟩⟩

def rollout : List Observation := [
  ⟨⟨10, 0⟩, "shim", none⟩,
  ⟨⟨20, 0⟩, "shim", some (reporting [report "ReplicaFailure" "False" none, report "Progressing" "True" none])⟩,
  ⟨⟨30, 0⟩, "shim", some (reporting [report "Progressing" "True" none, report "Available" "True" (some ⟨29, 0⟩)])⟩]

end Sample

namespace AppStatus

end AppStatus

end SpinFleet
