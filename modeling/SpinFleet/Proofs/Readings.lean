import SpinFleet.Proofs.Clock
import SpinFleet.Proofs.Histories
import SpinFleet.Proofs.Merging
import SpinFleet.Proofs.RoundTrip
import SpinFleet.Kube.Deployment
/-!
# Readings — what is read can be written

A status holds times and a number, and it takes them over from where they were read: from the status before, from a
`Deployment`, and from the clock.  All times that are read are in the calendar and all numbers fit
(`AppStatus.valid_of_decode`, `Deployment.sound_of_decode`), and an observation keeps that.  So the times of a status
that was observed are restored, whatever it was made from (`AppStatus.observe_restorable`).
-/
namespace SpinFleet

open Codec (IsInt32)
open SpinFleet.Field (keeps_of_read)

/-! ## Times that are read -/

namespace Codec

variable {α : Type} {c : Codec α} {format : Instant → String} {j : Json} {t : Instant}

theorem valid_of_decode (h : (time format).decode j = .ok t) : t.Valid := by
  unfold time at h
  dsimp only at h
  split at h
  · split at h
    · rename_i hparse
      cases h
      exact Instant.valid_of_parse hparse
    · cases h
  · cases h

theorem time_restores (h : t.Valid) : (time Instant.textExact).Restores t := by
  unfold Restores time
  dsimp only
  rw [Instant.parse_textExact h]

theorem decodeItems_mem {as : List α} : ∀ {js : List Json} {i : Nat}, decodeItems c.decode i js = .ok as →
    ∀ a ∈ as, ∃ j, c.decode j = .ok a := by
  induction as with
  | nil => exact fun _ => nofun
  | cons a as ih =>
    intro js i h
    cases js with
    | nil => cases h
    | cons j js =>
      obtain ⟨b, hb, h⟩ := Decoded.bind_eq_ok.1 h
      obtain ⟨bs, hbs, h⟩ := Decoded.bind_eq_ok.1 h
      cases h
      refine List.forall_mem_cons.2 ⟨⟨j, ?_⟩, ih hbs⟩
      cases hj : c.decode j with
      | error e =>
        rw [hj] at hb
        cases hb
      | ok a' =>
        rw [hj] at hb
        exact hb

theorem list_mem {as : List α} (h : (list c).decode j = .ok as) : ∀ a ∈ as, ∃ j, c.decode j = .ok a := by
  cases j with
  | array js => exact decodeItems_mem h
  | _ => cases h

end Codec

theorem Condition.valid_of_decode {j : Json} {c : Condition} (h : codec.decode j = .ok c) :
    c.lastTransitionTime.Valid := by
  refine Record.decodeStrict_keeps (P := fun c => c.lastTransitionTime.Valid) ?_ ?_ h
  · exact ⟨by decide, by decide⟩
  simp only [record, List.forall_mem_cons, List.not_mem_nil, false_implies, implies_true, and_true]
  refine ⟨?_, ?_, ?_, ?_, ?_⟩
  case refine_5 => exact keeps_of_read (fun _ => rfl) fun _ _ ht _ _ => Codec.valid_of_decode ht
  all_goals exact keeps_of_read (fun _ => rfl) fun _ _ _ _ hz => hz

theorem AppStatus.valid_of_decode {j : Json} {s : AppStatus} (h : codec.decode j = .ok s) :
    ∀ c ∈ s.conditions, c.lastTransitionTime.Valid := by
  refine Record.decodeStrict_keeps (P := fun s => ∀ c ∈ s.conditions, c.lastTransitionTime.Valid) nofun ?_ h
  simp only [record, List.forall_mem_cons, List.not_mem_nil, false_implies, implies_true, and_true]
  refine ⟨?_, ?_, ?_⟩
  · refine keeps_of_read (fun _ => rfl) fun _ _ hcs _ _ c hc => ?_
    obtain ⟨j, hj⟩ := Codec.list_mem hcs c hc
    exact Condition.valid_of_decode hj
  all_goals exact keeps_of_read (fun _ => rfl) fun _ _ _ _ hz => hz

theorem App.status_of_decode {j : Json} {a : App} (h : codec.decode j = .ok a) :
    ∀ s ∈ a.status, ∃ j, AppStatus.codec.decode j = .ok s := by
  refine Record.decodeStrict_keeps (P := fun a => ∀ s ∈ a.status, ∃ j, AppStatus.codec.decode j = .ok s) ?_ ?_ h
  · rintro _ ⟨⟩
  simp only [record, List.forall_mem_cons, List.not_mem_nil, false_implies, implies_true, and_true]
  refine ⟨?_, ?_, ?_⟩
  case refine_3 =>
    refine keeps_of_read (fun _ => rfl) fun _ _ ho _ _ => ?_
    exact Codec.nullable_of_decode ho fun j _ hj => ⟨j, hj⟩
  all_goals exact keeps_of_read (fun _ => rfl) fun _ _ _ _ hz => hz

/-! ## Deployments that are read -/

namespace Field

variable {σ : Type} {P : σ → Prop} {get : σ → Carried} {set : Carried → σ → σ}

theorem carriedAll_keeps {parts : List (String × Shape)} {f : Field σ} (hf : f ∈ carriedAll get set parts)
    (h : ∀ d z, P z → P (set d z)) : f.Keeps P := by
  intro j u hu z hz
  obtain ⟨⟨name, shape⟩, -, rfl⟩ := List.mem_map.1 hf
  unfold carried at hu
  dsimp only at hu
  split at hu
  · cases hu
    exact h _ z hz
  · obtain ⟨v, -, hu⟩ := Decoded.bind_eq_ok.1 hu
    cases hu
    exact h _ z hz

theorem fixed_keeps (name text : String) : (fixed name text).Keeps P := by
  intro j u hu z hz
  obtain ⟨s, -, hu⟩ := Decoded.bind_eq_ok.1 hu
  split at hu
  · cases hu
    exact hz
  · cases hu

end Field

theorem Record.readMembersLenient_keeps {σ : Type} {r : Record σ} {P : σ → Prop} (hf : ∀ f ∈ r.fields, f.Keeps P)
    {ms : List (String × Json)} {i : Nat} {z x : σ} (h : r.readMembersLenient i z ms = .ok x) (hz : P z) : P x := by
  induction ms generalizing i z with
  | nil =>
    cases h
    exact hz
  | cons m ms ih =>
    rcases readMembersLenient_cons.1 h with ⟨-, h⟩ | ⟨f, u, hfound, hu, h⟩
    · exact ih h hz
    · exact ih h (hf f (field?_mem hfound) _ u hu z hz)

theorem Record.decodeLenient_keeps {σ : Type} {r : Record σ} {P : σ → Prop} (hstart : P r.start)
    (hf : ∀ f ∈ r.fields, f.Keeps P) {j : Json} {x : σ} (h : r.decodeLenient j = .ok x) : P x := by
  cases j with
  | object ms => exact readMembersLenient_keeps hf h hstart
  | _ => cases h

theorem DeploymentCondition.valid_of_decode {j : Json} {c : DeploymentCondition} (h : codec.decode j = .ok c) :
    ∀ t ∈ c.lastTransitionTime, t.Valid := by
  refine Record.decodeLenient_keeps (P := fun c => ∀ t ∈ c.lastTransitionTime, t.Valid) ?_ ?_ h
  · rintro _ ⟨⟩
  simp only [record, List.forall_mem_append, List.forall_mem_cons, List.not_mem_nil, false_implies, implies_true,
    and_true]
  refine ⟨⟨?_, ?_, ?_, ?_, ?_⟩, fun _ hf => Field.carriedAll_keeps hf fun _ _ hz => hz⟩
  · refine keeps_of_read (fun _ => rfl) fun _ _ ho _ _ => ?_
    exact Codec.nullable_of_decode ho fun _ _ => Codec.valid_of_decode
  all_goals exact keeps_of_read (fun _ => rfl) fun _ _ _ _ hz => hz

/-- A report of which the number fits and the times are in the calendar. -/
structure DeploymentStatus.Sound (s : DeploymentStatus) : Prop where
  replicas : ∀ n ∈ s.readyReplicas, IsInt32 n
  times : ∀ c ∈ s.conditionList, ∀ t ∈ c.lastTransitionTime, t.Valid

theorem DeploymentStatus.sound_of_decode {j : Json} {s : DeploymentStatus} (h : codec.decode j = .ok s) : s.Sound := by
  refine Record.decodeLenient_keeps (P := Sound) ?_ ?_ h
  · constructor <;> rintro _ ⟨⟩
  simp only [record, List.forall_mem_append, List.forall_mem_cons, List.not_mem_nil, false_implies, implies_true,
    and_true]
  refine ⟨⟨?_, ?_⟩, fun _ hf => Field.carriedAll_keeps hf fun _ _ hz => ⟨hz.replicas, hz.times⟩⟩
  · refine keeps_of_read (fun _ => rfl) fun _ o ho _ hz => ⟨hz.replicas, fun c hc => ?_⟩
    have hlist : ∀ cs ∈ o, ∀ c ∈ cs, ∀ t ∈ c.lastTransitionTime, t.Valid := by
      refine Codec.nullable_of_decode ho fun j cs hcs c hc => ?_
      obtain ⟨j', hj'⟩ := Codec.list_mem hcs c hc
      exact DeploymentCondition.valid_of_decode hj'
    cases o with
    | none => cases hc
    | some cs => exact hlist cs rfl c hc
  · refine keeps_of_read (fun _ => rfl) fun _ _ ho _ hz => { hz with replicas := ?_ }
    exact Codec.nullable_of_decode ho fun _ _ => Codec.isInt32_of_decode

theorem Deployment.sound_of_decode {j : Json} {d : Deployment} (h : codec.decode j = .ok d) :
    ∀ s ∈ d.status, s.Sound := by
  refine Record.decodeLenient_keeps (P := fun d => ∀ s ∈ d.status, s.Sound) ?_ ?_ h
  · rintro _ ⟨⟩
  simp only [record, List.forall_mem_cons, List.not_mem_nil, false_implies, implies_true, and_true]
  refine ⟨Field.fixed_keeps _ _, Field.fixed_keeps _ _, ?_, ?_, ?_⟩
  case refine_3 =>
    refine keeps_of_read (fun _ => rfl) fun _ _ ho _ _ => ?_
    exact Codec.nullable_of_decode ho fun _ _ => DeploymentStatus.sound_of_decode
  all_goals exact keeps_of_read (fun _ => rfl) fun _ _ _ _ hz => hz

/-! ## What is observed -/

namespace Condition

variable {P : Instant → Prop} {news cs : List Condition}

theorem setAll_times (hn : ∀ c ∈ news, P c.lastTransitionTime) (hc : ∀ c ∈ cs, P c.lastTransitionTime) :
    ∀ c ∈ setAll news cs, P c.lastTransitionTime := by
  have hset {n : Condition} (hn : P n.lastTransitionTime) {cs : List Condition}
      (hc : ∀ c ∈ cs, P c.lastTransitionTime) : ∀ c ∈ set n cs, P c.lastTransitionTime := by
    induction cs with
    | nil => exact List.forall_mem_singleton.2 hn
    | cons c cs ih =>
      obtain ⟨hself, hcs⟩ := List.forall_mem_cons.1 hc
      unfold set
      split
      · refine List.forall_mem_cons.2 ⟨?_, hcs⟩
        unfold update
        split
        · exact hself
        · exact hn
      · exact List.forall_mem_cons.2 ⟨hself, ih hcs⟩
  induction news generalizing cs with
  | nil => exact hc
  | cons n news ih =>
    obtain ⟨hself, hnews⟩ := List.forall_mem_cons.1 hn
    exact ih hnews (hset hself hc)

theorem eq_nil_of_setAll (h : setAll news cs = []) : cs = [] := by
  have hprefix := prefix_types_setAll news cs
  rw [h] at hprefix
  exact List.map_eq_nil_iff.1 (List.prefix_nil.1 hprefix)

end Condition

theorem observedConditions_times {now : Instant} (hnow : now.Valid) {d : Option Deployment}
    (hd : ∀ x ∈ d, ∀ s ∈ x.status, s.Sound) : ∀ c ∈ observedConditions now d, c.lastTransitionTime.Valid := by
  intro c hc
  cases d with
  | none =>
    obtain ⟨type, -, rfl⟩ := List.mem_map.1 hc
    exact hnow
  | some x =>
    obtain ⟨r, hr, rfl⟩ := List.mem_map.1 hc
    have hr := (List.mem_filter.1 hr).1
    cases hs : x.status with
    | none =>
      rw [hs] at hr
      cases hr
    | some s =>
      rw [hs] at hr
      have htime := (hd x rfl s hs).times r hr
      show (r.lastTransitionTime.getD now).Valid
      cases ht : r.lastTransitionTime with
      | none => exact hnow
      | some t => exact htime t ht

theorem isInt32_observedReplicas {d : Option Deployment} (hd : ∀ x ∈ d, ∀ s ∈ x.status, s.Sound) :
    IsInt32 (observedReplicas d) := by
  unfold observedReplicas
  cases hn : (d >>= Deployment.status) >>= DeploymentStatus.readyReplicas with
  | none => decide
  | some n =>
    obtain ⟨s, hs, hn⟩ := Option.bind_eq_some_iff.1 hn
    obtain ⟨x, hx, hs⟩ := Option.bind_eq_some_iff.1 hs
    exact (hd x hx s hs).replicas n hn

/-- **The times of a status that is observed are restored.** -/
theorem AppStatus.observe_restorable {now : Instant} (hnow : now.Valid) (executor : String) {d : Option Deployment}
    (hd : ∀ x ∈ d, ∀ s ∈ x.status, s.Sound) {s : AppStatus} (hs : ∀ c ∈ s.conditions, c.lastTransitionTime.Valid) :
    (s.observe now executor d).Restorable := fun c hc =>
  Codec.time_restores (Condition.setAll_times (P := Instant.Valid) (observedConditions_times hnow hd) hs c hc)

end SpinFleet
