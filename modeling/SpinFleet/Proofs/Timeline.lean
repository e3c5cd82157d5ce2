import SpinFleet.Proofs.Execution
import SpinFleet.Proofs.Lookups
/-!
# Timelines — the order in which a pass does things

A timeline is what somebody sees who watches a pass from the side of its calls: each call begins, and later its answer
is heard; events are told and measurements recorded.  Nothing is said of the cluster: a call may be answered with
anything, so what holds of all timelines holds whatever the cluster holds, whoever else writes to it, and whichever
calls fail.

A pass is dropped only where it waits (`Pass.Timeline`): for the answer of a call, for one of several look-ups in
flight, or for an event to be told.  Between the answer of a call and the next thing the pass does there is no such
place, and a measurement is recorded without waiting.

`Pass.Timeline.split` and `Attempt.split` take a timeline of two passes in a row apart.
-/
namespace SpinFleet

open Simulation (lookup)

inductive Tick
  | begins (c : Call)
  | heard (c : Call) (answer : Except Error c.Answer)
  | told (e : Event)
  | recorded (m : Measurement)

def LookupTurn.tick : LookupTurn → Tick
  | starts ref => .begins (lookup ref)
  | completes ref answer => .heard (lookup ref) answer

def ticks (u : List LookupTurn) : List Tick := u.map LookupTurn.tick

theorem ticks_append (u v : List LookupTurn) : ticks (u ++ v) = ticks u ++ ticks v := List.map_append ..

/-- A timeline of a pass, and the result that it has come to, none if it was dropped. -/
inductive Pass.Timeline {α : Type} : Pass α → List Tick → Option α → Prop
  | done {a} : Timeline (.done a) [] (some a)
  | call {c next answer t r} (h : Timeline (next answer) t r) :
      Timeline (.call c next) (.begins c :: .heard c answer :: t) r
  | dropped {c next} : Timeline (.call c next) [.begins c] none
  | gather {refs next u x t r} (hu : Lookups.Reaches (.start refs) u (.ended x)) (h : Timeline (next x) t r) :
      Timeline (.gather refs next) (ticks u ++ t) r
  | gatherDropped {refs next u queue ref inFlight found}
      (hu : Lookups.Reaches (.start refs) u (.running queue (ref :: inFlight) found)) :
      Timeline (.gather refs next) (ticks u) none
  | publish {e next t r} (h : Timeline next t r) : Timeline (.publish e next) (.told e :: t) r
  | publishDropped {e next t} (ht : t <+: [.told e]) : Timeline (.publish e next) t none
  | record {m next t r} (h : Timeline next t r) : Timeline (.record m next) (.recorded m :: t) r

namespace Pass

variable {α β : Type} {t : List Tick}

theorem Timeline.of_done {a : α} {r : Option α} (h : Timeline (.done a) t r) : t = [] ∧ r = some a := by
  cases h
  exact ⟨rfl, rfl⟩

def Divides (p : Pass α) (f : α → Pass β) (t : List Tick) (r : Option β) : Prop :=
  (r = none ∧ Timeline p t none) ∨ ∃ a t₁ t₂, t = t₁ ++ t₂ ∧ Timeline p t₁ (some a) ∧ Timeline (f a) t₂ r

theorem Divides.prepend {p q : Pass α} {f : α → Pass β} {r : Option β} {u : List Tick}
    (hu : ∀ {t x}, Timeline q t x → Timeline p (u ++ t) x) (h : Divides q f t r) : Divides p f (u ++ t) r := by
  rcases h with ⟨rfl, h₁⟩ | ⟨a, t₁, t₂, rfl, h₁, h₂⟩
  · exact .inl ⟨rfl, hu h₁⟩
  · exact .inr ⟨a, u ++ t₁, t₂, (List.append_assoc ..).symm, hu h₁, h₂⟩

/-- **A timeline of two passes in a row** is one of the first that was dropped, or one of each. -/
theorem Timeline.split {f : α → Pass β} : ∀ {p : Pass α} {t : List Tick} {r : Option β},
    Timeline (p.bind f) t r → Divides p f t r
  | .done a, t, _, h => .inr ⟨a, [], t, rfl, .done, h⟩
  | .call c next, _, _, h => by
    cases h with
    | call h => exact (split h).prepend (u := [.begins c, .heard c _]) .call
    | dropped => exact .inl ⟨rfl, .dropped⟩
  | .gather refs next, _, _, h => by
    cases h with
    | gather hu h => exact (split h).prepend (.gather hu)
    | gatherDropped hu => exact .inl ⟨rfl, .gatherDropped hu⟩
  | .publish e next, _, _, h => by
    cases h with
    | publish h => exact (split h).prepend (u := [.told e]) .publish
    | publishDropped ht => exact .inl ⟨rfl, .publishDropped ht⟩
  | .record m next, _, _, h => by
    cases h with
    | record h => exact (split h).prepend (u := [.recorded m]) .record

end Pass

namespace Attempt

variable {α β : Type} {t : List Tick}

/-- **A timeline of two attempts in a row** is one of the first that came to no value, or one of each. -/
theorem split {x : Attempt α} {f : α → Attempt β} {r : Option (Except Error β)}
    (h : Pass.Timeline (x >>= f).run t r) :
    (∃ e : Option Error, r = e.map .error ∧ Pass.Timeline x.run t (e.map .error)) ∨
    ∃ a t₁ t₂, t = t₁ ++ t₂ ∧ Pass.Timeline x.run t₁ (some (.ok a)) ∧ Pass.Timeline (f a).run t₂ r := by
  rw [bind_run] at h
  rcases h.split with ⟨rfl, h₁⟩ | ⟨e | a, t₁, t₂, rfl, h₁, h₂⟩
  · exact .inl ⟨none, rfl, h₁⟩
  · obtain ⟨rfl, rfl⟩ := h₂.of_done
    rw [List.append_nil]
    exact .inl ⟨some e, rfl, h₁⟩
  · exact .inr ⟨a, t₁, t₂, rfl, h₁, h₂⟩

theorem split_tryCatch {x : Attempt α} {f : Error → Attempt α} {r : Option (Except Error α)}
    (h : Pass.Timeline (tryCatch x f).run t r) :
    (r = none ∧ Pass.Timeline x.run t none) ∨ (∃ a, r = some (.ok a) ∧ Pass.Timeline x.run t (some (.ok a))) ∨
    ∃ e t₁ t₂, t = t₁ ++ t₂ ∧ Pass.Timeline x.run t₁ (some (.error e)) ∧ Pass.Timeline (f e).run t₂ r := by
  rw [tryCatch_run] at h
  rcases h.split with ⟨rfl, h₁⟩ | ⟨e | a, t₁, t₂, rfl, h₁, h₂⟩
  · exact .inl ⟨rfl, h₁⟩
  · exact .inr (.inr ⟨e, t₁, t₂, rfl, h₁, h₂⟩)
  · obtain ⟨rfl, rfl⟩ := h₂.of_done
    rw [List.append_nil]
    exact .inr (.inl ⟨a, rfl, h₁⟩)

theorem timeline_ofExcept {v : Except Error α} {r : Option (Except Error α)}
    (h : Pass.Timeline (ofExcept v).run t r) : t = [] ∧ r = some v := h.of_done

theorem timeline_pure {a : α} {r : Option (Except Error α)} (h : Pass.Timeline (pure a : Attempt α).run t r) :
    t = [] ∧ r = some (.ok a) := h.of_done

theorem timeline_throw {e : Error} {r : Option (Except Error α)} (h : Pass.Timeline (throw e : Attempt α).run t r) :
    t = [] ∧ r = some (.error e) := h.of_done

theorem timeline_call {c : Call} {r : Option (Except Error c.Answer)} (h : Pass.Timeline (call c).run t r) :
    (t = [.begins c] ∧ r = none) ∨ ∃ answer, t = [.begins c, .heard c answer] ∧ r = some answer := by
  cases h with
  | dropped => exact .inl ⟨rfl, rfl⟩
  | call h =>
    obtain ⟨rfl, rfl⟩ := h.of_done
    exact .inr ⟨_, rfl, rfl⟩

theorem timeline_tryCall {c : Call} {r : Option (Except Error (Except Error c.Answer))}
    (h : Pass.Timeline (tryCall c).run t r) :
    (t = [.begins c] ∧ r = none) ∨ ∃ answer, t = [.begins c, .heard c answer] ∧ r = some (.ok answer) := by
  cases h with
  | dropped => exact .inl ⟨rfl, rfl⟩
  | call h =>
    obtain ⟨rfl, rfl⟩ := h.of_done
    exact .inr ⟨_, rfl, rfl⟩

theorem timeline_publish {e : Event} {r : Option (Except Error Unit)} (h : Pass.Timeline (publish e).run t r) :
    (t = [] ∧ r = none) ∨ t = [.told e] ∧ (r = none ∨ r = some (.ok ())) := by
  cases h with
  | publishDropped ht =>
    rcases List.prefix_cons_iff.1 ht with rfl | ⟨t', rfl, ht'⟩
    · exact .inl ⟨rfl, rfl⟩
    · rw [List.prefix_nil.1 ht']
      exact .inr ⟨rfl, .inl rfl⟩
  | publish h =>
    obtain ⟨rfl, rfl⟩ := h.of_done
    exact .inr ⟨rfl, .inr rfl⟩

theorem timeline_record {m : Measurement} {r : Option (Except Error Unit)} (h : Pass.Timeline (record m).run t r) :
    t = [.recorded m] ∧ r = some (.ok ()) := by
  cases h with
  | record h =>
    obtain ⟨rfl, rfl⟩ := h.of_done
    exact ⟨rfl, rfl⟩

theorem timeline_gather {refs : List Reference} {r : Option (Except Error Resolved)}
    (h : Pass.Timeline (gather refs).run t r) :
    ∃ u, t = ticks u ∧ ((∃ x, r = some x ∧ Lookups.Reaches (.start refs) u (.ended x)) ∨
      ∃ queue ref inFlight found, r = none ∧
        Lookups.Reaches (.start refs) u (.running queue (ref :: inFlight) found)) := by
  cases h with
  | gatherDropped hu => exact ⟨_, rfl, .inr ⟨_, _, _, _, rfl, hu⟩⟩
  | gather hu h =>
    obtain ⟨rfl, rfl⟩ := h.of_done
    rw [List.append_nil]
    exact ⟨_, rfl, .inl ⟨_, rfl, hu⟩⟩

end Attempt

end SpinFleet
