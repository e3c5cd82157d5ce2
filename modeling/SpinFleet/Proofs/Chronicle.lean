import SpinFleet.Proofs.Interpreter
import SpinFleet.Proofs.Timeline
/-!
# Chronicle — what a world has written down is a timeline

`Simulation.run` writes down what happens, the latest first, each call where it began (`World.trace`).  Every run is a
timeline of its pass: with the same result, and with the same calls, events and measurements in the same order
(`Simulation.run_timeline`).  So what holds of all timelines holds of all runs, whatever the cluster, the script and the
deadline.

The look-up of several objects is again the part that takes an argument.  Its interpreter lets look-ups sleep and wake;
`Fetch.Traces` says which schedule has been followed so far, `Fetch.step_traces` that every step goes on with it.
-/
namespace SpinFleet.Simulation

open Lookups (Reaches Step goOn after)

/-- What an entry of a trace says, apart from how a call went. -/
def mark : Happening → Tick
  | .call c _ => .begins c
  | .event e => .told e
  | .measurement m => .recorded m

def marks (w : World) : List Tick := (w.trace.map mark).reverse

def isMarked : Tick → Bool
  | .heard .. => false
  | .begins _ | .told _ | .recorded _ => true

/-- A world has seen some ticks more than another. -/
def Saw (w w' : World) (t : List Tick) : Prop := marks w' = marks w ++ t.filter isMarked

theorem Saw.refl (w : World) : Saw w w [] := (List.append_nil _).symm

theorem Saw.trans {w x y : World} {t u : List Tick} (h : Saw w x t) (h' : Saw x y u) : Saw w y (t ++ u) := by
  unfold Saw at *
  rw [h', h, List.filter_append, List.append_assoc]

theorem Saw.of_eq {w x y : World} {t : List Tick} (h : Saw w x t) (he : marks y = marks x) : Saw w y t := he.trans h

theorem marks_note (w : World) (x : Happening) : marks (w.note x) = marks w ++ [mark x] := by
  simp [marks, World.note]

theorem marks_begin (w : World) (c : Call) : marks (w.begin c).1 = marks w ++ [.begins c] := marks_note _ _

theorem begin_entry (w : World) (c : Call) : (marks (w.begin c).1)[(w.begin c).2.entry]? = some (.begins c) := by
  have hlen : (w.begin c).2.entry = (marks w).length := by simp [World.begin, marks]
  rw [marks_begin, hlen, List.getElem?_concat_length]

theorem set_eq_self {α : Type} {l : List α} {i : Nat} {x : α} (h : l[i]? = some x) : l.set i x = l := by
  obtain ⟨hi, rfl⟩ := List.getElem?_eq_some_iff.1 h
  exact List.set_getElem_self hi

theorem marks_settle {w : World} {b : World.Begun} (hb : (marks w)[b.entry]? = some (.begins b.call)) (o : Outcome) :
    marks (w.settle b o) = marks w := by
  obtain ⟨hlt, -⟩ := List.getElem?_eq_some_iff.1 hb
  rw [marks, List.length_reverse, List.length_map] at hlt
  rw [marks, List.getElem?_reverse (by rwa [List.length_map]), List.length_map] at hb
  unfold marks World.settle
  rw [List.map_set, show mark (.call b.call o) = .begins b.call from rfl, set_eq_self hb]

theorem marks_act {w : World} {b : World.Begun} (hb : (marks w)[b.entry]? = some (.begins b.call)) :
    marks (w.act b).1 = marks w := by
  unfold World.act
  split
  · exact marks_settle (w := { w with cluster := _ }) hb _
  · exact marks_settle (w := { w with cluster := _ }) hb _

theorem marks_await (deadline : Option Nat) (w : World) (delay : Nat) : marks (await deadline w delay).1 = marks w := by
  unfold await
  split
  · rfl
  · split
    · dsimp only
      split <;> rfl
    · rfl

/-! ## Looking up several objects -/

def Job.fresh? : Job → Option Reference
  | .fresh ref => some ref
  | .woken _ => none

def Job.woken? : Job → Option Waiting
  | .fresh _ => none
  | .woken w => some w

namespace Fetch

def unbegun (f : Fetch) : List Reference := f.ready.filterMap Job.fresh? ++ f.queue

def inFlight (f : Fetch) : List Waiting := f.ready.filterMap Job.woken? ++ f.sleeping

theorem filterMap_fresh (refs : List Reference) : (refs.map Job.fresh).filterMap Job.fresh? = refs := by
  rw [List.filterMap_map]
  exact List.filterMap_some

theorem filterMap_fresh_woken (ws : List Waiting) : (ws.map Job.woken).filterMap Job.fresh? = [] :=
  List.filterMap_eq_nil_iff.2 (by simp [Job.fresh?])

theorem filterMap_woken_fresh (refs : List Reference) : (refs.map Job.fresh).filterMap Job.woken? = [] :=
  List.filterMap_eq_nil_iff.2 (by simp [Job.woken?])

theorem filterMap_woken (ws : List Waiting) : (ws.map Job.woken).filterMap Job.woken? = ws := by
  rw [List.filterMap_map]
  exact List.filterMap_some

@[simp] theorem refill_unbegun (f : Fetch) : f.refill.unbegun = f.unbegun := by
  unfold refill unbegun
  simp only [List.filterMap_append, filterMap_fresh, List.append_assoc, List.take_append_drop]

@[simp] theorem refill_inFlight (f : Fetch) : f.refill.inFlight = f.inFlight := by
  unfold refill inFlight
  simp only [List.filterMap_append, filterMap_woken_fresh, List.append_nil]

/-- The schedule that a look-up has followed so far. -/
structure Traces (w : World) (refs : List Reference) (u : List LookupTurn) (f : Fetch) : Prop where
  saw : Saw w f.world (ticks u)
  bounded : f.ready.length + f.sleeping.length ≤ maxLookups
  entries : ∀ j ∈ f.inFlight, (marks f.world)[j.entry]? = some (.begins (lookup j.ref))
  reached : ∃ fl, fl.Perm (f.inFlight.map Waiting.ref) ∧ Reaches (.start refs) u (goOn f.unbegun fl f.resolved)

/-- The schedule of a look-up that has ended, or was dropped while something was in flight. -/
def Concludes (w : World) (refs : List Reference) : Ending → Prop
  | .finished w' r => ∃ u, Saw w w' (ticks u) ∧ Reaches (.start refs) u (.ended r)
  | .timedOut w' => ∃ u queue ref fl found, Saw w w' (ticks u) ∧
      Reaches (.start refs) u (.running queue (ref :: fl) found)

def Continues (w : World) (refs : List Reference) : Fetch ⊕ Ending → Prop
  | .inl f => ∃ u, Traces w refs u f
  | .inr e => Concludes w refs e

theorem Traces.refill {w : World} {refs : List Reference} {u : List LookupTurn} {f : Fetch} (h : Traces w refs u f) :
    Traces w refs u f.refill where
  saw := h.saw
  bounded := by
    have hb := h.bounded
    unfold Fetch.refill
    simp only [List.length_append, List.length_map, List.length_take]
    omega
  entries j hj := h.entries j (refill_inFlight f ▸ hj)
  reached := by
    rw [refill_inFlight, refill_unbegun]
    exact h.reached

variable {w : World} {refs : List Reference} {u : List LookupTurn} {f : Fetch}

theorem goOn_running {queue fl : List Reference} {found : Resolved} (h : queue ≠ [] ∨ fl ≠ []) :
    goOn queue fl found = .running queue fl found := by
  unfold goOn
  split
  · exact (h.elim (· rfl) (· rfl)).elim
  · rfl

theorem saw_completes {x : World} (h : Saw w x (ticks u)) (ref : Reference)
    (answer : Except Error (lookup ref).Answer) :
    Saw w x (ticks (u ++ [.completes ref answer])) := by
  rw [ticks_append]
  exact h.trans (.refl x)

theorem complete_traces {ref : Reference} {entry : Nat} {cue : Option Cue} {fl : List Reference}
    (saw : Saw w f.world (ticks u)) (bounded : f.ready.length + f.sleeping.length ≤ maxLookups)
    (entries : ∀ j ∈ f.inFlight, (marks f.world)[j.entry]? = some (.begins (lookup j.ref)))
    (hentry : (marks f.world)[entry]? = some (.begins (lookup ref)))
    (hp : fl.Perm (ref :: f.inFlight.map Waiting.ref))
    (hr : Reaches (.start refs) u (.running f.unbegun fl f.resolved)) :
    Continues w refs (f.proceed (f.complete ref entry cue)) := by
  have hmarks := marks_act (b := ⟨lookup ref, entry, cue⟩) hentry
  have hsaw := saw_completes saw ref (f.world.act ⟨lookup ref, entry, cue⟩).2
  have hr' := hr.snoc (x := .completes ref (f.world.act ⟨lookup ref, entry, cue⟩).2) (.completes hp)
  unfold proceed complete
  dsimp only
  cases he : enter f.resolved ref (f.world.act ⟨lookup ref, entry, cue⟩).2 with
  | error e =>
    rw [he] at hr'
    exact ⟨_, hsaw.of_eq hmarks, hr'⟩
  | ok resolved =>
    rw [he] at hr'
    refine ⟨_, Traces.refill (u := u ++ [.completes ref _])
      ⟨hsaw.of_eq hmarks, bounded, fun j hj => ?_, _, .refl _, hr'⟩⟩
    exact (congrArg (·[j.entry]?) hmarks).trans (entries j hj)

theorem start_traces {ref : Reference} {rest : List Job} (h : Traces w refs u f) (hf : f.ready = .fresh ref :: rest) :
    Continues w refs (start { f with ready := rest } ref) := by
  obtain ⟨fl, hfl, hr⟩ := h.reached
  have hbounded : rest.length + f.sleeping.length < maxLookups := by
    have hb := h.bounded
    rw [hf, List.length_cons] at hb
    omega
  have hunbegun : f.unbegun = ref :: { f with ready := rest }.unbegun := by
    rw [unbegun, hf]
    rfl
  have hinFlight : f.inFlight = { f with ready := rest }.inFlight := by
    rw [inFlight, hf]
    rfl
  have hroom : fl.length < maxLookups := by
    have hw := List.length_filterMap_le Job.woken? rest
    rw [hfl.length_eq, hinFlight]
    simp only [inFlight, List.length_map, List.length_append]
    omega
  rw [hunbegun, goOn_running (.inl (List.cons_ne_nil _ _))] at hr
  have hstart := hr.snoc (.starts hroom)
  have hmarks : marks (f.world.begin (lookup ref)).1 = marks f.world ++ [.begins (lookup ref)] := marks_begin _ _
  have hsaw : Saw w (f.world.begin (lookup ref)).1 (ticks (u ++ [.starts ref])) := by
    rw [ticks_append]
    exact h.saw.trans hmarks
  have hentries : ∀ j ∈ f.inFlight,
      (marks (f.world.begin (lookup ref)).1)[j.entry]? = some (.begins (lookup j.ref)) := by
    intro j hj
    have he := h.entries j hj
    rw [hmarks, List.getElem?_append_left (List.getElem?_eq_some_iff.1 he).1]
    exact he
  rw [hinFlight] at hfl hentries
  unfold start
  dsimp only
  split
  · exact complete_traces (hsaw.of_eq rfl) (Nat.le_of_lt hbounded) hentries (begin_entry _ _) (hfl.cons ref) hstart
  · refine ⟨u ++ [LookupTurn.starts ref], hsaw.of_eq rfl, ?_, ?_, ref :: fl, ?_, ?_⟩
    · rw [List.length_append]
      exact hbounded
    · intro j hj
      rw [inFlight, ← List.append_assoc] at hj
      rcases List.mem_append.1 hj with hj | hj
      · exact hentries j hj
      · obtain rfl := List.mem_singleton.1 hj
        exact begin_entry _ _
    · refine (hfl.cons ref).trans ((List.perm_append_singleton ref _).symm.trans (.of_eq ?_))
      simp [inFlight]
    · rw [goOn_running (.inr (List.cons_ne_nil _ _))]
      exact hstart

theorem wait_traces {deadline : Option Nat} {wake : Nat} (h : Traces w refs u f) (hf : f.ready = [])
    (he : earliest f.sleeping = some wake) : Continues w refs (f.wait deadline wake) := by
  obtain ⟨fl, hfl, hr⟩ := h.reached
  have hgo : Traces w refs u (wait.wakeUp f wake) := by
    have hperm := awake_asleep f.sleeping wake
    have hin : (wait.wakeUp f wake).inFlight.Perm f.inFlight := by
      unfold wait.wakeUp inFlight
      rw [hf, List.nil_append, filterMap_woken, List.filterMap_nil, List.nil_append]
      exact hperm
    have hun : (wait.wakeUp f wake).unbegun = f.unbegun := by
      unfold wait.wakeUp unbegun
      rw [hf, List.nil_append, filterMap_fresh_woken, List.filterMap_nil]
    refine ⟨h.saw, ?_, fun j hj => h.entries j (hin.mem_iff.1 hj), fl, hfl.trans (hin.map _).symm, hun ▸ hr⟩
    have hb := h.bounded
    have hl := hperm.length_eq
    rw [hf, List.length_nil, Nat.zero_add] at hb
    unfold wait.wakeUp
    simp only [hf, List.nil_append, List.length_map, List.length_append] at hl ⊢
    omega
  have hdrop (clock : Nat) : Concludes w refs (.timedOut { f.world with clock }) := by
    obtain ⟨j, hj, -⟩ := earliest_mem he
    have hm : j.ref ∈ fl := hfl.mem_iff.2 (List.mem_map_of_mem (List.mem_append_right _ hj))
    cases fl with
    | nil => cases hm
    | cons ref fl =>
      rw [goOn_running (.inr (List.cons_ne_nil _ _))] at hr
      exact ⟨u, _, ref, fl, _, h.saw, hr⟩
  unfold wait
  cases deadline with
  | none => exact ⟨u, hgo⟩
  | some limit =>
    dsimp only
    split
    · exact hdrop _
    · exact ⟨u, hgo⟩

/-- **Every step of a look-up** follows a schedule. -/
theorem step_traces {script : List Cue} (deadline : Option Nat) (hs : f.Sound script) (h : Traces w refs u f) :
    Continues w refs (f.step deadline) := by
  unfold step
  cases hf : f.ready with
  | nil =>
    dsimp only
    cases he : earliest f.sleeping with
    | some wake => exact wait_traces h hf he
    | none =>
      have hsleep := earliest_eq_none he
      obtain ⟨fl, hfl, hr⟩ := h.reached
      have hq : f.queue = [] := by
        have hfull := hs.full
        rw [hf, hsleep] at hfull
        simpa [maxLookups] using hfull
      have hun : f.unbegun = [] := by simp [unbegun, hf, hq]
      have hin : f.inFlight = [] := by simp [inFlight, hf, hsleep]
      rw [hin] at hfl
      obtain rfl := hfl.eq_nil
      rw [hun] at hr
      exact ⟨u, h.saw, hr⟩
  | cons j rest =>
    cases j with
    | fresh ref => exact start_traces h hf
    | woken j =>
      obtain ⟨fl, hfl, hr⟩ := h.reached
      have hin : f.inFlight = j :: { f with ready := rest }.inFlight := by
        rw [inFlight, hf]
        rfl
      have hun : f.unbegun = { f with ready := rest }.unbegun := by
        rw [unbegun, hf]
        rfl
      have hne : fl ≠ [] := fun hnil => by
        rw [hnil, hin] at hfl
        cases hfl.symm.eq_nil
      rw [goOn_running (.inr hne), hun] at hr
      rw [hin] at hfl
      refine complete_traces h.saw ?_ (fun i hi => ?_) (h.entries j ?_) hfl hr
      · have hb := h.bounded
        rw [hf, List.length_cons] at hb
        dsimp only
        omega
      · exact h.entries i (hin ▸ List.mem_cons_of_mem j hi)
      · exact hin ▸ List.mem_cons_self

theorem run_traces {script : List Cue} (deadline : Option Nat) : ∀ {fuel : Nat} {u : List LookupTurn} {f : Fetch},
    f.Sound script → f.cost < fuel → Traces w refs u f → Concludes w refs (f.run deadline fuel)
  | 0, _, _, _, hc, _ => absurd hc (Nat.not_lt_zero _)
  | fuel + 1, u, f, hs, hc, h => by
    obtain ⟨t, -, hexec⟩ := step_exec deadline hs
    have htr := step_traces deadline hs h
    unfold run
    cases hstep : f.step deadline with
    | inr e =>
      rw [hstep] at htr
      exact htr
    | inl f' =>
      rw [hstep] at hexec htr
      obtain ⟨hadv, hcost⟩ := hexec
      obtain ⟨u', h'⟩ := htr
      exact run_traces deadline hadv.sound (Nat.lt_of_lt_of_le hcost (Nat.le_of_lt_succ hc)) h'

end Fetch

/-- **The look-up of a world is one of the schedules.** -/
theorem fetch_traces (deadline : Option Nat) (w : World) (refs : List Reference) :
    Fetch.Concludes w refs (fetch deadline w refs) := by
  have h₀ : Fetch.Traces w refs [] ⟨w, refs, [], [], .empty⟩ :=
    ⟨.refl w, Nat.zero_le _, fun _ hj => (List.not_mem_nil hj).elim, [], .refl _, .refl⟩
  exact Fetch.run_traces deadline (Fetch.ofReferences_sound rfl refs) (Fetch.ofReferences_cost w refs) h₀.refill

/-! ## Passes -/

/-- **Every run is a timeline**, and what happened is written down in its order. -/
theorem run_timeline {α : Type} (deadline : Option Nat) : ∀ (p : Pass α) (w : World),
    ∃ t, Pass.Timeline p t (run deadline p w).2 ∧ Saw w (run deadline p w).1 t
  | .done a, w => ⟨[], .done, .refl w⟩
  | .call c next, w => by
    have hb : Saw w (w.begin c).1 [.begins c] := marks_begin w c
    have haw := marks_await deadline (w.begin c).1 (w.begin c).2.delay
    unfold run makeCall
    dsimp only
    rcases ha : await deadline (w.begin c).1 (w.begin c).2.delay with ⟨x, b⟩
    rw [ha] at haw
    cases b with
    | false => exact ⟨_, .dropped, hb.of_eq haw⟩
    | true =>
      have hentry : (marks x)[(w.begin c).2.entry]? = some (.begins c) := by
        rw [haw]
        exact begin_entry w c
      have hact := marks_act (b := ⟨c, (w.begin c).2.entry, (w.begin c).2.cue⟩) hentry
      obtain ⟨t, ht, hsaw⟩ := run_timeline deadline
        (next (x.act ⟨c, (w.begin c).2.entry, (w.begin c).2.cue⟩).2)
        (x.act ⟨c, (w.begin c).2.entry, (w.begin c).2.cue⟩).1
      exact ⟨_, .call ht, (hb.of_eq (hact.trans haw)).trans (.trans (t := [.heard c _]) (.refl _) hsaw)⟩
  | .gather refs next, w => by
    have hc := fetch_traces deadline w refs
    unfold run
    cases hf : fetch deadline w refs with
    | timedOut x =>
      rw [hf] at hc
      obtain ⟨u, _, _, _, _, hsaw, hr⟩ := hc
      exact ⟨_, .gatherDropped hr, hsaw⟩
    | finished x r =>
      rw [hf] at hc
      obtain ⟨u, hsaw, hr⟩ := hc
      obtain ⟨t, ht, hsaw'⟩ := run_timeline deadline (next r) x
      exact ⟨_, .gather hr ht, hsaw.trans hsaw'⟩
  | .publish e next, w => by
    obtain ⟨t, ht, hsaw⟩ := run_timeline deadline next (w.note (.event e))
    have hn : Saw w (w.note (.event e)) [.told e] := marks_note w _
    exact ⟨_, .publish ht, hn.trans hsaw⟩
  | .record m next, w => by
    obtain ⟨t, ht, hsaw⟩ := run_timeline deadline next (w.note (.measurement m))
    have hn : Saw w (w.note (.measurement m)) [.recorded m] := marks_note w _
    exact ⟨_, .record ht, hn.trans hsaw⟩

end SpinFleet.Simulation
