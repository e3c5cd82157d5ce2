import SpinFleet.Proofs.Execution
/-!
# Interpreter — a script is one of the ways to disturb a pass

`Simulation.run` decides with a script which calls are delayed or fail, what others edit after each call, and where the
deadline cuts the pass.  Every such run is an execution: the edits and the failures are those of the script, and what
the interpreter leaves is what the execution leaves (`run_exec`).

The look-up of several objects is the one place where the interpreter needs fuel.  A reference is counted three times
before it begins, twice while it sleeps, once when it is woken, and every step makes the count smaller
(`Fetch.step_exec`), so the fuel is enough.
-/
namespace SpinFleet.Simulation

def scripted (script : List Cue) : Edit → Prop := fun x => ∃ q ∈ script, x ∈ q.edits

def FailsBy (script : List Cue) : Move → Prop
  | .failed _ e => ∃ q ∈ script, q.error = some e
  | _ => True

variable {script : List Cue}

/-! ## One call -/

theorem run_edits {α : Type} {p : Pass α} {w' : Cluster} {t : List Move} {r : Option α} : ∀ {xs : List Edit} {w},
    (∀ x ∈ xs, scripted script x) → Pass.Run (scripted script) p (xs.foldl Cluster.edit w) t w' r →
      Pass.Run (scripted script) p w (xs.map .edited ++ t) w' r
  | [], _, _, h => h
  | x :: _, _, hxs, h =>
    .edit (hxs x List.mem_cons_self) (run_edits (fun y hy => hxs y (List.mem_cons_of_mem _ hy)) h)

theorem gathers_edits {refs : List Reference} {acc : Resolved} {w' : Cluster} {t : List Move}
    {r : Option (Except Error Resolved)} : ∀ {xs : List Edit} {w}, (∀ x ∈ xs, scripted script x) →
      Gathers (scripted script) refs acc (xs.foldl Cluster.edit w) t w' r →
      Gathers (scripted script) refs acc w (xs.map .edited ++ t) w' r
  | [], _, _, h => h
  | x :: _, _, hxs, h =>
    .edit (hxs x List.mem_cons_self) (gathers_edits (fun y hy => hxs y (List.mem_cons_of_mem _ hy)) h)

theorem failsBy_nil : ∀ m ∈ [], FailsBy script m := fun _ h => (List.not_mem_nil h).elim

theorem failsBy_edits {xs : List Edit} {t : List Move} (h : ∀ m ∈ t, FailsBy script m) :
    ∀ m ∈ xs.map .edited ++ t, FailsBy script m := by
  intro m hm
  rcases List.mem_append.1 hm with hm | hm
  · obtain ⟨x, -, rfl⟩ := List.mem_map.1 hm
    trivial
  · exact h m hm

theorem act_cases {w : World} (b : World.Begun) (hw : w.script = script) (hb : ∀ q, b.cue = some q → q ∈ script) :
    (w.act b).1.script = script ∧ ∃ xs : List Edit, (∀ x ∈ xs, scripted script x) ∧
      (((w.act b).1.cluster = xs.foldl Cluster.edit (w.cluster.perform b.call).cluster ∧
          (w.act b).2 = (w.cluster.perform b.call).answer) ∨
        ∃ e, FailsBy script (.failed b.call e) ∧ (w.act b).1.cluster = xs.foldl Cluster.edit w.cluster ∧
          (w.act b).2 = .error e) := by
  have hxs : ∀ x ∈ (b.cue.map Cue.edits).getD [], scripted script x := by
    intro x hx
    cases hc : b.cue with
    | none => simp [hc] at hx
    | some q => exact ⟨q, hb q hc, by simpa [hc] using hx⟩
  unfold World.act
  cases he : b.cue >>= Cue.error with
  | none => exact ⟨hw, _, hxs, .inl ⟨rfl, rfl⟩⟩
  | some e =>
    obtain ⟨q, hq, hqe⟩ : ∃ q, b.cue = some q ∧ q.error = some e := Option.bind_eq_some_iff.1 he
    exact ⟨hw, _, hxs, .inr ⟨e, ⟨q, hb q hq, hqe⟩, rfl, rfl⟩⟩

theorem begin_cue {w : World} {c : Call} {q : Cue} (h : (w.begin c).2.cue = some q) : q ∈ w.script :=
  List.mem_of_find?_eq_some h

theorem await_same (deadline : Option Nat) (w : World) (delay : Nat) :
    (await deadline w delay).1.cluster = w.cluster ∧ (await deadline w delay).1.script = w.script := by
  unfold await
  split
  · exact ⟨rfl, rfl⟩
  · cases deadline with
    | none => exact ⟨rfl, rfl⟩
    | some limit =>
      dsimp only
      split <;> exact ⟨rfl, rfl⟩

/-! ## Looking up several objects -/

theorem perform_lookup (w : Cluster) (ref : Reference) : (w.perform (lookup ref)).cluster = w := by
  cases ref <;> rfl

theorem gathers_perm {A : Edit → Prop} {refs refs' : List Reference} {acc : Resolved} {w w' : Cluster} {t : List Move}
    {r : Option (Except Error Resolved)} (hp : refs'.Perm refs) (h : Gathers A refs acc w t w' r) :
    Gathers A refs' acc w t w' r := by
  induction h generalizing refs' with
  | cut => exact .cut
  | done =>
    obtain rfl := hp.eq_nil
    exact .done
  | found perm h next => exact .found (hp.trans perm) h next
  | missing mem h => exact .missing (hp.mem_iff.2 mem) h
  | failed mem => exact .failed (hp.mem_iff.2 mem)
  | edit hx _ ih => exact .edit hx (ih hp)

def Job.ref : Job → Reference
  | .fresh ref => ref
  | .woken w => w.ref

/-- The steps that are left at most to look-ups that can go on: one that has not begun may still have to wait. -/
def Job.costs : List Job → Nat
  | [] => 0
  | .fresh _ :: jobs => 3 + costs jobs
  | .woken _ :: jobs => 1 + costs jobs

theorem Job.costs_append : ∀ js ks : List Job, costs (js ++ ks) = costs js + costs ks
  | [], ks => (Nat.zero_add _).symm
  | .fresh _ :: js, ks => by
    rw [List.cons_append, costs, costs, costs_append js ks, Nat.add_assoc]
  | .woken _ :: js, ks => by
    rw [List.cons_append, costs, costs, costs_append js ks, Nat.add_assoc]

theorem Job.costs_fresh : ∀ refs : List Reference, costs (refs.map .fresh) = 3 * refs.length
  | [] => rfl
  | _ :: refs => by
    rw [List.map_cons, costs, costs_fresh refs, List.length_cons]
    omega

theorem Job.costs_woken : ∀ ws : List Waiting, costs (ws.map .woken) = ws.length
  | [] => rfl
  | _ :: ws => by
    rw [List.map_cons, costs, costs_woken ws, List.length_cons]
    omega

namespace Fetch

def pending (f : Fetch) : List Reference := f.queue ++ (f.ready.map Job.ref ++ f.sleeping.map Waiting.ref)

def cost (f : Fetch) : Nat := 3 * f.queue.length + Job.costs f.ready + 2 * f.sleeping.length

/-- What holds between the steps of a look-up: every cue is one of the script, and nothing queues up unless as many
look-ups are under way as may be. -/
structure Sound (script : List Cue) (f : Fetch) : Prop where
  script_eq : f.world.script = script
  woken : ∀ j, .woken j ∈ f.ready → ∀ q, j.cue = some q → q ∈ script
  sleeping : ∀ j ∈ f.sleeping, ∀ q, j.cue = some q → q ∈ script
  full : f.queue = [] ∨ maxLookups ≤ f.ready.length + f.sleeping.length

theorem refill_pending (f : Fetch) : f.refill.pending.Perm f.pending := by
  unfold refill pending
  generalize maxLookups - (f.ready.length + f.sleeping.length) = n
  have hq : (f.queue.drop n ++ f.queue.take n).Perm f.queue := by
    conv => rhs; rw [← List.take_append_drop n f.queue]
    exact List.perm_append_comm
  have hm : ((f.queue.take n).map (Job.ref ∘ Job.fresh)) = f.queue.take n := List.map_id _
  simp only [List.map_append, List.map_map, hm]
  refine .trans ?_ (hq.append_right _)
  simp only [List.append_assoc]
  refine .append_left _ ?_
  rw [← List.append_assoc, ← List.append_assoc]
  exact List.perm_append_comm.append_right _

theorem refill_cost (f : Fetch) : f.refill.cost = f.cost := by
  unfold refill cost
  generalize maxLookups - (f.ready.length + f.sleeping.length) = n
  simp only [Job.costs_append, Job.costs_fresh, List.length_drop, List.length_take]
  omega

theorem refill_sound {f : Fetch} (hs : f.world.script = script)
    (hr : ∀ j, .woken j ∈ f.ready → ∀ q, j.cue = some q → q ∈ script)
    (hw : ∀ j ∈ f.sleeping, ∀ q, j.cue = some q → q ∈ script) : f.refill.Sound script where
  script_eq := hs
  woken j hj := by
    rcases List.mem_append.1 hj with hj | hj
    · exact hr j hj
    · obtain ⟨_, -, h⟩ := List.mem_map.1 hj
      cases h
  sleeping := hw
  full := by
    unfold refill
    simp only [List.drop_eq_nil_iff, List.length_append, List.length_map, List.length_take]
    omega

/-- How a look-up that ends was an execution; what others did after its last call comes after it. -/
def Ends (script : List Cue) (refs : List Reference) (acc : Resolved) (w : Cluster) (t : List Move) : Ending → Prop
  | .finished w' r => w'.script = script ∧ ∃ (x : Cluster) (xs : List Edit), (∀ y ∈ xs, scripted script y) ∧
      Gathers (scripted script) refs acc w t x (some r) ∧ w'.cluster = xs.foldl Cluster.edit x
  | .timedOut w' => w'.script = script ∧ Gathers (scripted script) refs acc w t w'.cluster none

structure Advances (script : List Cue) (refs : List Reference) (acc : Resolved) (w : Cluster) (t : List Move)
    (f : Fetch) : Prop where
  sound : f.Sound script
  extend : ∀ {u w' r}, Gathers (scripted script) f.pending f.resolved f.world.cluster u w' r →
    Gathers (scripted script) refs acc w (t ++ u) w' r

theorem complete_exec {f : Fetch} (ref : Reference) (entry : Nat) {cue : Option Cue} (hs : f.world.script = script)
    (hr : ∀ j, .woken j ∈ f.ready → ∀ q, j.cue = some q → q ∈ script)
    (hw : ∀ j ∈ f.sleeping, ∀ q, j.cue = some q → q ∈ script) (hc : ∀ q, cue = some q → q ∈ script) :
    ∃ t, (∀ m ∈ t, FailsBy script m) ∧
      match f.proceed (f.complete ref entry cue) with
      | .inl f' => Advances script (ref :: f.pending) f.resolved f.world.cluster t f' ∧ f'.cost = f.cost
      | .inr e => Ends script (ref :: f.pending) f.resolved f.world.cluster t e := by
  obtain ⟨hscript, xs, hxs, ⟨hcl, hans⟩ | ⟨e, hfail, hcl, hans⟩⟩ :=
    act_cases (w := f.world) ⟨lookup ref, entry, cue⟩ hs hc
  · rw [perform_lookup] at hcl
    unfold proceed complete
    dsimp only at hans ⊢
    rw [hans]
    cases he : enter f.resolved ref (f.world.cluster.perform (lookup ref)).answer with
    | error e =>
      refine ⟨[.acted f.world.cluster (lookup ref)], by simp [FailsBy], ?_⟩
      exact ⟨hscript, f.world.cluster, xs, hxs, .missing List.mem_cons_self he, hcl⟩
    | ok resolved =>
      refine ⟨.acted f.world.cluster (lookup ref) :: xs.map .edited, by simp [FailsBy], ?_⟩
      refine ⟨⟨refill_sound hscript hr hw, fun h => ?_⟩, refill_cost _⟩
      have h := gathers_perm (refill_pending _).symm h
      exact .found (.refl _) he (gathers_edits hxs (hcl ▸ h))
  · unfold proceed complete
    dsimp only at hans hcl ⊢
    have he : enter f.resolved ref (.error e) = .error e := by cases ref <;> rfl
    rw [hans, he]
    refine ⟨[.failed (lookup ref) e], ?_, hscript, f.world.cluster, xs, hxs, .failed List.mem_cons_self, hcl⟩
    intro m hm
    obtain rfl := List.mem_singleton.1 hm
    exact hfail

theorem Advances.perm {refs refs' : List Reference} {acc : Resolved} {w : Cluster} {t : List Move} {f : Fetch}
    (hp : refs'.Perm refs) (h : Advances script refs acc w t f) : Advances script refs' acc w t f :=
  ⟨h.sound, fun h' => gathers_perm hp (h.extend h')⟩

theorem Ends.perm {refs refs' : List Reference} {acc : Resolved} {w : Cluster} {t : List Move} {e : Ending}
    (hp : refs'.Perm refs) (h : Ends script refs acc w t e) : Ends script refs' acc w t e := by
  cases e with
  | finished =>
    obtain ⟨hs, x, xs, hxs, hg, hcl⟩ := h
    exact ⟨hs, x, xs, hxs, gathers_perm hp hg, hcl⟩
  | timedOut => exact ⟨h.1, gathers_perm hp h.2⟩

theorem Advances.of_same {f f' : Fetch} (hs : f'.Sound script) (hp : f.pending.Perm f'.pending)
    (hr : f'.resolved = f.resolved) (hc : f'.world.cluster = f.world.cluster) :
    Advances script f.pending f.resolved f.world.cluster [] f' :=
  ⟨hs, fun h => gathers_perm hp (hr ▸ hc ▸ h)⟩

theorem earliest_mem : ∀ {ws : List Waiting} {t : Nat}, earliest ws = some t → ∃ w ∈ ws, w.wake = t
  | w :: ws, t, h => by
    unfold earliest at h
    cases he : earliest ws with
    | none =>
      rw [he] at h
      exact ⟨w, List.mem_cons_self, by simpa using h⟩
    | some u =>
      rw [he] at h
      obtain rfl : min w.wake u = t := by simpa using h
      obtain ⟨w', hm, rfl⟩ := earliest_mem he
      by_cases hle : w.wake ≤ w'.wake
      · exact ⟨w, List.mem_cons_self, by omega⟩
      · exact ⟨w', List.mem_cons_of_mem _ hm, by omega⟩

theorem earliest_eq_none : ∀ {ws : List Waiting}, earliest ws = none → ws = []
  | [], _ => rfl
  | w :: ws, h => by
    unfold earliest at h
    cases he : earliest ws <;> simp [he] at h

theorem awake_asleep (ws : List Waiting) (wake : Nat) :
    (ws.filter (fun w => w.wake == wake) ++ ws.filter fun w => w.wake != wake).Perm ws :=
  List.filter_append_perm (fun w => w.wake == wake) ws

theorem wakeUp_pending {f : Fetch} {wake : Nat} (hr : f.ready = []) : f.pending.Perm (wait.wakeUp f wake).pending := by
  unfold wait.wakeUp pending
  simp only [hr, List.nil_append, List.map_nil, List.map_map]
  refine .append_left _ ?_
  have h := ((awake_asleep f.sleeping wake).map Waiting.ref).symm
  rwa [List.map_append] at h

theorem wakeUp_cost {f : Fetch} {wake : Nat} (hr : f.ready = []) (he : earliest f.sleeping = some wake) :
    (wait.wakeUp f wake).cost < f.cost := by
  unfold wait.wakeUp cost
  simp only [hr, List.nil_append, Job.costs_woken, Job.costs]
  have hlen := (awake_asleep f.sleeping wake).length_eq
  rw [List.length_append] at hlen
  have hpos : 0 < (f.sleeping.filter fun w => w.wake == wake).length := by
    obtain ⟨w, hm, hw⟩ := earliest_mem he
    exact List.length_pos_of_mem (List.mem_filter.2 ⟨hm, by simp [hw]⟩)
  omega

theorem wakeUp_sound {f : Fetch} {wake : Nat} (h : f.Sound script) (hr : f.ready = []) :
    (wait.wakeUp f wake).Sound script where
  script_eq := h.script_eq
  woken j hj := by
    rcases List.mem_append.1 hj with hj | hj
    · exact h.woken j hj
    · obtain ⟨w, hw, hj⟩ := List.mem_map.1 hj
      cases hj
      exact h.sleeping j (List.mem_filter.1 hw).1
  sleeping j hj := h.sleeping j (List.mem_filter.1 hj).1
  full := by
    have hlen := (awake_asleep f.sleeping wake).length_eq
    have hf := h.full
    rw [List.length_append] at hlen
    rw [hr] at hf
    unfold wait.wakeUp
    refine hf.imp_right fun hf => ?_
    simp only [hr, List.nil_append, List.length_map, List.length_nil] at hf ⊢
    omega

theorem wait_exec {f : Fetch} (deadline : Option Nat) {wake : Nat} (h : f.Sound script) (hr : f.ready = [])
    (he : earliest f.sleeping = some wake) :
    match f.wait deadline wake with
    | .inl f' => Advances script f.pending f.resolved f.world.cluster [] f' ∧ f'.cost < f.cost
    | .inr e => Ends script f.pending f.resolved f.world.cluster [] e := by
  have hgo : Advances script f.pending f.resolved f.world.cluster [] (wait.wakeUp f wake) :=
    .of_same (wakeUp_sound h hr) (wakeUp_pending hr) rfl rfl
  unfold wait
  cases deadline with
  | none => exact ⟨hgo, wakeUp_cost hr he⟩
  | some limit =>
    dsimp only
    by_cases hlt : limit < wake
    · rw [if_pos hlt]
      exact ⟨h.script_eq, .cut⟩
    · rw [if_neg hlt]
      exact ⟨hgo, wakeUp_cost hr he⟩

theorem act_exec {f g : Fetch} {ref : Reference} {entry : Nat} {cue : Option Cue} (hs : g.world.script = script)
    (hr : ∀ j, .woken j ∈ g.ready → ∀ q, j.cue = some q → q ∈ script)
    (hw : ∀ j ∈ g.sleeping, ∀ q, j.cue = some q → q ∈ script) (hc : ∀ q, cue = some q → q ∈ script)
    (hp : f.pending.Perm (ref :: g.pending)) (hcost : g.cost < f.cost) (hres : f.resolved = g.resolved)
    (hcl : f.world.cluster = g.world.cluster) :
    ∃ t, (∀ m ∈ t, FailsBy script m) ∧
      match g.proceed (g.complete ref entry cue) with
      | .inl f' => Advances script f.pending f.resolved f.world.cluster t f' ∧ f'.cost < f.cost
      | .inr e => Ends script f.pending f.resolved f.world.cluster t e := by
  obtain ⟨t, ht, h⟩ := complete_exec ref entry hs hr hw hc
  refine ⟨t, ht, ?_⟩
  rw [hres, hcl]
  cases hg : g.proceed (g.complete ref entry cue) with
  | inl f' =>
    rw [hg] at h
    exact ⟨h.1.perm hp, by rw [h.2]; exact hcost⟩
  | inr e =>
    rw [hg] at h
    exact h.perm hp

theorem start_exec {f : Fetch} {ref : Reference} {rest : List Job} (h : f.Sound script)
    (hr : f.ready = .fresh ref :: rest) :
    ∃ t, (∀ m ∈ t, FailsBy script m) ∧
      match start { f with ready := rest } ref with
      | .inl f' => Advances script f.pending f.resolved f.world.cluster t f' ∧ f'.cost < f.cost
      | .inr e => Ends script f.pending f.resolved f.world.cluster t e := by
  have hp : f.pending.Perm (ref :: { f with ready := rest }.pending) := by
    unfold pending
    rw [hr]
    exact List.perm_middle
  have hw : ∀ j, .woken j ∈ rest → ∀ q, j.cue = some q → q ∈ script :=
    fun j hj => h.woken j (hr ▸ List.mem_cons_of_mem _ hj)
  have hcue : ∀ q, (f.world.begin (lookup ref)).2.cue = some q → q ∈ script :=
    fun q hq => h.script_eq ▸ begin_cue hq
  have hcost : { f with ready := rest }.cost < f.cost := by
    unfold cost
    simp only [hr, Job.costs]
    omega
  unfold start
  dsimp only
  by_cases hd : (f.world.begin (lookup ref)).2.delay = 0
  · rw [if_pos hd]
    exact act_exec h.script_eq hw h.sleeping hcue hp hcost rfl rfl
  · rw [if_neg hd]
    refine ⟨[], failsBy_nil, .of_same ?_ ?_ rfl rfl, ?_⟩
    · refine ⟨h.script_eq, hw, fun j hj => ?_, ?_⟩
      · rcases List.mem_append.1 hj with hj | hj
        · exact h.sleeping j hj
        · obtain rfl := List.mem_singleton.1 hj
          exact hcue
      · have hf := h.full
        rw [hr] at hf
        refine hf.imp_right fun hf => ?_
        simp only [List.length_append, List.length_cons, List.length_nil] at hf ⊢
        omega
    · refine hp.trans ?_
      unfold pending
      simp only [List.map_append, List.map_cons, List.map_nil, ← List.append_assoc]
      exact (List.perm_append_singleton ref _).symm
    · unfold cost at hcost ⊢
      simp only [hr, Job.costs, List.length_append, List.length_cons, List.length_nil]
      omega

/-- **Every step of a look-up** is a step of an execution, and there are at most as many as the look-up still costs. -/
theorem step_exec {f : Fetch} (deadline : Option Nat) (h : f.Sound script) :
    ∃ t, (∀ m ∈ t, FailsBy script m) ∧
      match f.step deadline with
      | .inl f' => Advances script f.pending f.resolved f.world.cluster t f' ∧ f'.cost < f.cost
      | .inr e => Ends script f.pending f.resolved f.world.cluster t e := by
  unfold step
  cases hr : f.ready with
  | nil =>
    dsimp only
    cases he : earliest f.sleeping with
    | some wake => exact ⟨[], failsBy_nil, wait_exec deadline h hr he⟩
    | none =>
      -- nothing is under way, so nothing queues up either
      have hs := earliest_eq_none he
      have hq : f.queue = [] := by
        have hf := h.full
        rw [hr, hs] at hf
        simpa [maxLookups] using hf
      have hp : f.pending = [] := by simp [pending, hq, hr, hs]
      exact ⟨[], failsBy_nil, h.script_eq, f.world.cluster, [], List.forall_mem_nil _, hp ▸ .done, rfl⟩
  | cons j rest =>
    cases j with
    | fresh ref => exact start_exec h hr
    | woken w =>
      refine act_exec h.script_eq (fun j hj => h.woken j (hr ▸ List.mem_cons_of_mem _ hj)) h.sleeping ?_ ?_ ?_ rfl rfl
      · exact h.woken w (hr ▸ List.mem_cons_self)
      · unfold pending
        rw [hr]
        exact List.perm_middle
      · unfold cost
        simp only [hr, Job.costs]
        omega

theorem run_exec (deadline : Option Nat) : ∀ {fuel : Nat} {f : Fetch}, f.Sound script → f.cost < fuel →
    ∃ t, (∀ m ∈ t, FailsBy script m) ∧ Ends script f.pending f.resolved f.world.cluster t (f.run deadline fuel)
  | 0, _, _, hc => absurd hc (Nat.not_lt_zero _)
  | fuel + 1, f, h, hc => by
    obtain ⟨t, ht, hstep⟩ := step_exec deadline h
    unfold run
    cases hs : f.step deadline with
    | inr e =>
      rw [hs] at hstep
      exact ⟨t, ht, hstep⟩
    | inl f' =>
      rw [hs] at hstep
      obtain ⟨hadv, hcost⟩ := hstep
      obtain ⟨u, hu, hends⟩ := run_exec deadline hadv.sound (Nat.lt_of_lt_of_le hcost (Nat.le_of_lt_succ hc))
      refine ⟨t ++ u, fun m hm => (List.mem_append.1 hm).elim (ht m) (hu m), ?_⟩
      dsimp only
      cases he : f'.run deadline fuel with
      | finished w r =>
        rw [he] at hends
        obtain ⟨hw, x, xs, hxs, hg, hcl⟩ := hends
        exact ⟨hw, x, xs, hxs, hadv.extend hg, hcl⟩
      | timedOut w =>
        rw [he] at hends
        exact ⟨hends.1, hadv.extend hends.2⟩

theorem ofReferences_sound {w : World} (hw : w.script = script) (refs : List Reference) :
    (ofReferences w refs).Sound script :=
  refill_sound hw (fun _ h => by cases h) (fun _ h => by cases h)

theorem ofReferences_cost (w : World) (refs : List Reference) : (ofReferences w refs).cost < 3 * refs.length + 1 := by
  unfold ofReferences
  rw [refill_cost]
  simp [cost, Job.costs]

end Fetch

theorem fetch_exec (deadline : Option Nat) {w : World} (refs : List Reference) (hw : w.script = script) :
    ∃ t, (∀ m ∈ t, FailsBy script m) ∧ Fetch.Ends script refs .empty w.cluster t (fetch deadline w refs) := by
  have hs := Fetch.ofReferences_sound hw refs
  have hcost := Fetch.ofReferences_cost w refs
  obtain ⟨t, ht, h⟩ := Fetch.run_exec deadline hs hcost
  refine ⟨t, ht, h.perm (.symm ?_)⟩
  refine (Fetch.refill_pending _).trans ?_
  simp [Fetch.pending]

/-! ## Passes -/

/-- **A pass that is run with a script is an execution** whose edits and failures are those of the script. -/
theorem run_exec {α : Type} (deadline : Option Nat) : ∀ (p : Pass α) (w : World), w.script = script →
    ∃ t, (∀ m ∈ t, FailsBy script m) ∧
      Pass.Run (scripted script) p w.cluster t (run deadline p w).1.cluster (run deadline p w).2
  | .done a, w, _ => ⟨[], failsBy_nil, .done⟩
  | .call c next, w, hw => by
    unfold run makeCall
    dsimp only
    obtain ⟨hcl, hsc⟩ := await_same deadline (w.begin c).1 (w.begin c).2.delay
    rcases hb : await deadline (w.begin c).1 (w.begin c).2.delay with ⟨x, b⟩
    rw [hb] at hcl hsc
    cases b with
    | false => exact ⟨[], failsBy_nil, hcl ▸ .cut⟩
    | true =>
      have hx : x.script = script := hsc.trans hw
      have hcue : ∀ q, (w.begin c).2.cue = some q → q ∈ script := fun q hq => hw ▸ begin_cue hq
      obtain ⟨hscript, xs, hxs, h⟩ := act_cases ⟨c, (w.begin c).2.entry, (w.begin c).2.cue⟩ hx hcue
      have hcl : x.cluster = w.cluster := hcl
      obtain ⟨t, ht, hrun⟩ := run_exec deadline
        (next (x.act ⟨c, (w.begin c).2.entry, (w.begin c).2.cue⟩).2) _ hscript
      rw [← hcl]
      rcases h with ⟨hact, hans⟩ | ⟨e, he, hact, hans⟩
      · refine ⟨.acted x.cluster c :: (xs.map .edited ++ t), ?_, .act ?_⟩
        · exact List.forall_mem_cons.2 ⟨trivial, failsBy_edits ht⟩
        · rw [hact] at hrun
          exact hans ▸ run_edits hxs hrun
      · refine ⟨.failed c e :: (xs.map .edited ++ t), ?_, .fail (.idle _) ?_⟩
        · exact List.forall_mem_cons.2 ⟨he, failsBy_edits ht⟩
        · rw [hact] at hrun
          exact hans ▸ run_edits hxs hrun
  | .gather refs next, w, hw => by
    unfold run
    obtain ⟨t, ht, h⟩ := fetch_exec deadline refs hw
    cases hf : fetch deadline w refs with
    | timedOut x =>
      rw [hf] at h
      exact ⟨t, ht, .gatherCut h.2⟩
    | finished x r =>
      rw [hf] at h
      obtain ⟨hx, y, xs, hxs, hg, hcl⟩ := h
      obtain ⟨u, hu, hrun⟩ := run_exec deadline (next r) x hx
      refine ⟨t ++ (xs.map .edited ++ u), ?_, .gather hg (run_edits hxs (hcl ▸ hrun))⟩
      exact fun m hm => (List.mem_append.1 hm).elim (ht m) (failsBy_edits hu m)
  | .publish e next, w, hw => by
    obtain ⟨t, ht, h⟩ := run_exec deadline next (w.note (.event e)) hw
    exact ⟨.published e :: t, List.forall_mem_cons.2 ⟨trivial, ht⟩, .publish h⟩
  | .record m next, w, hw => by
    obtain ⟨t, ht, h⟩ := run_exec deadline next (w.note (.measurement m)) hw
    exact ⟨.recorded m :: t, List.forall_mem_cons.2 ⟨trivial, ht⟩, .record h⟩

/-- With a script that makes no edits, the execution is undisturbed. -/
theorem run_undisturbed {α : Type} (deadline : Option Nat) (script : List Cue) (p : Pass α) (w : Cluster)
    (hs : ∀ q ∈ script, q.edits = []) :
    ∃ t, (∀ m ∈ t, FailsBy script m) ∧ Pass.Run undisturbed p w t
      (run deadline p (.ofCluster w script)).1.cluster (run deadline p (.ofCluster w script)).2 := by
  obtain ⟨t, ht, h⟩ := run_exec deadline p (.ofCluster w script) rfl
  refine ⟨t, ht, h.mono fun x hx => ?_⟩
  obtain ⟨q, hq, hx⟩ := hx
  rw [hs q hq] at hx
  cases hx

end SpinFleet.Simulation
