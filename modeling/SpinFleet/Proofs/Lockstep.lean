import SpinFleet.Proofs.Agreement
import SpinFleet.Proofs.Secrecy
/-!
# Lockstep — two runs side by side that differ in statuses only

Two passes are in step (`Pass.InStep`) if they make the same calls as long as they are answered alike.  Nothing is
asked of what the answers tell of the status and the version of an app, nor of whether a status could be written down.
Two worlds are in step (`World.InStep`) if they declare the same, a script does the same to both, and the same happened
in both for the children of apps.  Every step of a simulation keeps them so, and hence a whole run of two passes in
step does (`Simulation.run_inStep`).
-/
namespace SpinFleet

open Simulation

/-! ## Passes -/

/-- Answers that tell the same of what apps declare.  Nothing is said of lists of apps, nor of whether a status was
written down. -/
def Call.AnswersAlike : (c : Call) → Except Error c.Answer → Except Error c.Answer → Prop
  | .getApp .., r, r' => Alike (Option.Rel App.Declares) r r'
  | .listApps _, _, _ | .patchAppStatus .., _, _ => True
  | _, r, r' => r = r'

theorem Call.answersAlike_error (c : Call) (e : Error) : c.AnswersAlike (.error e) (.error e) := by
  cases c with
  | listApps | patchAppStatus => trivial
  | _ => rfl

namespace Pass

variable {α β γ δ : Type} {R : α → β → Prop} {S : γ → δ → Prop}

/-- Two passes that make the same calls, but for the statuses that they write down, as long as they are answered
alike, and that end alike. -/
inductive InStep (R : α → β → Prop) : Pass α → Pass β → Prop
  | done {a b} (h : R a b) : InStep R (.done a) (.done b)
  | call (c : Call) {p q} (h : ∀ r r', c.AnswersAlike r r' → InStep R (p r) (q r')) :
      InStep R (.call c p) (.call c q)
  | patch (n ns : String) {v v' status status' p q} (h : ∀ r r', InStep R (p r) (q r')) :
      InStep R (.call (.patchAppStatus n ns v status) p) (.call (.patchAppStatus n ns v' status') q)
  | gather (refs : List Reference) {p q} (h : ∀ r, InStep R (p r) (q r)) : InStep R (.gather refs p) (.gather refs q)
  | publish (e : Event) {p q} (h : InStep R p q) : InStep R (.publish e p) (.publish e q)
  | record (m : Measurement) {p q} (h : InStep R p q) : InStep R (.record m p) (.record m q)

theorem InStep.bind {p : Pass α} {q : Pass β} {f : α → Pass γ} {g : β → Pass δ} (h : InStep R p q)
    (hf : ∀ a b, R a b → InStep S (f a) (g b)) : InStep S (p.bind f) (q.bind g) := by
  induction h with
  | done h => exact hf _ _ h
  | call c _ ih => exact .call c ih
  | patch n ns _ ih => exact .patch n ns ih
  | gather refs _ ih => exact .gather refs ih
  | publish e _ ih => exact .publish e ih
  | record m _ ih => exact .record m ih

theorem InStep.mono {R' : α → β → Prop} (hR : ∀ a b, R a b → R' a b) {p : Pass α} {q : Pass β}
    (h : InStep R p q) : InStep R' p q := by
  induction h with
  | done h => exact .done (hR _ _ h)
  | call c _ ih => exact .call c ih
  | patch n ns _ ih => exact .patch n ns ih
  | gather refs _ ih => exact .gather refs ih
  | publish e _ ih => exact .publish e ih
  | record m _ ih => exact .record m ih

end Pass

/-! ## Clusters -/

/-- Two clusters that differ at most in what was observed of apps. -/
structure Cluster.SameDeclared (w v : Cluster) : Prop where
  apps : ∀ k, Option.Rel App.Declares (w.apps.get? k) (v.apps.get? k)
  executors : v.executors = w.executors
  deployments : v.deployments = w.deployments
  services : v.services = w.services
  secrets : v.secrets = w.secrets
  configMaps : v.configMaps = w.configMaps

def Call.isForChild : Call → Bool
  | .createSecret _ | .applyDeployment _ | .pruneSecrets .. | .deleteDeployment .. | .applyService _ => true
  | _ => false

namespace Cluster

variable {w v x : Cluster}

theorem SameDeclared.refl (w : Cluster) : w.SameDeclared w := by
  refine ⟨fun k => ?_, rfl, rfl, rfl, rfl, rfl⟩
  cases w.apps.get? k with
  | none => exact .none
  | some a => exact .some (.refl a)

theorem SameDeclared.symm (h : w.SameDeclared v) : v.SameDeclared w := by
  refine ⟨fun k => ?_, h.executors.symm, h.deployments.symm, h.services.symm, h.secrets.symm, h.configMaps.symm⟩
  have hk := h.apps k
  generalize w.apps.get? k = a, v.apps.get? k = b at hk
  cases hk with
  | none => exact .none
  | some h => exact .some h.symm

theorem SameDeclared.trans (h : w.SameDeclared v) (h' : v.SameDeclared x) : w.SameDeclared x := by
  refine ⟨fun k => ?_, h'.executors.trans h.executors, h'.deployments.trans h.deployments,
    h'.services.trans h.services, h'.secrets.trans h.secrets, h'.configMaps.trans h.configMaps⟩
  have hk := h.apps k
  have hk' := h'.apps k
  generalize w.apps.get? k = a, v.apps.get? k = b, x.apps.get? k = c at hk hk'
  cases hk with
  | none => exact hk'
  | some h =>
    cases hk' with
    | some h' => exact .some (h.trans h')

theorem SameDeclared.edit (h : w.SameDeclared v) (y : Edit) : (w.edit y).SameDeclared (v.edit y) := by
  obtain ⟨_, executors, deployments, services, secrets, configMaps⟩ := v
  obtain ⟨ha, rfl, rfl, rfl, rfl, rfl⟩ := h
  cases y with
  | putApp a =>
    refine ⟨fun k => ?_, rfl, rfl, rfl, rfl, rfl⟩
    simp only [Cluster.edit]
    by_cases hk : k = a.metadata.key
    · rw [hk, Dict.get?_insert_self, Dict.get?_insert_self]
      exact .some (.refl a)
    · rw [Dict.get?_insert_of_ne _ _ hk, Dict.get?_insert_of_ne _ _ hk]
      exact ha k
  | putExecutor | putDeployment | putService | putSecret | putConfigMap => exact ⟨ha, rfl, rfl, rfl, rfl, rfl⟩
  | delete kind key =>
    cases kind with
    | app =>
      refine ⟨fun k => ?_, rfl, rfl, rfl, rfl, rfl⟩
      simp only [Cluster.edit]
      by_cases hk : k = key
      · rw [hk, Dict.get?_erase_self, Dict.get?_erase_self]
        exact .none
      · rw [Dict.get?_erase_of_ne _ hk, Dict.get?_erase_of_ne _ hk]
        exact ha k
    | executor | deployment | service | secret | configMap => exact ⟨ha, rfl, rfl, rfl, rfl, rfl⟩

theorem SameDeclared.edits (h : w.SameDeclared v) (ys : List Edit) :
    (ys.foldl Cluster.edit w).SameDeclared (ys.foldl Cluster.edit v) := by
  induction ys generalizing w v with
  | nil => exact h
  | cons y ys ih => exact ih (h.edit y)

theorem sameDeclared_patch (w : Cluster) (n ns version : String) (status : AppStatus) :
    w.SameDeclared (w.perform (.patchAppStatus n ns version status)).cluster := by
  have hb := w.perform_sameBut (.patchAppStatus n ns version status)
  refine ⟨fun k => ?_, hb.executors nofun, hb.deployments nofun, hb.services nofun, hb.secrets nofun,
    hb.configMaps nofun⟩
  cases hk : (w.perform (.patchAppStatus n ns version status)).cluster.apps.get? k with
  | some b =>
    obtain ⟨a, ha, hd⟩ := patchAppStatus_get? hk
    rw [ha]
    exact .some hd
  | none =>
    cases ha : w.apps.get? k with
    | none => exact .none
    | some a =>
      have hs : (w.apps.get? k).isSome = true := by
        rw [ha]
        rfl
      have hs : ((w.perform (.patchAppStatus n ns version status)).cluster.apps.get? k).isSome = true :=
        patchAppStatus_isSome hs
      rw [hk] at hs
      cases hs

/-- **A call does the same to what is declared**, and answers alike. -/
theorem SameDeclared.perform (h : w.SameDeclared v) (c : Call) :
    (w.perform c).cluster.SameDeclared (v.perform c).cluster ∧
      c.AnswersAlike (w.perform c).answer (v.perform c).answer := by
  have hv := h
  obtain ⟨_, executors, deployments, services, secrets, configMaps⟩ := v
  obtain ⟨ha, rfl, rfl, rfl, rfl, rfl⟩ := h
  cases c with
  | patchAppStatus n ns version status =>
    exact ⟨((sameDeclared_patch w ..).symm.trans hv).trans (sameDeclared_patch _ ..), trivial⟩
  | getApp n ns => exact ⟨hv, ha ⟨ns, n⟩⟩
  | listApps ns => exact ⟨hv, trivial⟩
  | getExecutor | listExecutors | getDeployment | getSecret | getConfigMap => exact ⟨hv, rfl⟩
  | applyDeployment | deleteDeployment | applyService | pruneSecrets => exact ⟨⟨ha, rfl, rfl, rfl, rfl, rfl⟩, rfl⟩
  | createSecret x =>
    simp only [Cluster.perform]
    cases w.secrets.contains x.metadata.key <;> exact ⟨⟨ha, rfl, rfl, rfl, rfl, rfl⟩, rfl⟩
  | addFinalizer n ns =>
    simp only [Cluster.perform]
    cases w.executors.get? ⟨ns, n⟩ <;> exact ⟨⟨ha, rfl, rfl, rfl, rfl, rfl⟩, rfl⟩
  | removeFinalizer n ns =>
    simp only [Cluster.perform, Cluster.release]
    cases w.executors.get? ⟨ns, n⟩ with
    | none => exact ⟨⟨ha, rfl, rfl, rfl, rfl, rfl⟩, rfl⟩
    | some e =>
      dsimp only
      split <;> exact ⟨⟨ha, rfl, rfl, rfl, rfl, rfl⟩, rfl⟩

theorem SameDeclared.outcome_eq (h : w.SameDeclared v) {c : Call} (hc : c.isForChild = true) :
    (v.perform c).outcome = (w.perform c).outcome := by
  cases c with
  | applyDeployment | deleteDeployment | applyService => rfl
  | pruneSecrets => simp only [Cluster.perform, Cluster.labelledSecrets, h.secrets]
  | createSecret x =>
    simp only [Cluster.perform, h.secrets]
    cases w.secrets.contains x.metadata.key <;> rfl
  | _ => cases hc

end Cluster

/-! ## Worlds -/

/-- What happens to two calls: the same, but that the writing of a status may fail in the one and not in the other. -/
def Call.CuesAlike (c : Call) (q q' : Option Cue) : Prop :=
  match c with
  | .patchAppStatus .. => (q.map Cue.delay).getD 0 = (q'.map Cue.delay).getD 0 ∧
      (q.map Cue.edits).getD [] = (q'.map Cue.edits).getD []
  | _ => q = q'

theorem Call.CuesAlike.eq_or {c : Call} {q q' : Option Cue} (h : c.CuesAlike q q') :
    q = q' ∨ ∃ n ns v status, c = .patchAppStatus n ns v status := by
  cases c with
  | patchAppStatus n ns v status => exact .inr ⟨n, ns, v, status, rfl⟩
  | _ => exact .inl h

/-- Two scripts that do the same to every call, but that the writing of a status may fail in the one and not in the
other, with any error. -/
def ScriptsAlike (script script' : List Cue) : Prop :=
  ∀ (c : Call) n, c.CuesAlike (script.find? fun q => q.matches c n) (script'.find? fun q => q.matches c n)

def Happening.child? : Happening → Option (Call × Outcome)
  | .call c o => if c.isForChild then some (c, o) else none
  | .event _ | .measurement _ => none

def World.childCalls (x : World) : List (Call × Outcome) := (x.trace.filterMap Happening.child?).reverse

/-- Two worlds with the same children, in which the same happened to them at the same time. -/
structure World.InStep (x y : World) : Prop where
  cluster : x.cluster.SameDeclared y.cluster
  script : ScriptsAlike x.script y.script
  clock : y.clock = x.clock
  counts : y.counts = x.counts
  trace : y.trace.map Happening.child? = x.trace.map Happening.child?

/-- Two calls of which one may write down another status than the other. -/
inductive Call.SameAim : Call → Call → Prop
  | same (c : Call) : SameAim c c
  | patch (n ns : String) (v v' : String) (status status' : AppStatus) :
      SameAim (.patchAppStatus n ns v status) (.patchAppStatus n ns v' status')

namespace Call.SameAim

variable {c c' : Call}

theorem verb_eq (h : c.SameAim c') : c'.verb = c.verb := by cases h <;> rfl

theorem matches_eq (h : c.SameAim c') (q : Cue) (n : Nat) : q.matches c' n = q.matches c n := by cases h <;> rfl

theorem child?_eq (h : c.SameAim c') (o : Outcome) :
    (Happening.call c' o).child? = (Happening.call c o).child? := by cases h <;> rfl

end Call.SameAim

namespace World

variable {x y : World} {c c' : Call}

theorem inStep_ofCluster {w v : Cluster} {script script' : List Cue} (hw : w.SameDeclared v)
    (hs : ScriptsAlike script script') : (ofCluster w script).InStep (ofCluster v script') :=
  ⟨hw, hs, rfl, rfl, rfl⟩

theorem InStep.childCalls_eq (h : x.InStep y) : y.childCalls = x.childCalls := by
  have filter (t : List Happening) : t.filterMap Happening.child? = (t.map Happening.child?).filterMap id := by
    rw [List.filterMap_map]
    rfl
  unfold World.childCalls
  rw [filter, filter, h.trace]

theorem InStep.length_eq (h : x.InStep y) : y.trace.length = x.trace.length := by
  simpa using congrArg List.length h.trace

theorem InStep.note (h : x.InStep y) {i j : Happening} (hi : j.child? = i.child?) : (x.note i).InStep (y.note j) :=
  ⟨h.cluster, h.script, h.clock, h.counts, congrArg₂ List.cons hi h.trace⟩

theorem InStep.settle (h : x.InStep y) {i j : Begun} {o o' : Outcome} (he : j.entry = i.entry)
    (hi : (Happening.call j.call o').child? = (Happening.call i.call o).child?) :
    (x.settle i o).InStep (y.settle j o') := by
  refine ⟨h.cluster, h.script, h.clock, h.counts, ?_⟩
  simp only [World.settle, List.map_set, h.trace, h.length_eq, he, hi]

/-- **Calls begin alike**, and the same is going to happen to them. -/
theorem InStep.begin (h : x.InStep y) (hc : c.SameAim c') :
    (x.begin c).1.InStep (y.begin c').1 ∧ (y.begin c').2.entry = (x.begin c).2.entry ∧
      c.CuesAlike (x.begin c).2.cue (y.begin c').2.cue := by
  unfold World.begin
  dsimp only
  simp only [hc.verb_eq, h.counts, hc.matches_eq]
  refine ⟨InStep.note ?_ (hc.child?_eq _), h.length_eq, h.script c _⟩
  exact ⟨h.cluster, h.script, h.clock, rfl, h.trace⟩

theorem InStep.edit (h : x.InStep y) {w v : Cluster} (hw : w.SameDeclared v) (ys : List Edit) :
    World.InStep { x with cluster := ys.foldl Cluster.edit w } { y with cluster := ys.foldl Cluster.edit v } :=
  ⟨hw.edits ys, h.script, h.clock, h.counts, h.trace⟩

theorem InStep.inFlight (h : x.InStep y) (m n : Nat) :
    World.InStep { x with maxInFlight := m } { y with maxInFlight := n } :=
  ⟨h.cluster, h.script, h.clock, h.counts, h.trace⟩

/-- **A call acts alike**, or fails alike. -/
theorem InStep.act (h : x.InStep y) (c : Call) (entry : Nat) (cue : Option Cue) :
    (x.act ⟨c, entry, cue⟩).1.InStep (y.act ⟨c, entry, cue⟩).1 ∧
      c.AnswersAlike (x.act ⟨c, entry, cue⟩).2 (y.act ⟨c, entry, cue⟩).2 := by
  unfold World.act
  dsimp only
  cases cue >>= Cue.error with
  | some e => exact ⟨(h.edit h.cluster _).settle rfl rfl, c.answersAlike_error e⟩
  | none =>
    obtain ⟨hw, ha⟩ := h.cluster.perform c
    refine ⟨(h.edit hw _).settle rfl ?_, ha⟩
    unfold Happening.child?
    dsimp only
    split
    · rename_i hc
      rw [h.cluster.outcome_eq hc]
    · rfl

theorem act_patch_eq (x : World) (n ns version : String) (status : AppStatus) (entry : Nat) (cue : Option Cue) :
    ∃ w o, x.cluster.SameDeclared w ∧ (x.act ⟨.patchAppStatus n ns version status, entry, cue⟩).1 =
      World.settle { x with cluster := ((cue.map Cue.edits).getD []).foldl Cluster.edit w }
        ⟨.patchAppStatus n ns version status, entry, cue⟩ o := by
  unfold World.act
  dsimp only
  cases cue >>= Cue.error with
  | some e => exact ⟨_, _, .refl _, rfl⟩
  | none => exact ⟨_, _, Cluster.sameDeclared_patch .., rfl⟩

theorem InStep.act_patch (h : x.InStep y) {n ns v v' : String} {status status' : AppStatus} {entry : Nat}
    {cue cue' : Option Cue} (he : (cue.map Cue.edits).getD [] = (cue'.map Cue.edits).getD []) :
    (x.act ⟨.patchAppStatus n ns v status, entry, cue⟩).1.InStep
      (y.act ⟨.patchAppStatus n ns v' status', entry, cue'⟩).1 := by
  obtain ⟨w, o, hw, hx⟩ := act_patch_eq x n ns v status entry cue
  obtain ⟨w', o', hw', hy⟩ := act_patch_eq y n ns v' status' entry cue'
  rw [hx, hy, he]
  exact (h.edit ((hw.symm.trans h.cluster).trans hw') _).settle rfl rfl

end World

/-! ## Runs -/

namespace Simulation

variable {x y : World}

theorem await_inStep (deadline : Option Nat) (h : x.InStep y) (delay : Nat) :
    (await deadline x delay).1.InStep (await deadline y delay).1 ∧
      (await deadline y delay).2 = (await deadline x delay).2 := by
  unfold await
  by_cases hd : delay = 0
  · rw [if_pos hd, if_pos hd]
    exact ⟨h, rfl⟩
  rw [if_neg hd, if_neg hd]
  cases deadline with
  | none => exact ⟨⟨h.cluster, h.script, by rw [h.clock], h.counts, h.trace⟩, rfl⟩
  | some limit =>
    dsimp only
    rw [h.clock]
    split <;> exact ⟨⟨h.cluster, h.script, rfl, h.counts, h.trace⟩, rfl⟩

inductive Goes : Fetch ⊕ Ending → Fetch ⊕ Ending → Prop
  | on (f : Fetch) {z : World} (h : f.world.InStep z) : Goes (.inl f) (.inl { f with world := z })
  | finished {x y : World} (h : x.InStep y) (r : Except Error Resolved) :
      Goes (.inr (.finished x r)) (.inr (.finished y r))
  | timedOut {x y : World} (h : x.InStep y) : Goes (.inr (.timedOut x)) (.inr (.timedOut y))

namespace Fetch

variable {f : Fetch} {z : World}

theorem goes_proceed (h : f.world.InStep z) (ref : Reference) (entry : Nat) (cue : Option Cue) :
    Goes (f.proceed (f.complete ref entry cue))
      (Fetch.proceed { f with world := z } (Fetch.complete { f with world := z } ref entry cue)) := by
  obtain ⟨hw, ha⟩ := h.act (lookup ref) entry cue
  have ha : (f.world.act ⟨lookup ref, entry, cue⟩).2 = (z.act ⟨lookup ref, entry, cue⟩).2 := by
    cases ref <;> exact ha
  unfold proceed complete
  dsimp only
  rw [ha]
  cases enter f.resolved ref (z.act ⟨lookup ref, entry, cue⟩).2 with
  | error e => exact .finished hw _
  | ok r => exact .on (refill { f with world := (f.world.act ⟨lookup ref, entry, cue⟩).1, resolved := r }) hw

theorem goes_start (h : f.world.InStep z) (ref : Reference) :
    Goes (f.start ref) (Fetch.start { f with world := z } ref) := by
  obtain ⟨hw, he, hc⟩ := h.begin (.same (lookup ref))
  have hc : (f.world.begin (lookup ref)).2.cue = (z.begin (lookup ref)).2.cue := by cases ref <;> exact hc
  have hd : (f.world.begin (lookup ref)).2.delay = (z.begin (lookup ref)).2.delay := by
    unfold World.Begun.delay
    rw [hc]
  unfold start
  dsimp only
  rw [← he, hc, hd]
  by_cases h0 : (z.begin (lookup ref)).2.delay = 0
  · rw [if_pos h0, if_pos h0]
    exact goes_proceed (f := { f with world := { (f.world.begin (lookup ref)).1 with maxInFlight := _ } })
      (hw.inFlight ..) ..
  · rw [if_neg h0, if_neg h0, hw.clock]
    exact .on { f with
      world := { (f.world.begin (lookup ref)).1 with maxInFlight := _ }, sleeping := f.sleeping ++ [_] }
      ⟨hw.cluster, hw.script, rfl, hw.counts, hw.trace⟩

theorem goes_wait (deadline : Option Nat) (h : f.world.InStep z) (wake : Nat) :
    Goes (f.wait deadline wake) (Fetch.wait deadline { f with world := z } wake) := by
  have hw (t : Nat) : World.InStep { f.world with clock := t } { z with clock := t } :=
    ⟨h.cluster, h.script, rfl, h.counts, h.trace⟩
  unfold wait
  cases deadline with
  | none => exact .on (wait.wakeUp f wake) (hw wake)
  | some limit =>
    dsimp only
    split
    · rw [h.clock]
      exact .timedOut (hw _)
    · exact .on (wait.wakeUp f wake) (hw wake)

/-- **One step of a look-up** goes on alike. -/
theorem goes_step (deadline : Option Nat) (h : f.world.InStep z) :
    Goes (f.step deadline) (Fetch.step deadline { f with world := z }) := by
  unfold step
  dsimp only
  cases hr : f.ready with
  | nil =>
    dsimp only
    cases earliest f.sleeping with
    | some wake =>
      have hwait := goes_wait deadline h wake
      rw [hr] at hwait
      exact hwait
    | none => exact .finished h _
  | cons j rest =>
    cases j with
    | fresh ref => exact goes_start (f := { f with ready := rest }) h ref
    | woken w => exact goes_proceed (f := { f with ready := rest }) h ..

theorem goes_run (deadline : Option Nat) (fuel : Nat) (h : f.world.InStep z) :
    Goes (.inr (f.run deadline fuel)) (.inr (Fetch.run deadline fuel { f with world := z })) := by
  induction fuel generalizing f z with
  | zero => exact .finished h _
  | succ fuel ih =>
    have hs := goes_step deadline h
    unfold run
    generalize f.step deadline = r, Fetch.step deadline { f with world := z } = r' at hs
    cases hs with
    | on g h => exact ih h
    | finished h r => exact .finished h r
    | timedOut h => exact .timedOut h

end Fetch

theorem goes_fetch (deadline : Option Nat) (h : x.InStep y) (refs : List Reference) :
    Goes (.inr (fetch deadline x refs)) (.inr (fetch deadline y refs)) :=
  Fetch.goes_run deadline _ (f := Fetch.ofReferences x refs) h

theorem makeCall_alike (deadline : Option Nat) (h : x.InStep y) {c c' : Call} (hc : c.SameAim c')
    {R : Except Error c.Answer → Except Error c'.Answer → Prop}
    (hd : (y.begin c').2.delay = (x.begin c).2.delay)
    (hact : ∀ x' y' : World, x'.InStep y' →
      let r := x'.act ⟨c, (x.begin c).2.entry, (x.begin c).2.cue⟩
      let r' := y'.act ⟨c', (y.begin c').2.entry, (y.begin c').2.cue⟩
      r.1.InStep r'.1 ∧ R r.2 r'.2) :
    (makeCall deadline x c).1.InStep (makeCall deadline y c').1 ∧
      Option.Rel R (makeCall deadline x c).2 (makeCall deadline y c').2 := by
  obtain ⟨hw, hb⟩ := await_inStep deadline (h.begin hc).1 (x.begin c).2.delay
  unfold makeCall
  dsimp only
  rw [hd]
  generalize await deadline (x.begin c).1 _ = r, await deadline (y.begin c').1 _ = r' at hw hb
  obtain ⟨x', b⟩ := r
  obtain ⟨y', b'⟩ := r'
  cases hb
  cases b with
  | false => exact ⟨hw, .none⟩
  | true => exact ⟨(hact x' y' hw).1, .some (hact x' y' hw).2⟩

theorem makeCall_patch (deadline : Option Nat) (h : x.InStep y) (n ns v v' : String) (status status' : AppStatus) :
    (makeCall deadline x (.patchAppStatus n ns v status)).1.InStep
        (makeCall deadline y (.patchAppStatus n ns v' status')).1 ∧
      Option.Rel (fun _ _ => True) (makeCall deadline x (.patchAppStatus n ns v status)).2
        (makeCall deadline y (.patchAppStatus n ns v' status')).2 := by
  obtain ⟨-, he, hd, hy⟩ := h.begin (.patch n ns v v' status status')
  refine makeCall_alike deadline h (.patch ..) hd.symm fun x' y' hw => ?_
  dsimp only
  rw [he]
  exact ⟨hw.act_patch hy, trivial⟩

theorem makeCall_same (deadline : Option Nat) (h : x.InStep y) (c : Call) :
    (makeCall deadline x c).1.InStep (makeCall deadline y c).1 ∧
      Option.Rel c.AnswersAlike (makeCall deadline x c).2 (makeCall deadline y c).2 := by
  obtain ⟨-, he, hc⟩ := h.begin (.same c)
  rcases hc.eq_or with hc | ⟨n, ns, v, status, rfl⟩
  · refine makeCall_alike deadline h (.same c) (by unfold World.Begun.delay; rw [hc]) fun x' y' hw => ?_
    dsimp only
    rw [he, ← hc]
    exact hw.act c _ _
  · exact makeCall_patch deadline h n ns v v status status

/-- **Passes in step stay so**, whatever is done to them. -/
theorem run_inStep {α β : Type} {R : α → β → Prop} (deadline : Option Nat) {p : Pass α} {q : Pass β}
    (hp : p.InStep R q) (h : x.InStep y) :
    (run deadline p x).1.InStep (run deadline q y).1 ∧ Option.Rel R (run deadline p x).2 (run deadline q y).2 := by
  induction hp generalizing x y with
  | done hr => exact ⟨h, .some hr⟩
  | call c _ ih =>
    obtain ⟨hw, hr⟩ := makeCall_same deadline h c
    unfold run
    generalize makeCall deadline x c = r, makeCall deadline y c = r' at hw hr
    obtain ⟨x', a⟩ := r
    obtain ⟨y', a'⟩ := r'
    cases hr with
    | none => exact ⟨hw, .none⟩
    | some ha => exact ih _ _ ha hw
  | @patch n ns v v' status status' _ _ _ ih =>
    obtain ⟨hw, hr⟩ := makeCall_patch deadline h n ns v v' status status'
    unfold run
    generalize makeCall deadline x (.patchAppStatus n ns v status) = r,
      makeCall deadline y (.patchAppStatus n ns v' status') = r' at hw hr
    obtain ⟨x', a⟩ := r
    obtain ⟨y', a'⟩ := r'
    cases hr with
    | none => exact ⟨hw, .none⟩
    | some ha => exact ih _ _ hw
  | gather refs _ ih =>
    have hf := goes_fetch deadline h refs
    unfold run
    generalize fetch deadline x refs = e, fetch deadline y refs = e' at hf
    cases hf with
    | finished hw r => exact ih r hw
    | timedOut hw => exact ⟨hw, .none⟩
  | publish _ _ ih => exact ih (h.note rfl)
  | record _ _ ih => exact ih (h.note rfl)

end Simulation

end SpinFleet
