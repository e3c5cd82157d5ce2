import SpinFleet.Reconcile.App
import SpinFleet.Proofs.Writes
import SpinFleet.Proofs.Children
import SpinFleet.Proofs.Timeline
/-!
# Precedence — what must have happened before

`InOrder key t` is the law of the order of effects, read off the timeline `t` of a pass over the app stored under `key`:
a `Deployment` is applied only after the `Secret`s that the operator provides for it have been created, `Secret`s are
pruned only after the `Deployment`, the `Service` comes after both, nothing is changed for an app that is gone or going,
and a failure is the end.  `App.pass_inOrder` proves it of every timeline of a pass.

The proof goes along the pass with the history so far in hand.  `Attempt.Keeps key h x Q` says that after the history
`h` every tick of `x` may follow what came before it (`Tick.Fits`), that the history is settled wherever `x` ends
without a value, and that `Q` holds of its values and of the histories with which it comes to them.  There is one rule
for each way of putting attempts together.
-/
namespace SpinFleet

open Simulation (lookup)

variable {h h' t u : List Tick} {c : Call}

/-! ## What a history says -/

def Tick.app? : Tick → Option (Option App)
  | .heard (.getApp ..) (.ok a) => some a
  | _ => none

def Tick.executor? : Tick → Option (Option Executor)
  | .heard (.getExecutor ..) (.ok e) => some e
  | _ => none

/-- The snapshot of the app that is in use: what its last reading has found, if anything. -/
def appInUse (h : List Tick) : Option App := (h.filterMap Tick.app?).getLast?.join

def executorInUse (h : List Tick) : Option Executor := (h.filterMap Tick.executor?).getLast?.join

/-- A call has been made, and has not failed. -/
def Made (h : List Tick) (c : Call) : Prop := ∃ a, .heard c (.ok a) ∈ h

/-- A `Secret` has been created under a key, or was found there. -/
def Created (h : List Tick) (k : ObjectKey) : Prop := ∃ x : Secret, x.metadata.key = k ∧ Made h (.createSecret x)

/-- What a `Deployment` mounts besides the volumes of the app's author: the `Secret` with the configuration, which the
author has named or the operator has created, and the one with the certificates, which the executor names or the
operator has created. -/
structure Provided (h : List Tick) (a : App) (c : DeploymentConfig) (config ca : Option String) : Prop where
  config : ∀ n, config = some n →
    a.spec.runtimeConfig.verbatimSecret = some n ∨
    a.spec.runtimeConfig.verbatimSecret = none ∧ Created h ⟨a.ns, n⟩
  ca : ∀ n, ca = some n →
    c.caSecret = some n ∨ c.caSecret = none ∧ n = defaultCaSecret ∧ Created h ⟨a.ns, n⟩

/-- A `Deployment` may be applied: it is one for the app in use, and everything it mounts is provided. -/
def MayApply (h : List Tick) (d : Deployment) : Prop :=
  ∃ a e config ca, appInUse h = some a ∧ executorInUse h = some e ∧ e.spec.createDeployment = true ∧
    d.metadata.key = ⟨a.ns, a.name⟩ ∧
    d.volumes = (Storage.plan a (config.map Storage.configFile) (ca.map Storage.caFile)).volumes ∧
    Provided h a e.spec.config config ca

/-- A `Service` may be applied: everything that comes before it has been done. -/
def MayServe (key : ObjectKey) (h : List Tick) : Prop :=
  ∃ a e, appInUse h = some a ∧ executorInUse h = some e ∧
    if e.spec.createDeployment then ∃ keep, Made h (.pruneSecrets a.name a.ns keep)
    else Made h (.deleteDeployment key.name key.ns)

/-- **The order of effects** in a timeline of a pass over the app stored under a key. -/
structure InOrder (key : ObjectKey) (t : List Tick) : Prop where
  /-- Every `Secret` that the operator provides is there before the `Deployment` that mounts it is applied. -/
  applied : ∀ t₁ d t₂, t = t₁ ++ .begins (.applyDeployment d) :: t₂ → MayApply t₁ d
  pruned : ∀ t₁ app ns keep t₂, t = t₁ ++ .begins (.pruneSecrets app ns keep) :: t₂ →
    ∃ d, d.metadata.key = ⟨ns, app⟩ ∧ Made t₁ (.applyDeployment d)
  served : ∀ t₁ s t₂, t = t₁ ++ .begins (.applyService s) :: t₂ → MayServe key t₁
  recorded_iff : (∃ m, .recorded m ∈ t) ↔ ∃ s, Made t (.applyService s)
  /-- Nothing but the status is written unless there is a snapshot of the app that is not going. -/
  live : ∀ t₁ c t₂, t = t₁ ++ .begins c :: t₂ → c.isWrite = true → c.verb ≠ "patch_app_status" →
    ∃ a, appInUse t₁ = some a ∧ a.metadata.isDeleting = false
  failFast : ∀ t₁ c e t₂, t = t₁ ++ .heard c (.error e) :: t₂ → c.verb ≠ "patch_app_status" →
    ∀ c', .begins c' ∉ t₂

/-! ## What may follow a history -/

/-- Nothing has failed but the writing of the status. -/
def Calm (h : List Tick) : Prop := ∀ c e, .heard c (.error e) ∈ h → c.verb = "patch_app_status"

/-- There is a snapshot of the app, and the app is not going. -/
def Live (h : List Tick) : Prop := ∃ a, appInUse h = some a ∧ a.metadata.isDeleting = false

def Call.Follows (key : ObjectKey) (h : List Tick) : Call → Prop
  | .createSecret _ | .deleteDeployment .. => Live h
  | .applyDeployment d => Live h ∧ MayApply h d
  | .pruneSecrets app ns _ => Live h ∧ ∃ d, d.metadata.key = ⟨ns, app⟩ ∧ Made h (.applyDeployment d)
  | .applyService _ => Live h ∧ MayServe key h
  | .addFinalizer .. | .removeFinalizer .. => False
  | _ => True

def Tick.Fits (key : ObjectKey) (h : List Tick) : Tick → Prop
  | .begins c => Calm h ∧ c.Follows key h
  | .recorded _ => ∃ s, Made h (.applyService s)
  | .heard .. | .told _ => True

/-- Every tick may follow what came before it. -/
def Fits (key : ObjectKey) : List Tick → List Tick → Prop
  | _, [] => True
  | h, x :: t => x.Fits key h ∧ Fits key (h ++ [x]) t

/-- A measurement was recorded exactly if the `Service` has been applied. -/
def Settled (h : List Tick) : Prop := (∃ m, .recorded m ∈ h) ↔ ∃ s, Made h (.applyService s)

theorem fits_append {key : ObjectKey} : ∀ {t h : List Tick}, Fits key h t → Fits key (h ++ t) u → Fits key h (t ++ u)
  | [], h, _, hu => by rwa [List.append_nil] at hu
  | x :: t, h, ht, hu => by
    refine ⟨ht.1, fits_append ht.2 ?_⟩
    rwa [List.append_assoc]

theorem Fits.at {key : ObjectKey} {x : Tick} : ∀ {t₁ h t₂ : List Tick}, Fits key h (t₁ ++ x :: t₂) →
    x.Fits key (h ++ t₁)
  | [], h, _, hf => by
    rw [List.append_nil]
    exact hf.1
  | y :: t₁, h, _, hf => by
    have hx := Fits.at hf.2
    rwa [List.append_assoc] at hx

theorem Call.Follows.live {key : ObjectKey} (hf : c.Follows key h) (hw : c.isWrite = true)
    (hv : c.verb ≠ "patch_app_status") : Live h := by
  cases c with
  | createSecret | deleteDeployment => exact hf
  | applyDeployment | pruneSecrets | applyService => exact hf.1
  | addFinalizer | removeFinalizer => exact hf.elim
  | patchAppStatus => exact absurd rfl hv
  | _ => cases hw

theorem Fits.inOrder {key : ObjectKey} (hf : Fits key [] t) (hs : Settled t) : InOrder key t where
  applied t₁ d t₂ ht := (ht ▸ hf).at.2.2
  pruned t₁ app ns keep t₂ ht := (ht ▸ hf).at.2.2
  served t₁ s t₂ ht := (ht ▸ hf).at.2.2
  recorded_iff := hs
  live t₁ c t₂ ht hw hv := (ht ▸ hf).at.2.live hw hv
  failFast t₁ c e t₂ ht hv c' hm := by
    obtain ⟨u₁, u₂, rfl⟩ := List.append_of_mem hm
    have hsplit : t = (t₁ ++ .heard c (.error e) :: u₁) ++ .begins c' :: u₂ := by simp [ht]
    have hcalm : Calm (t₁ ++ .heard c (.error e) :: u₁) := (hsplit ▸ hf).at.1
    exact hv (hcalm c e (List.mem_append_right _ List.mem_cons_self))

/-! ## What was found last -/

section Last

variable {α : Type} {f : Tick → Option (Option α)}

theorem last_append (hu : u.filterMap f = []) :
    ((h ++ u).filterMap f).getLast?.join = (h.filterMap f).getLast?.join := by
  rw [List.filterMap_append, hu, List.append_nil]

theorem last_concat {o : Option α} (hu : u.filterMap f = [o]) : ((h ++ u).filterMap f).getLast?.join = o := by
  rw [List.filterMap_append, hu, List.getLast?_concat]
  rfl

end Last

/-! ## Histories that grow -/

/-- A tick after which the same snapshots are in use, nothing more has failed, and no `Service` has been applied. -/
def Tick.Plain : Tick → Prop
  | .begins _ | .told _ => True
  | .recorded _ => False
  | .heard c (.error _) => c.verb = "patch_app_status"
  | .heard (.getApp ..) (.ok _) | .heard (.getExecutor ..) (.ok _) | .heard (.applyService _) (.ok _) => False
  | .heard _ (.ok _) => True

def Adds (h h' : List Tick) : Prop := ∃ u, h' = h ++ u ∧ ∀ x ∈ u, x.Plain

/-- A history with which a pass can go on: nothing has failed, and it is not at its end yet. -/
structure Ongoing (h : List Tick) : Prop where
  calm : Calm h
  unrecorded : ∀ m, .recorded m ∉ h
  unserved : ∀ s, ¬ Made h (.applyService s)

theorem Tick.Plain.app? {x : Tick} (hx : x.Plain) : x.app? = none := by
  unfold Tick.app?
  split
  · exact hx.elim
  · rfl

theorem Tick.Plain.executor? {x : Tick} (hx : x.Plain) : x.executor? = none := by
  unfold Tick.executor?
  split
  · exact hx.elim
  · rfl

namespace Adds

theorem refl (h : List Tick) : Adds h h := ⟨[], (List.append_nil h).symm, List.forall_mem_nil _⟩

theorem trans {h'' : List Tick} (ha : Adds h h') (hb : Adds h' h'') : Adds h h'' := by
  obtain ⟨u, rfl, hu⟩ := ha
  obtain ⟨v, rfl, hv⟩ := hb
  exact ⟨u ++ v, List.append_assoc .., List.forall_mem_append.2 ⟨hu, hv⟩⟩

theorem subset (ha : Adds h h') : h ⊆ h' := by
  obtain ⟨u, rfl, -⟩ := ha
  exact List.subset_append_left ..

theorem appInUse_eq (ha : Adds h h') : appInUse h' = appInUse h := by
  obtain ⟨u, rfl, hu⟩ := ha
  exact last_append (List.filterMap_eq_nil_iff.2 fun x hx => (hu x hx).app?)

theorem executorInUse_eq (ha : Adds h h') : executorInUse h' = executorInUse h := by
  obtain ⟨u, rfl, hu⟩ := ha
  exact last_append (List.filterMap_eq_nil_iff.2 fun x hx => (hu x hx).executor?)

theorem ongoing (ha : Adds h h') (hg : Ongoing h) : Ongoing h' := by
  obtain ⟨u, rfl, hu⟩ := ha
  refine ⟨fun c e hm => ?_, fun m hm => ?_, fun s ⟨a, hm⟩ => ?_⟩
  · rcases List.mem_append.1 hm with hm | hm
    · exact hg.calm c e hm
    · exact hu _ hm
  · rcases List.mem_append.1 hm with hm | hm
    · exact hg.unrecorded m hm
    · exact hu _ hm
  · rcases List.mem_append.1 hm with hm | hm
    · exact hg.unserved s ⟨a, hm⟩
    · exact hu _ hm

theorem live (ha : Adds h h') (hl : Live h) : Live h' := by
  obtain ⟨a, hu, hd⟩ := hl
  exact ⟨a, ha.appInUse_eq.trans hu, hd⟩

end Adds

theorem Made.mono (hm : Made h c) (hs : h ⊆ h') : Made h' c := hm.imp fun _ ha => hs ha

theorem Created.mono {k : ObjectKey} (hc : Created h k) (hs : h ⊆ h') : Created h' k :=
  hc.imp fun _ hx => ⟨hx.1, hx.2.mono hs⟩

theorem Ongoing.settled (hg : Ongoing h) : Settled h :=
  ⟨fun ⟨m, hm⟩ => (hg.unrecorded m hm).elim, fun ⟨s, hs⟩ => (hg.unserved s hs).elim⟩

/-- Ticks that come to nothing: no measurement, and no `Service` that has been applied. -/
def Idle (u : List Tick) : Prop := (∀ m, .recorded m ∉ u) ∧ ∀ s, ¬ Made u (.applyService s)

theorem Settled.append (hs : Settled h) (hu : Idle u) : Settled (h ++ u) := by
  refine ⟨fun ⟨m, hm⟩ => ?_, fun ⟨s, a, hm⟩ => ?_⟩
  · obtain ⟨s, hs⟩ := hs.1 ⟨m, (List.mem_append.1 hm).resolve_right (hu.1 m)⟩
    exact ⟨s, hs.mono (List.subset_append_left ..)⟩
  · have hm := (List.mem_append.1 hm).resolve_right fun hr => hu.2 s ⟨a, hr⟩
    obtain ⟨m, hm⟩ := hs.2 ⟨s, a, hm⟩
    exact ⟨m, List.mem_append_left _ hm⟩

theorem idle_begins (c : Call) : Idle [.begins c] := ⟨by simp, by simp [Made]⟩

theorem idle_failed (c : Call) (e : Error) : Idle [.begins c, .heard c (.error e)] := by
  refine ⟨by simp, fun s ⟨a, hm⟩ => ?_⟩
  rcases List.mem_cons.1 hm with hm | hm
  · cases hm
  · cases List.mem_singleton.1 hm

theorem idle_told (e : Event) : Idle [.told e] := ⟨by simp, by simp [Made]⟩

/-! ## Rules -/

/-- After a history, all that an attempt does fits; where it ends without a value the history is settled, and where it
comes to a value, `Q` holds of the value and the history. -/
def Attempt.Keeps {α : Type} (key : ObjectKey) (h : List Tick) (x : Attempt α) (Q : α → List Tick → Prop) : Prop :=
  ∀ t r, Pass.Timeline x.run t r → Fits key h t ∧
    match r with
    | some (.ok a) => Q a (h ++ t)
    | _ => Settled (h ++ t)

namespace Attempt

variable {α β : Type} {key : ObjectKey} {x : Attempt α} {Q Q' : α → List Tick → Prop} {R : β → List Tick → Prop}

theorem Keeps.mono (hx : Keeps key h x Q) (hQ : ∀ a h', Q a h' → Q' a h') : Keeps key h x Q' := by
  intro t r ht
  obtain ⟨hf, hr⟩ := hx t r ht
  refine ⟨hf, ?_⟩
  rcases r with _ | _ | a
  · exact hr
  · exact hr
  · exact hQ a _ hr

theorem keeps_bind {f : α → Attempt β} (hx : Keeps key h x Q) (hf : ∀ a h', Q a h' → Keeps key h' (f a) R) :
    Keeps key h (x >>= f) R := by
  intro t r ht
  rcases split ht with ⟨e, rfl, h₁⟩ | ⟨a, t₁, t₂, rfl, h₁, h₂⟩
  · have hk := hx _ _ h₁
    cases e <;> exact hk
  · obtain ⟨hfit, ha⟩ := hx _ _ h₁
    obtain ⟨hfit', hr⟩ := hf a _ ha _ _ h₂
    rw [List.append_assoc] at hr
    exact ⟨fits_append hfit hfit', hr⟩

theorem keeps_tryCatch {f : Error → Attempt α} (hx : Keeps key h x Q)
    (hf : ∀ e h', Settled h' → Keeps key h' (f e) Q) : Keeps key h (tryCatch x f) Q := by
  intro t r ht
  rcases split_tryCatch ht with ⟨rfl, h₁⟩ | ⟨a, rfl, h₁⟩ | ⟨e, t₁, t₂, rfl, h₁, h₂⟩
  · exact hx _ _ h₁
  · exact hx _ _ h₁
  · obtain ⟨hfit, hs⟩ := hx _ _ h₁
    obtain ⟨hfit', hr⟩ := hf e _ hs _ _ h₂
    rw [List.append_assoc] at hr
    exact ⟨fits_append hfit hfit', hr⟩

theorem keeps_ofExcept {v : Except Error α} (hs : Settled h) :
    Keeps key h (ofExcept v) fun a h' => h' = h ∧ v = .ok a := by
  intro t r ht
  obtain ⟨rfl, rfl⟩ := timeline_ofExcept ht
  rw [List.append_nil]
  cases v with
  | error => exact ⟨trivial, hs⟩
  | ok a => exact ⟨trivial, rfl, rfl⟩

theorem keeps_pure {a : α} (hQ : Q a h) : Keeps key h (pure a) Q := by
  intro t r ht
  obtain ⟨rfl, rfl⟩ := timeline_pure ht
  rw [List.append_nil]
  exact ⟨trivial, hQ⟩

theorem keeps_throw {e : Error} (hs : Settled h) : Keeps key h (throw e) Q := by
  intro t r ht
  obtain ⟨rfl, rfl⟩ := timeline_throw ht
  rw [List.append_nil]
  exact ⟨trivial, hs⟩

theorem call_stops (hg : Ongoing h) (hf : c.Follows key h) :
    Fits key h [.begins c] ∧ Settled (h ++ [.begins c]) ∧
      ∀ answer, Fits key h [.begins c, .heard c answer] ∧ ∀ e, Settled (h ++ [.begins c, .heard c (.error e)]) := by
  have hb : Tick.Fits key h (.begins c) := ⟨hg.calm, hf⟩
  refine ⟨⟨hb, trivial⟩, hg.settled.append (idle_begins c), fun answer => ⟨⟨hb, trivial, trivial⟩, fun e => ?_⟩⟩
  exact hg.settled.append (idle_failed c e)

theorem keeps_call (hg : Ongoing h) (hf : c.Follows key h) :
    Keeps key h (call c) fun a h' => h' = h ++ [.begins c, .heard c (.ok a)] := by
  intro t r ht
  obtain ⟨hfit, hdrop, hanswer⟩ := call_stops hg hf
  rcases timeline_call ht with ⟨rfl, rfl⟩ | ⟨answer, rfl, rfl⟩
  · exact ⟨hfit, hdrop⟩
  · refine ⟨(hanswer answer).1, ?_⟩
    cases answer with
    | error e => exact (hanswer (.error e)).2 e
    | ok a => rfl

theorem keeps_tryCall (hg : Ongoing h) (hf : c.Follows key h) :
    Keeps key h (tryCall c) fun answer h' => h' = h ++ [.begins c, .heard c answer] := by
  intro t r ht
  obtain ⟨hfit, hdrop, hanswer⟩ := call_stops hg hf
  rcases timeline_tryCall ht with ⟨rfl, rfl⟩ | ⟨answer, rfl, rfl⟩
  · exact ⟨hfit, hdrop⟩
  · exact ⟨(hanswer answer).1, rfl⟩

theorem keeps_publish {e : Event} (hs : Settled h) : Keeps key h (publish e) fun _ h' => h' = h ++ [.told e] := by
  intro t r ht
  rcases timeline_publish ht with ⟨rfl, rfl⟩ | ⟨rfl, rfl | rfl⟩
  · rw [List.append_nil]
    exact ⟨trivial, hs⟩
  · exact ⟨⟨trivial, trivial⟩, hs.append (idle_told e)⟩
  · exact ⟨⟨trivial, trivial⟩, rfl⟩

theorem keeps_record {m : Measurement} (hm : ∃ s, Made h (.applyService s)) :
    Keeps key h (record m) fun _ h' => h' = h ++ [.recorded m] := by
  intro t r ht
  obtain ⟨rfl, rfl⟩ := timeline_record ht
  exact ⟨⟨hm, trivial⟩, rfl⟩

theorem keeps_publish_throw {ev : Event} {e : Error} (hs : Settled h) :
    Keeps key h (do publish ev; throw e) Q :=
  keeps_bind (keeps_publish hs) fun _ _ hp => hp ▸ keeps_throw (hs.append (idle_told ev))

end Attempt

/-! ## Look-ups -/

theorem lookup_plain {ref : Reference} {answer : Except Error (lookup ref).Answer}
    (hn : lookupError? ref answer = none) : Tick.Plain (.heard (lookup ref) answer) := by
  cases ref with
  | secret | configMap =>
    cases answer with
    | error => cases hn
    | ok => trivial

theorem follows_lookup (key : ObjectKey) (h : List Tick) (ref : Reference) : (lookup ref).Follows key h := by
  cases ref <;> trivial

theorem ticks_plain {u : List LookupTurn}
    (hu : ∀ ref answer, .completes ref answer ∈ u → lookupError? ref answer = none) :
    ∀ x ∈ ticks u, x.Plain := by
  intro x hx
  obtain ⟨y, hy, rfl⟩ := List.mem_map.1 hx
  cases y with
  | starts => trivial
  | completes ref answer => exact lookup_plain (hu _ _ hy)

theorem ticks_idle (u : List LookupTurn) : Idle (ticks u) := by
  constructor
  · intro m hm
    obtain ⟨y, -, hy⟩ := List.mem_map.1 hm
    cases y <;> cases hy
  · rintro s ⟨a, hm⟩
    obtain ⟨y, -, hy⟩ := List.mem_map.1 hm
    cases y with
    | starts => cases hy
    | completes ref =>
      cases ref with
      | secret | configMap => cases hy

namespace Lookups

variable {refs : List Reference} {s s' : Lookups} {u : List LookupTurn}

theorem Accounts.fine {queue inFlight : List Reference} {found : Resolved}
    (ha : Accounts refs u (running queue inFlight found)) :
    ∀ ref answer, .completes ref answer ∈ u → lookupError? ref answer = none :=
  fun _ _ hm => (ha.2.entered _ _ hm).1

/-- All starts of a look-up come before its first failure. -/
theorem Reaches.fits {key : ObjectKey} (hr : Reaches (start refs) u s) (hn : refs.Nodup) (hg : Ongoing h) :
    Fits key h (ticks u) := by
  induction hr with
  | refl => trivial
  | @snoc u s x s' hu hx ih =>
    rw [ticks_append]
    refine fits_append ih ?_
    cases hx with
    | completes => exact ⟨trivial, trivial⟩
    | starts =>
      have hadds : Adds h (h ++ ticks u) := ⟨_, rfl, ticks_plain (hu.accounts hn).fine⟩
      exact ⟨⟨(hadds.ongoing hg).calm, follows_lookup ..⟩, trivial⟩

end Lookups

theorem References.keeps_fetch {key : ObjectKey} (refs : References) (hg : Ongoing h) :
    Attempt.Keeps key h refs.fetch fun _ h' => Adds h h' := by
  intro t r ht
  have hstop (u : List LookupTurn) : Settled (h ++ ticks u) := hg.settled.append (ticks_idle u)
  obtain ⟨u, rfl, ⟨x, rfl, hu⟩ | ⟨_, _, _, _, rfl, hu⟩⟩ := Attempt.timeline_gather ht
  · refine ⟨hu.fits refs.nodup_toList hg, ?_⟩
    cases x with
    | error => exact hstop u
    | ok r =>
      have hacc : Lookups.Account refs.toList u [] [] r := hu.accounts refs.nodup_toList
      exact ⟨_, rfl, ticks_plain fun _ _ hm => (hacc.entered _ _ hm).1⟩
  · exact ⟨hu.fits refs.nodup_toList hg, hstop u⟩

end SpinFleet
