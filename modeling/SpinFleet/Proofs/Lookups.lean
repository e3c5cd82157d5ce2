import Mathlib.Data.List.Nodup
import Mathlib.Data.List.Perm.Subperm
import SpinFleet.Simulation.Fetch
/-!
# Lookups — looking up several objects at once, in any order

What the look-up of a set of references may do, whatever the time that each answer takes: the next reference starts
while fewer than `maxLookups` are in flight, and any of those in flight may be the next to complete.  A look-up that
fails, or finds nothing, ends the whole, and the others in flight are dropped.  `Lookups.Reaches s t s'` says that the
turns `t` lead from `s` to `s'`.

All schedules keep one account (`Lookups.Accounts`): the references that have started are a first part of all of them,
each has either completed or is in flight, and what was found is what the completed ones found.  `Lookups.orderly` is
what the account says of every schedule: no more than ten in flight, nothing twice, the same end for all if one of them
succeeds, and nothing after a failure.
-/
namespace SpinFleet

open Simulation (lookup demand enter)

inductive LookupTurn
  | starts (ref : Reference)
  | completes (ref : Reference) (answer : Except Error (lookup ref).Answer)

namespace LookupTurn

def started? : LookupTurn → Option Reference
  | starts ref => some ref
  | completes .. => none

def completed? : LookupTurn → Option Reference
  | starts _ => none
  | completes ref _ => some ref

end LookupTurn

def started (t : List LookupTurn) : List Reference := t.filterMap LookupTurn.started?

def completed (t : List LookupTurn) : List Reference := t.filterMap LookupTurn.completed?

/-- Why a look-up is a failure: it has failed, or there is no such object. -/
def failure? {α : Type} (kind : String) (k : ObjectKey) : Except Error (Option α) → Option Error
  | .error e => some e
  | .ok none => some (.missingDependency kind k.ns k.name)
  | .ok (some _) => none

def lookupError? : (ref : Reference) → Except Error (lookup ref).Answer → Option Error
  | .secret k, answer => failure? "secret" k (answer : Except Error (Option Secret))
  | .configMap k, answer => failure? "configmap" k (answer : Except Error (Option ConfigMap))

inductive Lookups
  | running (queue inFlight : List Reference) (found : Resolved)
  | ended (result : Except Error Resolved)

namespace Lookups

/-- Goes on with what has not started and what is in flight, or ends if there is neither. -/
def goOn : List Reference → List Reference → Resolved → Lookups
  | [], [], found => ended (.ok found)
  | queue, inFlight, found => running queue inFlight found

def after (queue inFlight : List Reference) : Except Error Resolved → Lookups
  | .ok found => goOn queue inFlight found
  | .error e => ended (.error e)

def start (refs : List Reference) : Lookups := goOn refs [] .empty

/-- One turn: the next reference starts, if there is room, or one of those in flight completes. -/
inductive Step : Lookups → LookupTurn → Lookups → Prop
  | starts {ref queue inFlight found} (room : inFlight.length < maxLookups) :
      Step (running (ref :: queue) inFlight found) (.starts ref) (running queue (ref :: inFlight) found)
  | completes {queue inFlight ref rest found answer} (perm : inFlight.Perm (ref :: rest)) :
      Step (running queue inFlight found) (.completes ref answer) (after queue rest (enter found ref answer))

inductive Reaches (s : Lookups) : List LookupTurn → Lookups → Prop
  | refl : Reaches s [] s
  | snoc {t s' x s''} (h : Reaches s t s') (hx : Step s' x s'') : Reaches s (t ++ [x]) s''

end Lookups

/-! ## What was entered -/

@[simp] theorem started_append (t u : List LookupTurn) : started (t ++ u) = started t ++ started u :=
  List.filterMap_append ..

@[simp] theorem completed_append (t u : List LookupTurn) : completed (t ++ u) = completed t ++ completed u :=
  List.filterMap_append ..

theorem mem_completed {t : List LookupTurn} {ref : Reference} : ref ∈ completed t ↔ ∃ a, .completes ref a ∈ t := by
  refine List.mem_filterMap.trans ⟨?_, fun ⟨a, ha⟩ => ⟨_, ha, rfl⟩⟩
  rintro ⟨x, hx, h⟩
  cases x with
  | starts => cases h
  | completes ref' a =>
    cases h
    exact ⟨a, hx⟩

theorem demand_eq {α : Type} (kind : String) (k : ObjectKey) (r : Except Error (Option α)) :
    (∃ e, failure? kind k r = some e ∧ demand kind k r = .error e) ∨
    ∃ a, r = .ok (some a) ∧ failure? kind k r = none ∧ demand kind k r = .ok a := by
  rcases r with e | _ | a
  · exact .inl ⟨e, rfl, rfl⟩
  · exact .inl ⟨_, rfl, rfl⟩
  · exact .inr ⟨a, rfl, rfl, rfl⟩

def Resolved.object? (r : Resolved) : (ref : Reference) → (lookup ref).Answer
  | .secret k => r.secrets.get? k
  | .configMap k => r.configMaps.get? k

/-- **An answer is entered** unless it is a failure, and changes what is under its own key alone. -/
theorem enter_cases (found : Resolved) (ref : Reference) (answer : Except Error (lookup ref).Answer) :
    (∃ e, lookupError? ref answer = some e ∧ enter found ref answer = .error e) ∨
    ∃ found', lookupError? ref answer = none ∧ enter found ref answer = .ok found' ∧
      answer = .ok (found'.object? ref) ∧ ∀ ref', ref' ≠ ref → found'.object? ref' = found.object? ref' := by
  cases ref with
  | secret k =>
    rcases demand_eq "secret" k answer with ⟨e, he, hd⟩ | ⟨s, rfl, hn, hd⟩
    · exact .inl ⟨e, he, by simp only [enter, hd]; rfl⟩
    · refine .inr ⟨found.addSecret k s, hn, by simp only [enter, hd]; rfl, ?_, ?_⟩
      · exact congrArg Except.ok (Dict.get?_insert_self _ _ _).symm
      · rintro (k' | k') h
        · exact Dict.get?_insert_of_ne _ _ fun hk => h (hk ▸ rfl)
        · rfl
  | configMap k =>
    rcases demand_eq "configmap" k answer with ⟨e, he, hd⟩ | ⟨c, rfl, hn, hd⟩
    · exact .inl ⟨e, he, by simp only [enter, hd]; rfl⟩
    · refine .inr ⟨found.addConfigMap k c, hn, by simp only [enter, hd]; rfl, ?_, ?_⟩
      · exact congrArg Except.ok (Dict.get?_insert_self _ _ _).symm
      · rintro (k' | k') h
        · rfl
        · exact Dict.get?_insert_of_ne _ _ fun hk => h (hk ▸ rfl)

theorem Resolved.ext_object? {r r' : Resolved} (h : ∀ ref, r.object? ref = r'.object? ref) : r = r' := by
  obtain ⟨s, c⟩ := r
  obtain ⟨s', c'⟩ := r'
  have hs : s = s' := Dict.ext_get? fun k => h (.secret k)
  have hc : c = c' := Dict.ext_get? fun k => h (.configMap k)
  rw [hs, hc]

theorem lookupError?_absent (ref : Reference) : lookupError? ref (.ok (Resolved.empty.object? ref)) ≠ none := by
  cases ref <;> exact nofun

theorem References.nodup_toList (refs : References) : refs.toList.Nodup := by
  refine List.nodup_append.2 ⟨?_, ?_, ?_⟩
  · exact refs.secrets.nodup_keys.map fun _ _ => Reference.secret.inj
  · exact refs.configMaps.nodup_keys.map fun _ _ => Reference.configMap.inj
  · intro x hx y hy
    obtain ⟨k, -, rfl⟩ := List.mem_map.1 hx
    obtain ⟨k', -, rfl⟩ := List.mem_map.1 hy
    exact nofun

theorem References.secret_mem {refs : References} {k : ObjectKey} :
    .secret k ∈ refs.toList ↔ refs.secrets.contains k := by
  simp [References.toList, Dict.mem_keys]

theorem References.configMap_mem {refs : References} {k : ObjectKey} :
    .configMap k ∈ refs.toList ↔ refs.configMaps.contains k := by
  simp [References.toList, Dict.mem_keys]

/-! ## The account of a schedule -/

namespace Lookups

variable {refs queue inFlight : List Reference} {found : Resolved} {s s' s'' : Lookups} {t : List LookupTurn}

/-- What has started is a first part of the references, and each of it has completed or is in flight. -/
structure Balance (refs : List Reference) (t : List LookupTurn) (queue inFlight : List Reference) : Prop where
  inOrder : started t ++ queue = refs
  accounted : (completed t ++ inFlight).Perm (started t)
  bounded : inFlight.length ≤ maxLookups

namespace Balance

theorem nodup (h : Balance refs t queue inFlight) (hr : refs.Nodup) : (completed t ++ inFlight).Nodup :=
  h.accounted.nodup_iff.2 ((h.inOrder ▸ hr).sublist (List.sublist_append_left ..))

theorem starts {ref : Reference} (h : Balance refs t (ref :: queue) inFlight) (room : inFlight.length < maxLookups) :
    Balance refs (t ++ [.starts ref]) queue (ref :: inFlight) where
  inOrder := by
    rw [started_append, List.append_assoc]
    exact h.inOrder
  accounted := by
    have hp := List.perm_middle.trans ((h.accounted.cons ref).trans (List.perm_append_singleton ref _).symm)
    rw [started_append, completed_append]
    exact (List.append_nil (completed t)).symm ▸ hp
  bounded := room

theorem completes {ref : Reference} {rest : List Reference} (h : Balance refs t queue inFlight)
    (perm : inFlight.Perm (ref :: rest)) (answer : Except Error (lookup ref).Answer) :
    Balance refs (t ++ [.completes ref answer]) queue rest where
  inOrder := by
    rw [started_append]
    exact (List.append_nil (started t)).symm ▸ h.inOrder
  accounted := by
    have hp := (perm.append_left (completed t)).symm.trans h.accounted
    rw [started_append, completed_append, List.append_assoc]
    exact (List.append_nil (started t)).symm ▸ hp
  bounded := by
    have hl := perm.length_eq
    have hb := h.bounded
    rw [List.length_cons] at hl
    omega

end Balance

/-- The account while no look-up has failed: what was found is what the completed ones answered, and nothing else. -/
structure Account (refs : List Reference) (t : List LookupTurn) (queue inFlight : List Reference) (found : Resolved) :
    Prop extends Balance refs t queue inFlight where
  entered : ∀ ref answer, .completes ref answer ∈ t →
    lookupError? ref answer = none ∧ answer = .ok (found.object? ref)
  unasked : ∀ ref, ref ∉ completed t → found.object? ref = Resolved.empty.object? ref

/-- The account of a schedule that has come to a state.  A failure is the last turn. -/
def Accounts (refs : List Reference) (t : List LookupTurn) : Lookups → Prop
  | running queue inFlight found => (queue ≠ [] ∨ inFlight ≠ []) ∧ Account refs t queue inFlight found
  | ended (.ok found) => Account refs t [] [] found
  | ended (.error e) => ∃ t₁ queue inFlight ref answer, t = t₁ ++ [.completes ref answer] ∧
      Balance refs t queue inFlight ∧ lookupError? ref answer = some e ∧
      ∀ ref' answer', .completes ref' answer' ∈ t₁ → lookupError? ref' answer' = none

theorem Account.goOn (h : Account refs t queue inFlight found) : Accounts refs t (goOn queue inFlight found) := by
  unfold Lookups.goOn
  split
  · exact h
  · rename_i hne
    refine ⟨?_, h⟩
    by_cases hq : queue = []
    · exact .inr (hne hq)
    · exact .inl hq

theorem accounts_start (refs : List Reference) : Accounts refs [] (start refs) := by
  have hb : Balance refs [] refs [] := ⟨rfl, .refl _, Nat.zero_le _⟩
  exact Account.goOn ⟨hb, fun _ _ hm => (List.not_mem_nil hm).elim, fun _ _ => rfl⟩

theorem Account.completes {ref : Reference} {rest : List Reference} {answer : Except Error (lookup ref).Answer}
    {found' : Resolved} (h : Account refs t queue inFlight found) (perm : inFlight.Perm (ref :: rest))
    (hr : refs.Nodup) (he : lookupError? ref answer = none) (hans : answer = .ok (found'.object? ref))
    (hother : ∀ ref', ref' ≠ ref → found'.object? ref' = found.object? ref') :
    Account refs (t ++ [.completes ref answer]) queue rest found' := by
  have hnew : ref ∉ completed t := fun hc =>
    (List.nodup_append.1 (h.nodup hr)).2.2 _ hc _ (perm.mem_iff.2 List.mem_cons_self) rfl
  refine ⟨h.toBalance.completes perm answer, ?_, ?_⟩
  · intro ref' answer' hm
    rcases List.mem_append.1 hm with hm | hm
    · have hne : ref' ≠ ref := fun heq => hnew (heq ▸ mem_completed.2 ⟨answer', hm⟩)
      rw [hother _ hne]
      exact h.entered _ _ hm
    · cases List.mem_singleton.1 hm
      exact ⟨he, hans⟩
  · intro ref' hn
    rw [completed_append, List.mem_append, not_or] at hn
    rw [hother _ fun heq => hn.2 (heq ▸ List.mem_cons_self)]
    exact h.unasked ref' hn.1

/-- **One turn keeps the account.** -/
theorem Step.accounts {x : LookupTurn} (hx : Step s x s') (hr : refs.Nodup) (h : Accounts refs t s) :
    Accounts refs (t ++ [x]) s' := by
  cases hx with
  | @starts ref queue inFlight found room =>
    obtain ⟨-, h⟩ := h
    refine ⟨.inr nofun, h.toBalance.starts room, ?_, ?_⟩
    · intro ref' answer hm
      rcases List.mem_append.1 hm with hm | hm
      · exact h.entered _ _ hm
      · cases List.mem_singleton.1 hm
    · exact fun ref' hn => h.unasked ref' fun hm => hn (completed_append .. ▸ List.mem_append_left _ hm)
  | @completes queue inFlight ref rest found answer perm =>
    obtain ⟨-, h⟩ := h
    rcases enter_cases found ref answer with ⟨e, he, hen⟩ | ⟨found', he, hen, hans, hother⟩
    · rw [hen]
      have hfound : ∀ ref' answer', .completes ref' answer' ∈ t → lookupError? ref' answer' = none :=
        fun _ _ hm => (h.entered _ _ hm).1
      exact ⟨t, queue, rest, ref, answer, rfl, h.toBalance.completes perm answer, he, hfound⟩
    · rw [hen]
      exact (h.completes perm hr he hans hother).goOn

theorem Reaches.accounts (h : Reaches (start refs) t s) (hr : refs.Nodup) : Accounts refs t s := by
  induction h with
  | refl => exact accounts_start refs
  | snoc _ hx ih => exact hx.accounts hr ih

theorem Accounts.balance (h : Accounts refs t s) : ∃ queue inFlight, Balance refs t queue inFlight := by
  match s, h with
  | running queue inFlight _, h => exact ⟨queue, inFlight, h.2.toBalance⟩
  | ended (.ok _), h => exact ⟨[], [], h.toBalance⟩
  | ended (.error _), ⟨_, queue, inFlight, _, _, _, hb, _⟩ => exact ⟨queue, inFlight, hb⟩

theorem Accounts.failed {e : Error} (h : Accounts refs t (ended (.error e))) :
    ∃ t₁ ref answer, t = t₁ ++ [.completes ref answer] ∧ ref ∈ refs ∧ lookupError? ref answer = some e := by
  obtain ⟨t₁, queue, inFlight, ref, answer, rfl, hb, he, -⟩ := h
  have hc : ref ∈ completed (t₁ ++ [.completes ref answer]) :=
    mem_completed.2 ⟨answer, List.mem_append_right _ List.mem_cons_self⟩
  refine ⟨t₁, ref, answer, rfl, ?_, he⟩
  rw [← hb.inOrder]
  exact List.mem_append_left _ (hb.accounted.mem_iff.1 (List.mem_append_left _ hc))

/-! ## Parts of schedules -/

theorem Reaches.split {t₁ t₂ : List LookupTurn} (h : Reaches s (t₁ ++ t₂) s') :
    ∃ x, Reaches s t₁ x ∧ Reaches x t₂ s' := by
  generalize ht : t₁ ++ t₂ = t at h
  induction h generalizing t₂ with
  | refl =>
    obtain ⟨rfl, rfl⟩ := List.append_eq_nil_iff.1 ht
    exact ⟨_, .refl, .refl⟩
  | @snoc t s' x s'' h hx ih =>
    rcases List.eq_nil_or_concat t₂ with rfl | ⟨u, y, rfl⟩
    · rw [List.append_nil] at ht
      exact ⟨s'', ht ▸ .snoc h hx, .refl⟩
    · rw [List.concat_eq_append, ← List.append_assoc] at ht
      obtain ⟨rfl, hy⟩ := List.append_inj' ht rfl
      cases hy
      obtain ⟨z, hz, hz'⟩ := ih rfl
      exact ⟨z, hz, List.concat_eq_append ▸ .snoc hz' hx⟩

theorem Reaches.of_ended {r : Except Error Resolved} (h : Reaches (ended r) t s) : t = [] ∧ s = ended r := by
  induction h with
  | refl => exact ⟨rfl, rfl⟩
  | snoc _ hx ih =>
    obtain ⟨rfl, rfl⟩ := ih
    cases hx

/-- **The first failure is the end.** -/
theorem Reaches.failFast {t₁ t₂ : List LookupTurn} {ref : Reference} {answer : Except Error (lookup ref).Answer}
    {e : Error} (h : Reaches (start refs) (t₁ ++ .completes ref answer :: t₂) s) (hr : refs.Nodup)
    (he : lookupError? ref answer = some e) : t₂ = [] ∧ s = ended (.error e) := by
  rw [List.append_cons] at h
  obtain ⟨x, hx, hs⟩ := h.split
  have hmem : .completes ref answer ∈ t₁ ++ [.completes ref answer] := List.mem_append_right _ List.mem_cons_self
  have hacc := hx.accounts hr
  match x, hacc with
  | running .., ⟨_, hacc⟩ => exact absurd (hacc.entered _ _ hmem).1 (by simp [he])
  | ended (.ok _), hacc => exact absurd (hacc.entered _ _ hmem).1 (by simp [he])
  | ended (.error e'), ⟨t', _, _, ref', answer', heq, _, he', _⟩ =>
    cases (List.append_inj' heq rfl).2
    rw [he] at he'
    cases he'
    exact hs.of_ended

end Lookups

/-! ## Every schedule -/

theorem length_eq_started_add_completed : ∀ t : List LookupTurn, t.length = (started t).length + (completed t).length
  | [] => rfl
  | .starts ref :: t => by
    have ih := length_eq_started_add_completed t
    have hs : started (.starts ref :: t) = ref :: started t := rfl
    have hc : completed (.starts ref :: t) = completed t := rfl
    rw [hs, hc, List.length_cons, List.length_cons]
    omega
  | .completes ref a :: t => by
    have ih := length_eq_started_add_completed t
    have hs : started (.completes ref a :: t) = started t := rfl
    have hc : completed (.completes ref a :: t) = ref :: completed t := rfl
    rw [hs, hc, List.length_cons, List.length_cons]
    omega

abbrev Answers := (ref : Reference) → Except Error (lookup ref).Answer

def Answers.Give (out : Answers) (t : List LookupTurn) : Prop :=
  ∀ ref answer, .completes ref answer ∈ t → answer = out ref

namespace Answers.Give

variable {out : Answers} {t : List LookupTurn}

theorem nil (out : Answers) : out.Give [] := fun _ _ hm => (List.not_mem_nil hm).elim

theorem starts (ref : Reference) (h : out.Give t) : out.Give (.starts ref :: t) := by
  intro ref' answer hm
  rcases List.mem_cons.1 hm with hm | hm
  · cases hm
  · exact h _ _ hm

theorem completes (ref : Reference) (h : out.Give t) : out.Give (.completes ref (out ref) :: t) := by
  intro ref' answer hm
  rcases List.mem_cons.1 hm with hm | hm
  · cases hm
    rfl
  · exact h _ _ hm

end Answers.Give

/-- Each of the references was looked up, once, and the objects found are what was answered, under the same keys. -/
structure Fetched (out : Answers) (refs : References) (t : List LookupTurn) (r : Resolved) : Prop where
  started_eq : started t = refs.toList
  completed_perm : (completed t).Perm refs.toList
  secretKeys : r.secrets.keys = refs.secrets.keys
  configMapKeys : r.configMaps.keys = refs.configMaps.keys
  secret : ∀ k, refs.secrets.contains k → out (.secret k) = .ok (r.secrets.get? k)
  configMap : ∀ k, refs.configMaps.contains k → out (.configMap k) = .ok (r.configMaps.get? k)

structure Orderly (out : Answers) (refs : References) (t : List LookupTurn) (s : Lookups) : Prop where
  /-- There are never more than ten in flight. -/
  bounded : ∀ t₁ t₂, t = t₁ ++ t₂ → (started t₁).length ≤ (completed t₁).length + 10
  completed_started : ∀ t₁ t₂, t = t₁ ++ t₂ → (completed t₁).Subperm (started t₁)
  inOrder : started t <+: refs.toList
  once : (started t).Nodup
  fetched : ∀ r, s = .ended (.ok r) → Fetched out refs t r
  /-- If one schedule succeeds, all schedules that end do, with the same objects. -/
  same : ∀ r, s = .ended (.ok r) →
    ∀ u x, Lookups.Reaches (.start refs.toList) u (.ended x) → out.Give u → x = .ok r
  failFast : ∀ t₁ ref answer t₂ e, t = t₁ ++ .completes ref answer :: t₂ → lookupError? ref answer = some e →
    t₂ = [] ∧ s = .ended (.error e)
  failed : ∀ e, s = .ended (.error e) → ∃ t₁ ref, t = t₁ ++ [.completes ref (out ref)] ∧
    lookupError? ref (out ref) = some e
  atRest : ∀ r, s = .ended r → ∀ x s', ¬ Lookups.Step s x s'
  /-- A schedule that has not ended can go on, but not for ever. -/
  progress : (∃ r, s = .ended r) ∨ ∃ x s', Lookups.Step s x s' ∧ out.Give [x]
  finite : t.length ≤ 2 * refs.toList.length

namespace Lookups

variable {refs : References} {out : Answers} {s : Lookups} {t u : List LookupTurn} {r : Resolved}

theorem Account.completed_perm {refs : List Reference} (h : Account refs t [] [] r) : (completed t).Perm refs := by
  have hp := h.accounted
  rw [List.append_nil] at hp
  rwa [← h.inOrder, List.append_nil]

theorem Account.answered {refs : List Reference} (h : Account refs t [] [] r) {ref : Reference} (hm : ref ∈ refs) :
    .completes ref (.ok (r.object? ref)) ∈ t ∧ lookupError? ref (.ok (r.object? ref)) = none := by
  obtain ⟨answer, ha⟩ := mem_completed.1 (h.completed_perm.mem_iff.2 hm)
  obtain ⟨he, rfl⟩ := h.entered _ _ ha
  exact ⟨ha, he⟩

theorem Account.answer {refs : List Reference} (h : Account refs t [] [] r) (hg : out.Give t) {ref : Reference}
    (hm : ref ∈ refs) : lookupError? ref (out ref) = none ∧ out ref = .ok (r.object? ref) := by
  obtain ⟨ha, he⟩ := h.answered hm
  rw [← hg _ _ ha]
  exact ⟨he, rfl⟩

theorem Account.absent_iff {refs : List Reference} (h : Account refs t [] [] r) (ref : Reference) :
    r.object? ref = Resolved.empty.object? ref ↔ ref ∉ refs := by
  constructor
  · intro hn hm
    exact lookupError?_absent ref (hn ▸ (h.answered hm).2)
  · exact fun hm => h.unasked ref fun hc => hm (h.completed_perm.mem_iff.1 hc)

theorem Account.keys (h : Account refs.toList t [] [] r) :
    r.secrets.keys = refs.secrets.keys ∧ r.configMaps.keys = refs.configMaps.keys := by
  refine ⟨Dict.keys_eq_iff.2 fun k => ?_, Dict.keys_eq_iff.2 fun k => ?_⟩
  · have hk : r.secrets.get? k = none ↔ _ := h.absent_iff (.secret k)
    rw [References.secret_mem] at hk
    rw [Bool.eq_iff_iff, ← not_iff_not, ← hk, Dict.contains, Option.not_isSome_iff_eq_none]
  · have hk : r.configMaps.get? k = none ↔ _ := h.absent_iff (.configMap k)
    rw [References.configMap_mem] at hk
    rw [Bool.eq_iff_iff, ← not_iff_not, ← hk, Dict.contains, Option.not_isSome_iff_eq_none]

theorem Account.fetched (h : Account refs.toList t [] [] r) (hg : out.Give t) : Fetched out refs t r where
  started_eq := by
    have hs := h.inOrder
    rwa [List.append_nil] at hs
  completed_perm := h.completed_perm
  secretKeys := h.keys.1
  configMapKeys := h.keys.2
  secret k hk := (h.answer hg (References.secret_mem.2 hk)).2
  configMap k hk := (h.answer hg (References.configMap_mem.2 hk)).2

/-- Schedules that both end come to the same if one of them succeeds: nothing can have failed in the other. -/
theorem Account.same {x : Except Error Resolved} (h : Account refs.toList t [] [] r) (hg : out.Give t)
    (hu : Accounts refs.toList u (ended x)) (hgu : out.Give u) : x = .ok r := by
  cases x with
  | error e =>
    obtain ⟨u₁, ref, answer, rfl, hm, he⟩ := hu.failed
    rw [hgu _ _ (List.mem_append_right _ List.mem_cons_self), (h.answer hg hm).1] at he
    cases he
  | ok r' =>
    have hu : Account refs.toList u [] [] r' := hu
    refine congrArg Except.ok (Resolved.ext_object? fun ref => ?_)
    by_cases hm : ref ∈ refs.toList
    · exact Except.ok.inj ((hu.answer hgu hm).2.symm.trans (h.answer hg hm).2)
    · rw [(hu.absent_iff ref).2 hm, (h.absent_iff ref).2 hm]

theorem Accounts.progress (out : Answers) {refs : List Reference} (h : Accounts refs t s) :
    (∃ r, s = ended r) ∨ ∃ x s', Step s x s' ∧ out.Give [x] := by
  match s, h with
  | ended r, _ => exact .inl ⟨r, rfl⟩
  | running queue (ref :: rest) found, _ =>
    exact .inr ⟨.completes ref (out ref), _, .completes (.refl _), .completes ref (.nil out)⟩
  | running (ref :: queue) [] found, _ =>
    exact .inr ⟨.starts ref, _, .starts (by decide), .starts ref (.nil out)⟩
  | running [] [] found, ⟨h, _⟩ => exact (h.elim (· rfl) (· rfl)).elim

/-- **Every schedule is orderly.** -/
theorem orderly (h : Reaches (start refs.toList) t s) (hg : out.Give t) : Orderly out refs t s := by
  have hr := refs.nodup_toList
  have hacc := h.accounts hr
  obtain ⟨queue, inFlight, hb⟩ := hacc.balance
  have part {t₁ t₂} (ht : t = t₁ ++ t₂) : ∃ queue inFlight, Balance refs.toList t₁ queue inFlight := by
    obtain ⟨x, hx, -⟩ := (ht ▸ h).split
    exact (hx.accounts hr).balance
  refine ⟨?_, ?_, ⟨queue, hb.inOrder⟩, ?_, ?_, ?_, ?_, ?_, ?_, hacc.progress out, ?_⟩
  · intro t₁ t₂ ht
    obtain ⟨q, f, hb⟩ := part ht
    have hl := hb.accounted.length_eq
    have hf : f.length ≤ 10 := hb.bounded
    rw [List.length_append] at hl
    omega
  · intro t₁ t₂ ht
    obtain ⟨q, f, hb⟩ := part ht
    exact (List.sublist_append_left _ f).subperm.trans hb.accounted.subperm
  · exact (hb.inOrder ▸ hr).sublist (List.sublist_append_left ..)
  · rintro r rfl
    exact Account.fetched hacc hg
  · rintro r rfl u x hu hgu
    exact Account.same hacc hg (hu.accounts hr) hgu
  · rintro t₁ ref answer t₂ e rfl he
    exact h.failFast hr he
  · rintro e rfl
    obtain ⟨t₁, ref, answer, rfl, -, he⟩ := hacc.failed
    obtain rfl := hg _ _ (List.mem_append_right _ List.mem_cons_self)
    exact ⟨t₁, ref, rfl, he⟩
  · rintro r rfl x s' hx
    cases hx
  · have hs := congrArg List.length hb.inOrder
    have hc := hb.accounted.length_eq
    rw [List.length_append] at hs hc
    rw [length_eq_started_add_completed]
    omega

end Lookups

/-! Two `Secret`s and a `ConfigMap`: the second `Secret` completes first, and the `ConfigMap` takes its place.  If there
is no such `ConfigMap`, the first `Secret` is never heard of. -/

namespace Trio

open Lookups

def a : Reference := .secret ⟨"default", "a"⟩
def b : Reference := .secret ⟨"default", "b"⟩
def c : Reference := .configMap ⟨"default", "c"⟩

def refs : References := ⟨.ofKeys [⟨"default", "a"⟩, ⟨"default", "b"⟩], .ofKeys [⟨"default", "c"⟩]⟩

def out (found : Bool) : Answers
  | .secret _ => (.ok (some ⟨.empty, none, none, .empty⟩) : Except Error (Option Secret))
  | .configMap _ => (.ok (if found then some ⟨.empty, none, .empty⟩ else none) : Except Error (Option ConfigMap))

def done (found : Bool) (ref : Reference) : LookupTurn := .completes ref (out found ref)

theorem reaches_two (found : Bool) :
    ∃ r, Reaches (start refs.toList) [.starts a, .starts b, done found b, .starts c] (running [] [c, a] r) := by
  have hl : start refs.toList = running [a, b, c] [] .empty := by
    have hr : refs.toList = [a, b, c] := by decide
    rw [hr]
    rfl
  have h₀ : Reaches (start refs.toList) [] (running [a, b, c] [] .empty) := hl ▸ .refl
  have h₂ := (h₀.snoc (.starts (by decide))).snoc (.starts (by decide))
  have h₃ : Reaches _ ([.starts a, .starts b] ++ [done found b]) (running [c] [a] _) := h₂.snoc (.completes (.refl _))
  exact ⟨_, h₃.snoc (.starts (by decide))⟩

theorem orderly_trio :
    (∃ t r, Reaches (start refs.toList) t (ended (.ok r)) ∧ completed t = [b, c, a] ∧
      Orderly (out true) refs t (ended (.ok r))) ∧
    ∃ t e, Reaches (start refs.toList) t (ended (.error e)) ∧ completed t = [b, c] ∧
      Orderly (out false) refs t (ended (.error e)) := by
  have give (found : Bool) (t : List LookupTurn) (h : (out found).Give t) :
      (out found).Give ([.starts a, .starts b, done found b, .starts c, done found c] ++ t) :=
    ((((h.completes c).starts c).completes b).starts b).starts a
  constructor
  · obtain ⟨r, h⟩ := reaches_two true
    have h' : Reaches _ (_ ++ [done true c]) (running [] [a] _) := h.snoc (.completes (.refl _))
    have h'' : Reaches _ (_ ++ [done true a]) (ended (.ok _)) := h'.snoc (.completes (.refl _))
    exact ⟨_, _, h'', rfl, orderly h'' (give true [done true a] (.completes a (.nil _)))⟩
  · obtain ⟨r, h⟩ := reaches_two false
    have h' : Reaches _ (_ ++ [done false c]) (ended (.error _)) := h.snoc (.completes (.refl _))
    exact ⟨_, _, h', rfl, orderly h' (give false [] (.nil _))⟩

end Trio

end SpinFleet
