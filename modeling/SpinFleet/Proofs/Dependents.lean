import SpinFleet.Proofs.Fleet
import SpinFleet.Proofs.Generated
/-!
# Dependents — whether an app keeps its executor

An executor that an app names must not disappear.  A pass lets an executor go only if it has been told that no app
names it, and the webhook lets an app in only if its executor is there.  But the pass asks first and lets go later, and
the webhook does not mind that the executor is being deleted.  So an app that is admitted between the two calls of the
pass loses its executor.  That is the only way: `Fleet.integrity_iff` says that every app keeps its executor in all of a
run exactly if no pass was overtaken so.

What is kept by every deed (`Fleet.Sound`) is that every executor is held by somebody, and of each pass how far it has
come: a pass that is about to let an executor go has listed the apps, and the apps that name the executor now were all
admitted since then.
-/
namespace SpinFleet

namespace Cluster

variable {w w' : Cluster} {k : ObjectKey} {e e' : Executor}

/-- Every app names an executor that exists in its namespace. -/
def Intact (w : Cluster) : Prop := ∀ k a, w.apps.get? k = some a → ∃ e, w.executors.get? a.executorKey = some e

/-- Every executor carries the operator's finalizer. -/
def Guarded (w : Cluster) : Prop := ∀ k e, w.executors.get? k = some e → e.hasFinalizer = true

def Names (w : Cluster) (k : ObjectKey) : Prop := ∃ k' a, w.apps.get? k' = some a ∧ a.executorKey = k

def Held (w : Cluster) : Prop := ∀ k e, w.executors.get? k = some e → e.metadata.finalizerList ≠ []

/-- Every executor that is there was there before, and is being deleted if it was. -/
def Follows (w w' : Cluster) : Prop := ∀ k e', w'.executors.get? k = some e' →
  ∃ e, w.executors.get? k = some e ∧ (e.metadata.isDeleting = true → e'.metadata.isDeleting = true)

theorem Guarded.held (h : w.Guarded) : w.Held := fun k e he hnil => by
  have hfin := h k e he
  rw [Executor.hasFinalizer, hnil] at hfin
  cases hfin

theorem Follows.of_eq (h : w'.executors = w.executors) : Follows w w' := fun _ e' he' => ⟨e', h ▸ he', id⟩

theorem Follows.insert (he : w.executors.get? k = some e)
    (hd : e.metadata.isDeleting = true → e'.metadata.isDeleting = true) :
    Follows w { w with executors := w.executors.insert k e' } := fun k' x hx => by
  by_cases hk : k' = k
  · subst hk
    cases (Dict.get?_insert_self ..).symm.trans hx
    exact ⟨e, he, hd⟩
  · exact ⟨x, (Dict.get?_insert_of_ne _ _ hk).symm.trans hx, id⟩

theorem get?_of_erase {α : Type} {d : Dict ObjectKey α} {k k' : ObjectKey} {a : α}
    (h : (d.erase k).get? k' = some a) : d.get? k' = some a :=
  Option.eq_some_of_filter_eq_some ((Dict.get?_filter ..).symm.trans h)

theorem Follows.erase : Follows w { w with executors := w.executors.erase k } :=
  fun _ e he => ⟨e, get?_of_erase he, id⟩

theorem Follows.dooms (h : Follows w w') (hk : Fleet.Dooms w k) : Fleet.Dooms w' k := fun e' he' => by
  obtain ⟨e, he, hd⟩ := h k e' he'
  exact hd (hk e he)

theorem Held.insert (h : w.Held) (hfs : e'.metadata.finalizerList ≠ []) :
    Held { w with executors := w.executors.insert k e' } := fun k' x hx => by
  by_cases hk : k' = k
  · subst hk
    cases (Dict.get?_insert_self ..).symm.trans hx
    exact hfs
  · exact h k' x ((Dict.get?_insert_of_ne _ _ hk).symm.trans hx)

theorem Held.erase (h : w.Held) : Held { w with executors := w.executors.erase k } :=
  fun k' e he => h k' e (get?_of_erase he)

theorem Intact.of_stays (h : w.Intact) (happs : ∀ k a, w'.apps.get? k = some a → w.apps.get? k = some a)
    (hstays : ∀ k e, w.executors.get? k = some e → ∃ e', w'.executors.get? k = some e') : w'.Intact := fun k a ha => by
  obtain ⟨e, he⟩ := h k a (happs k a ha)
  exact hstays _ e he

theorem stays_insert (k : ObjectKey) (e' : Executor) : ∀ k' e, w.executors.get? k' = some e →
    ∃ e'', (w.executors.insert k e').get? k' = some e'' := fun k' e he => by
  by_cases hk : k' = k
  · subst hk
    exact ⟨e', Dict.get?_insert_self ..⟩
  · exact ⟨e, (Dict.get?_insert_of_ne _ _ hk).trans he⟩

/-! ## What deeds do to executors -/

theorem isDeleting_doomed (e : Executor) (time : Instant) : (doomed e time).metadata.isDeleting = true := by
  show (e.metadata.deletionTimestamp <|> some time).isSome = true
  cases e.metadata.deletionTimestamp <;> rfl

/-- **An executor that is held outlives its deletion.** -/
theorem Held.deleteExecutor (h : w.Held) (time : Instant) :
    w.deleteExecutor k time = w ∨ ∃ e, w.executors.get? k = some e ∧
      w.deleteExecutor k time = { w with executors := w.executors.insert k (doomed e time) } := by
  unfold Cluster.deleteExecutor
  cases he : w.executors.get? k with
  | none => exact .inl rfl
  | some e =>
    refine .inr ⟨e, rfl, if_neg fun hnil => ?_⟩
    exact h k e he (List.isEmpty_iff.mp hnil)

def refinalized (w : Cluster) (k : ObjectKey) (e : Executor) (fs : List String) : Cluster :=
  { w with executors := w.executors.insert k (withFinalizers e fs) }

theorem addFinalizer_cases (n ns : String) : (w.perform (.addFinalizer n ns)).cluster = w ∨
    ∃ e, w.executors.get? ⟨ns, n⟩ = some e ∧ (w.perform (.addFinalizer n ns)).cluster =
      w.refinalized ⟨ns, n⟩ e (e.metadata.finalizerList ++ [Executor.finalizer]) := by
  unfold perform
  dsimp only
  cases he : w.executors.get? ⟨ns, n⟩ with
  | none => exact .inl rfl
  | some e => exact .inr ⟨e, rfl, rfl⟩

/-- **Letting an executor go** removes it if it is being deleted and nobody else holds it. -/
theorem removeFinalizer_cases (n ns : String) :
    w.executors.get? ⟨ns, n⟩ = none ∧ (w.perform (.removeFinalizer n ns)).cluster = w ∨
    ∃ e, w.executors.get? ⟨ns, n⟩ = some e ∧
      (e.metadata.isDeleting = true ∧ Executor.others e.metadata.finalizerList = [] ∧
          (w.perform (.removeFinalizer n ns)).cluster = { w with executors := w.executors.erase ⟨ns, n⟩ } ∨
        (e.metadata.isDeleting = true → Executor.others e.metadata.finalizerList ≠ []) ∧
          (w.perform (.removeFinalizer n ns)).cluster =
            w.refinalized ⟨ns, n⟩ e (Executor.others e.metadata.finalizerList)) := by
  unfold perform
  dsimp only
  cases he : w.executors.get? ⟨ns, n⟩ with
  | none => exact .inl ⟨rfl, rfl⟩
  | some e =>
    refine .inr ⟨e, rfl, ?_⟩
    dsimp only [release]
    split
    · rename_i h
      obtain ⟨hnil, hd⟩ := Bool.and_eq_true_iff.mp h
      exact .inl ⟨hd, List.isEmpty_iff.mp hnil, rfl⟩
    · rename_i h
      exact .inr ⟨fun hd hnil => h (Bool.and_eq_true_iff.mpr ⟨List.isEmpty_iff.mpr hnil, hd⟩), rfl⟩

end Cluster

namespace Fleet

open Cluster

variable {w : Cluster} {s₀ s s' : Fleet} {t : List Deed} {d : Deed} {k : ObjectKey} {e : Executor} {i : Nat}
  {c : Call}

/-- A pass has found that no app names an executor.  Apps that name it now were admitted since then. -/
structure Listed (s₀ : Fleet) (t : List Deed) (w : Cluster) (i : Nat) (k : ObjectKey) (before between : List Deed)
    (s₁ : Fleet) : Prop where
  split : t = before ++ .acted i (.listApps k.ns) :: between
  listing : Run s₀ before s₁
  unnamed : ¬ s₁.cluster.Names k
  same : ∀ e, .started i e ∉ between
  admitted : ∀ k' a, w.apps.get? k' = some a → a.executorKey = k → .admitted a ∈ between

/-- How far a pass has come after some deeds.  It will do no more than take hold of an executor, or it is about to list
the apps, or it has listed them and is about to let the executor go. -/
inductive Stage (s₀ : Fleet) (t : List Deed) (w : Cluster) (i : Nat) : Pass (Except Error Action) → Prop
  | quiet {p} (h : p.Calls Executor.Holds) : Stage s₀ t w i p
  | listing {e : Executor} (hd : Dooms w e.metadata.key) : Stage s₀ t w i e.listing
  | releasing {e : Executor} {before between s₁} (hd : Dooms w e.metadata.key)
      (hl : Listed s₀ t w i e.metadata.key before between s₁) : Stage s₀ t w i e.releasing

structure Sound (s₀ : Fleet) (t : List Deed) (s : Fleet) : Prop where
  keyed : Dict.Keyed (fun a : App => a.metadata.key) s.cluster.apps
  held : s.cluster.Held
  stage : ∀ i, Stage s₀ t s.cluster i (s.passes i)

/-- A pass was overtaken.  It had found that no app names an executor, then an app that names it was admitted, and then
the pass let the executor go, which was being deleted and held by nobody else. -/
inductive Overtaken (s₀ : Fleet) : List Deed → Prop
  | intro {i : Nat} {k : ObjectKey} {before between after : List Deed} {s₁ s₂ s₃ : Fleet} {a : App} {e : Executor}
      (listing : Run s₀ before s₁) (unnamed : ¬ s₁.cluster.Names k) (same : ∀ e, .started i e ∉ between)
      (admission : .admitted a ∈ between) (names : a.executorKey = k)
      (waiting : Run s₀ (before ++ .acted i (.listApps k.ns) :: between) s₂)
      (stays : s₂.cluster.apps.get? a.metadata.key = some a) (found : s₂.cluster.executors.get? k = some e)
      (deleting : e.metadata.isDeleting = true) (last : Executor.others e.metadata.finalizerList = [])
      (release : Step s₂ (.acted i (.removeFinalizer k.name k.ns)) s₃) :
      Overtaken s₀ (before ++ .acted i (.listApps k.ns) :: between ++ .acted i (.removeFinalizer k.name k.ns) :: after)

/-! ### What is kept -/

theorem Listed.snoc {w' : Cluster} {before between : List Deed} {s₁ : Fleet}
    (h : Listed s₀ t w i k before between s₁) (hd : ∀ e, d ≠ .started i e)
    (happs : ∀ k a, w'.apps.get? k = some a → w.apps.get? k = some a ∨ d = .admitted a) :
    Listed s₀ (t ++ [d]) w' i k before (between ++ [d]) s₁ where
  split := by rw [h.split, List.append_assoc, List.cons_append]
  listing := h.listing
  unnamed := h.unnamed
  same e hm := by
    rcases List.mem_append.mp hm with hm | hm
    · exact h.same e hm
    · exact hd e (List.mem_singleton.mp hm).symm
  admitted k' a ha hk := by
    rcases happs k' a ha with ha | rfl
    · exact List.mem_append_left _ (h.admitted k' a ha hk)
    · exact List.mem_append_right _ List.mem_cons_self

/-- **Passes that a deed does not move** stay where they are. -/
theorem Stage.snoc {w' : Cluster} {p : Pass (Except Error Action)} (h : Stage s₀ t w i p)
    (hd : ∀ e, d ≠ .started i e) (hf : Follows w w')
    (happs : ∀ k a, w'.apps.get? k = some a → w.apps.get? k = some a ∨ d = .admitted a) :
    Stage s₀ (t ++ [d]) w' i p := by
  cases h with
  | quiet h => exact .quiet h
  | listing hk => exact .listing (hf.dooms hk)
  | releasing hk hl => exact .releasing (hf.dooms hk) (hl.snoc hd happs)

theorem Sound.snoc (h : Sound s₀ t s) (hkeyed : Dict.Keyed (fun a : App => a.metadata.key) s'.cluster.apps)
    (hheld : s'.cluster.Held) (hf : Follows s.cluster s'.cluster)
    (happs : ∀ k a, s'.cluster.apps.get? k = some a → s.cluster.apps.get? k = some a ∨ d = .admitted a)
    (hpasses : ∀ j, (s'.passes j = s.passes j ∧ ∀ e, d ≠ .started j e) ∨
      Stage s₀ (t ++ [d]) s'.cluster j (s'.passes j)) : Sound s₀ (t ++ [d]) s' where
  keyed := hkeyed
  held := hheld
  stage j := by
    rcases hpasses j with ⟨hp, hd⟩ | hp
    · rw [hp]
      exact (h.stage j).snoc hd hf happs
    · exact hp

theorem Sound.outside {w' : Cluster} (h : Sound s₀ t s) (hd : ∀ i e, d ≠ .started i e)
    (hkeyed : Dict.Keyed (fun a : App => a.metadata.key) w'.apps) (hheld : w'.Held) (hf : Follows s.cluster w')
    (happs : ∀ k a, w'.apps.get? k = some a → s.cluster.apps.get? k = some a ∨ d = .admitted a) :
    Sound s₀ (t ++ [d]) { s with cluster := w' } :=
  h.snoc hkeyed hheld hf happs fun j => .inl ⟨rfl, hd j⟩

theorem advance_passes {p : Pass (Except Error Action)} (hp : Stage s₀ t w i p)
    (hd : ∀ j e, j ≠ i → d ≠ .started j e) (j : Nat) :
    ((s.advance i p).passes j = s.passes j ∧ ∀ e, d ≠ .started j e) ∨ Stage s₀ t w j ((s.advance i p).passes j) := by
  by_cases hj : j = i
  · subst hj
    refine .inr ?_
    show Stage s₀ t w j (if j = j then p else _)
    rwa [if_pos rfl]
  · exact .inl ⟨if_neg hj, fun e => hd j e hj⟩

/-- **What the call of a pass does**: it keeps the apps, no executor gets out of hand, and the pass goes on. -/
theorem Sound.act (h : Sound s₀ t s) (hrun : Run s₀ t s) {next : Except Error c.Answer → Pass (Except Error Action)}
    (hp : Stage s₀ t s.cluster i (.call c next)) :
    (s.cluster.perform c).cluster.apps = s.cluster.apps ∧ Follows s.cluster (s.cluster.perform c).cluster ∧
      (s.cluster.perform c).cluster.Held ∧
      Stage s₀ (t ++ [.acted i c]) (s.cluster.perform c).cluster i (next (s.cluster.perform c).answer) := by
  generalize hq : Pass.call c next = p at hp
  -- how far the pass has come says which call it is
  cases hp with
  | quiet hcalls =>
    subst hq
    obtain ⟨⟨n, ns, rfl⟩, hnext⟩ := hcalls
    rcases addFinalizer_cases (w := s.cluster) n ns with hw | ⟨e, he, hw⟩
    · rw [hw]
      exact ⟨rfl, .of_eq rfl, h.held, .quiet (hnext _)⟩
    · rw [hw]
      refine ⟨rfl, .insert he id, h.held.insert ?_, .quiet (hnext _)⟩
      exact List.append_ne_nil_of_right_ne_nil _ (List.cons_ne_nil _ _)
  | @listing e hd =>
    cases hq
    refine ⟨rfl, .of_eq rfl, h.held, ?_⟩
    show Stage _ _ s.cluster _ (e.deciding (within e.ns s.cluster.apps))
    rcases e.deciding_cases (within e.ns s.cluster.apps) with hquiet | ⟨hnone, hrel⟩
    · exact .quiet hquiet
    · have hunnamed : ¬ s.cluster.Names e.metadata.key := by
        rintro ⟨k, a, ha, hk⟩
        have hns : k.ns = e.ns := by
          rw [← h.keyed k a ha]
          exact congrArg ObjectKey.ns hk
        exact hnone a (mem_within.mpr ⟨k, ha, hns⟩) (congrArg ObjectKey.name hk)
      have hl : Listed s₀ (t ++ [.acted i (.listApps e.ns)]) s.cluster i e.metadata.key t [] s :=
        ⟨rfl, hrun, hunnamed, fun _ => List.not_mem_nil, fun k a ha hk => absurd ⟨k, a, ha, hk⟩ hunnamed⟩
      rw [hrel]
      exact .releasing hd hl
  | @releasing e _ _ _ hd _ =>
    cases hq
    rcases removeFinalizer_cases (w := s.cluster) e.name e.ns with ⟨-, hw⟩ | ⟨e₀, he₀, ⟨-, -, hw⟩ | ⟨hothers, hw⟩⟩
    · rw [hw]
      exact ⟨rfl, .of_eq rfl, h.held, .quiet trivial⟩
    · rw [hw]
      exact ⟨rfl, .erase, h.held.erase, .quiet trivial⟩
    · rw [hw]
      exact ⟨rfl, .insert he₀ id, h.held.insert (hothers (hd e₀ he₀)), .quiet trivial⟩

theorem Stage.fail {next : Except Error c.Answer → Pass (Except Error Action)} (h : Stage s₀ t w i (.call c next))
    (err : Error) : (next (.error err)).Calls Executor.Holds := by
  generalize hq : Pass.call c next = p at h
  cases h with
  | quiet h =>
    subst hq
    exact h.2 _
  | listing =>
    cases hq
    trivial
  | releasing =>
    cases hq
    trivial

theorem Stage.publish {event : Event} {next : Pass (Except Error Action)} (h : Stage s₀ t w i (.publish event next)) :
    next.Calls Executor.Holds := by
  generalize hq : Pass.publish event next = p at h
  cases h with
  | quiet h =>
    subst hq
    exact h
  | listing | releasing => cases hq

theorem Stage.record {m : Measurement} {next : Pass (Except Error Action)} (h : Stage s₀ t w i (.record m next)) :
    next.Calls Executor.Holds := by
  generalize hq : Pass.record m next = p at h
  cases h with
  | quiet h =>
    subst hq
    exact h
  | listing | releasing => cases hq

theorem Sound.goes_on (h : Sound s₀ t s) {p : Pass (Except Error Action)} (hd : ∀ j e, j ≠ i → d ≠ .started j e)
    (hp : Stage s₀ (t ++ [d]) s.cluster i p) : Sound s₀ (t ++ [d]) (s.advance i p) :=
  h.snoc h.keyed h.held (.of_eq rfl) (fun _ _ => .inl) (advance_passes hp hd)

/-- **A deed keeps a fleet sound.** -/
theorem Sound.step (h : Sound s₀ t s) (hrun : Run s₀ t s) (hd : Step s d s') : Sound s₀ (t ++ [d]) s' := by
  cases hd with
  | @admitted a =>
    refine h.outside (fun _ _ h => by cases h) (h.keyed.insert rfl) h.held (.of_eq rfl) fun k b hb => ?_
    by_cases hk : k = a.metadata.key
    · subst hk
      cases (Dict.get?_insert_self ..).symm.trans hb
      exact .inr rfl
    · exact .inl ((Dict.get?_insert_of_ne _ _ hk).symm.trans hb)
  | appDeleted =>
    exact h.outside (fun _ _ h => by cases h) (h.keyed.erase _) h.held (.of_eq rfl)
      fun _ _ hb => .inl (get?_of_erase hb)
  | @executorDeleted k time =>
    have hd : ∀ i e, Deed.executorDeleted k time ≠ .started i e := fun _ _ h => by cases h
    rcases h.held.deleteExecutor (k := k) time with hw | ⟨e, he, hw⟩ <;> rw [hw]
    · exact h.outside hd h.keyed h.held (.of_eq rfl) fun _ _ => .inl
    · exact h.outside hd h.keyed (h.held.insert (h.held k e he)) (.insert he fun _ => isDeleting_doomed e time)
        fun _ _ => .inl
  | @started i e hold =>
    refine h.goes_on (fun _ _ hj hd => hj (by cases hd; rfl)) ?_
    rcases e.pass_cases with hquiet | ⟨hdel, hlist⟩
    · exact .quiet hquiet
    · rw [hlist]
      exact .listing (hold hdel)
  | @acted i c next hp =>
    obtain ⟨happs, hf, hheld, hstage⟩ := h.act hrun (hp ▸ h.stage i)
    exact h.snoc (happs ▸ h.keyed) hheld hf (fun k a ha => .inl (happs ▸ ha))
      (advance_passes hstage fun _ _ _ h => by cases h)
  | @failed i c next err hp =>
    exact h.goes_on (fun _ _ _ h => by cases h) (.quiet ((hp ▸ h.stage i : Stage _ _ _ _ (.call c next)).fail err))
  | @published i event next hp =>
    exact h.goes_on (fun _ _ _ h => by cases h) (.quiet (hp ▸ h.stage i : Stage _ _ _ _ (.publish event next)).publish)
  | @recorded i m next hp =>
    exact h.goes_on (fun _ _ _ h => by cases h) (.quiet (hp ▸ h.stage i : Stage _ _ _ _ (.record m next)).record)

theorem Run.sound (h : Run s₀ t s) (h₀ : Sound s₀ [] s₀) : Sound s₀ t s := by
  induction h with
  | refl => exact h₀
  | snoc hrun hd ih => exact ih.step hrun hd

theorem sound_start (hk : w.Keyed) (hg : w.Guarded) : Sound (start w) [] (start w) :=
  ⟨hk.apps, hg.held, fun _ => .quiet trivial⟩

/-! ### What breaks -/

theorem Overtaken.append (h : Overtaken s₀ t) (u : List Deed) : Overtaken s₀ (t ++ u) := by
  obtain ⟨listing, unnamed, same, admission, names, waiting, stays, found, deleting, last, release⟩ := h
  rw [List.append_assoc, List.cons_append]
  exact .intro listing unnamed same admission names waiting stays found deleting last release

theorem Sound.act_intact (h : Sound s₀ t s) (hrun : Run s₀ t s) (hi : s.cluster.Intact)
    {next : Except Error c.Answer → Pass (Except Error Action)} (hp : Stage s₀ t s.cluster i (.call c next))
    (hd : Step s (.acted i c) s') :
    (s.cluster.perform c).cluster.Intact ∨ Overtaken s₀ (t ++ [.acted i c]) := by
  generalize hq : Pass.call c next = p at hp
  cases hp with
  | quiet hcalls =>
    subst hq
    obtain ⟨⟨n, ns, rfl⟩, -⟩ := hcalls
    rcases addFinalizer_cases (w := s.cluster) n ns with hw | ⟨e, -, hw⟩ <;> rw [hw]
    · exact .inl hi
    · exact .inl (hi.of_stays (fun _ _ ha => ha) (stays_insert _ _))
  | listing =>
    cases hq
    exact .inl hi
  | @releasing e before between s₁ _ hl =>
    cases hq
    rcases removeFinalizer_cases (w := s.cluster) e.name e.ns with ⟨-, hw⟩ | ⟨e₀, he₀, ⟨hdel, hlast, hw⟩ | ⟨-, hw⟩⟩
    · rw [hw]
      exact .inl hi
    · rw [hw]
      -- the executor is gone, so it matters whether an app has come since the pass listed the apps
      by_cases hnames : s.cluster.Names e.metadata.key
      · obtain ⟨k, a, ha, hk⟩ := hnames
        obtain rfl : a.metadata.key = k := h.keyed k a ha
        obtain ⟨rfl, listing, unnamed, same, hadmitted⟩ := hl
        exact .inr (.intro listing unnamed same (hadmitted _ a ha hk) hk hrun ha he₀ hdel hlast hd)
      · refine .inl fun k a ha => ?_
        obtain ⟨e₁, he₁⟩ := hi k a ha
        exact ⟨e₁, (Dict.get?_erase_of_ne _ fun hk => hnames ⟨k, a, ha, hk⟩).trans he₁⟩
    · rw [hw]
      exact .inl (hi.of_stays (fun _ _ ha => ha) (stays_insert _ _))

/-- **An executor disappears from under its apps** only if a pass was overtaken. -/
theorem Sound.intact (h : Sound s₀ t s) (hrun : Run s₀ t s) (hi : s.cluster.Intact) (hd : Step s d s') :
    s'.cluster.Intact ∨ Overtaken s₀ (t ++ [d]) := by
  have hstep := hd
  cases hd with
  | @admitted a hadmits =>
    refine .inl fun k b hb => ?_
    by_cases hk : k = a.metadata.key
    · subst hk
      cases (Dict.get?_insert_self ..).symm.trans hb
      exact hadmits.executor
    · exact hi k b ((Dict.get?_insert_of_ne _ _ hk).symm.trans hb)
  | appDeleted => exact .inl (hi.of_stays (fun _ _ ha => get?_of_erase ha) fun _ e he => ⟨e, he⟩)
  | @executorDeleted k time =>
    rcases h.held.deleteExecutor (k := k) time with hw | ⟨e, -, hw⟩ <;> rw [hw]
    · exact .inl hi
    · exact .inl (hi.of_stays (fun _ _ ha => ha) (stays_insert k _))
  | started | failed | published | recorded => exact .inl hi
  | acted hp => exact h.act_intact hrun hi (hp ▸ h.stage _) hstep

theorem Run.intact (h : Run s₀ t s) (h₀ : Sound s₀ [] s₀) (hi : s₀.cluster.Intact) :
    s.cluster.Intact ∨ Overtaken s₀ t := by
  induction h with
  | refl => exact .inl hi
  | snoc hrun hd ih =>
    rcases ih with ih | ih
    · exact (hrun.sound h₀).intact hrun ih hd
    · exact .inr (ih.append _)

/-- **A pass that was overtaken** leaves an app without its executor. -/
theorem Overtaken.broken (h : Overtaken s₀ t) : ∃ t' s, t' <+: t ∧ Run s₀ t' s ∧ ¬ s.cluster.Intact := by
  obtain @⟨i, _, before, between, after, s₁, s₂, s₃, a, e, -, -, -, -, rfl, waiting, stays, found, deleting, last,
    release⟩ := h
  refine ⟨_, _, ⟨_, List.append_assoc _ [_] _⟩, .snoc waiting release, fun hi => ?_⟩
  cases release with
  | acted =>
    change (s₂.cluster.perform _).cluster.Intact at hi
    rcases removeFinalizer_cases (w := s₂.cluster) a.executorKey.name a.executorKey.ns with
      ⟨hnone, -⟩ | ⟨e₀, he₀, ⟨-, -, hw⟩ | ⟨hothers, -⟩⟩
    · cases hnone.symm.trans found
    · rw [hw] at hi
      obtain ⟨e₁, he₁⟩ := hi _ a stays
      cases (Dict.get?_erase_self ..).symm.trans he₁
    · cases he₀.symm.trans found
      exact hothers deleting last

/-- **Every app keeps its executor** in all of a run exactly if no pass was overtaken. -/
theorem integrity_iff (hk : w.Keyed) (hi : w.Intact) (hg : w.Guarded) (t : List Deed) :
    (∀ t' s, t' <+: t → Run (start w) t' s → s.cluster.Intact) ↔ ¬ Overtaken (start w) t := by
  constructor
  · intro h hover
    obtain ⟨t', s, hpre, hrun, hbroken⟩ := hover.broken
    exact hbroken (h t' s hpre hrun)
  · rintro hnot t' s ⟨u, rfl⟩ hrun
    exact (hrun.intact (sound_start hk hg) hi).resolve_right fun hover => hnot (hover.append u)

end Fleet

/-! ## An app that comes in between -/

namespace Sample

open Fleet

def time : Instant := default

def shim : Executor :=
  { executor .empty with metadata := { metadata "shim" with finalizers := some [Executor.finalizer] } }

def guarded : Cluster := .ofEdits [.putExecutor shim]

def dying : Executor := Cluster.doomed shim time

def terminating : Cluster := guarded.deleteExecutor ⟨"default", "shim"⟩ time

def dependent : Json := .object [
  ("metadata", .object [("name", .string "hello"), ("namespace", .string "default")]),
  ("spec", .object [("executor", .string "shim"), ("image", .string "example"), ("replicas", .int 1)])]

def createApp : Admission.Request := ⟨"", some "default", some dependent⟩

/-- The executor is deleted, a pass lists the apps, an app is admitted, and the pass lets the executor go. -/
def overtaking (a : App) : List Deed := [
  .executorDeleted ⟨"default", "shim"⟩ time, .started 0 dying, .acted 0 (.listApps "default"),
  .admitted a, .acted 0 (.removeFinalizer "shim" "default")]

theorem guarded_intact : guarded.Intact := fun k b hb => by
  cases (Dict.get?_empty k).symm.trans hb

theorem guarded_guarded : guarded.Guarded := fun k e he => by
  by_cases hk : k = shim.metadata.key
  · subst hk
    cases (Dict.get?_insert_self ..).symm.trans he
    rfl
  · cases (Dict.get?_insert_of_ne _ _ hk).symm.trans he

theorem dependent_read : ∃ a, App.codec.decode dependent = .ok a ∧
    (a.metadata.ns = some "default" ∧ a.spec.executor = "shim") ∧ a.spec.errors (some dying) = [] := by
  have h : yields (App.codec.decode dependent) fun a =>
      a.metadata.ns == some "default" && a.spec.executor == "shim" && (a.spec.errors (some dying)).isEmpty := by
    decide +kernel
  obtain ⟨a, ha, hp⟩ := exists_of_yields h
  simp only [Bool.and_eq_true, beq_iff_eq, List.isEmpty_iff] at hp
  exact ⟨a, ha, hp⟩

/-- The webhook does not mind that the executor is being deleted. -/
theorem terminating_admits : ∃ a, a.executorKey = ⟨"default", "shim"⟩ ∧ terminating.Admits a := by
  obtain ⟨a, ha, ⟨hns, hexecutor⟩, herrors⟩ := dependent_read
  have happ : a.ns = "default" := by
    rw [App.ns, ObjectMeta.nsOrEmpty, hns]
    rfl
  have hkey : a.executorKey = ⟨"default", "shim"⟩ := by rw [App.executorKey, happ, hexecutor]
  refine ⟨a, hkey, Cluster.admits_of_errors (r := createApp) rfl ha ?_ ?_ herrors⟩
  · rw [happ]
    rfl
  · rw [hkey]
    rfl

theorem overtaking_run {a : App} (hkey : a.executorKey = ⟨"default", "shim"⟩) (ha : terminating.Admits a) :
    ∃ s, Run (start guarded) (overtaking a) s ∧ ¬ s.cluster.Intact := by
  have h₁ : Run (start guarded) [.executorDeleted ⟨"default", "shim"⟩ time] ⟨terminating, (start guarded).passes⟩ :=
    .snoc .refl .executorDeleted
  have hdooms : Dooms terminating dying.metadata.key := fun e he => by
    cases he
    rfl
  obtain ⟨s₂, h₂, hw₂, hp₂⟩ := h₁.starts 0 hdooms
  rw [Executor.pass_of_deleting rfl (by decide)] at hp₂
  obtain ⟨s₃, h₃, hw₃, hp₃⟩ := h₂.acts hp₂
  have hreleasing : s₃.passes 0 = dying.releasing := by
    rw [hp₃, hw₂]
    rfl
  have hadmits : s₃.cluster.Admits a := by
    rw [hw₃, hw₂]
    exact ha
  obtain ⟨s₅, h₅, hw₅, -⟩ := (h₃.snoc (.admitted hadmits)).acts hreleasing
  refine ⟨s₅, h₅, fun hi => ?_⟩
  obtain ⟨e, he⟩ := hi a.metadata.key a (by rw [hw₅, hw₃, hw₂]; exact Dict.get?_insert_self ..)
  rw [hw₅, hw₃, hw₂, hkey] at he
  cases he

end Sample

/-- An app is admitted when the pass has found that no app names the executor, and loses its executor. -/
theorem Fleet.admitted_app_bereft : ∃ a s, Run (start Sample.guarded) (Sample.overtaking a) s ∧
    ¬ s.cluster.Intact ∧ Overtaken (start Sample.guarded) (Sample.overtaking a) := by
  obtain ⟨a, hkey, ha⟩ := Sample.terminating_admits
  obtain ⟨s, hrun, hbroken⟩ := Sample.overtaking_run hkey ha
  have hiff := integrity_iff (Cluster.keyed_ofEdits _) Sample.guarded_intact Sample.guarded_guarded
    (Sample.overtaking a)
  refine ⟨a, s, hrun, hbroken, Classical.byContradiction fun hnot => ?_⟩
  exact hbroken (hiff.mpr hnot _ s (List.prefix_refl _) hrun)

end SpinFleet
