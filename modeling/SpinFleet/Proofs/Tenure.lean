import SpinFleet.Proofs.Courses
/-!
# Tenure — how long the operator holds an executor

A pass over a stored executor that nobody disturbs leaves it alone, or it writes the list of finalizers that the client
makes of it (`Executor.Turn`).  So in a row of passes, while apps come and go and users delete executors, the operator's
finalizer is added to a list without it, and taken away when the executor is being deleted and no app names it
(`Rounds.tenure`).  Passes that are cut or fail are among these: they leave the list as it was.
-/
namespace SpinFleet

open Cluster (Edited)

variable {A : Edit → Prop} {w w' : Cluster} {t : List Move}

/-! ## One pass over a stored executor -/

namespace Cluster

def HoldsBack (w : Cluster) (k : ObjectKey) : Prop := ∃ e, w.executors.get? k = some e ∧ e.hasFinalizer = true

/-- An executor has other finalizers.  It disappears if it is being deleted and none are left. -/
def rewritten (w : Cluster) (k : ObjectKey) (e : Executor) (fs : List String) : Cluster :=
  if e.metadata.isDeleting && fs.isEmpty then { w with executors := w.executors.erase k } else w.refinalized k e fs

theorem rewritten_get? {k : ObjectKey} {e e' : Executor} {fs : List String}
    (h : (w.rewritten k e fs).executors.get? k = some e') : e' = withFinalizers e fs := by
  unfold rewritten at h
  split at h
  · cases (Dict.get?_erase_self ..).symm.trans h
  · exact (Option.some.inj ((Dict.get?_insert_self ..).symm.trans h)).symm

theorem rewritten_get?_of_ne {k k' : ObjectKey} {e : Executor} {fs : List String} (hk : k' ≠ k) :
    (w.rewritten k e fs).executors.get? k' = w.executors.get? k' := by
  unfold rewritten
  split
  · exact Dict.get?_erase_of_ne _ hk
  · exact Dict.get?_insert_of_ne _ _ hk

theorem addFinalizer_eq {k : ObjectKey} {e : Executor} (he : w.executors.get? k = some e)
    (hd : e.metadata.isDeleting = false) : (w.perform (.addFinalizer k.name k.ns)).cluster =
      w.rewritten k e (e.metadata.finalizerList ++ [Executor.finalizer]) := by
  unfold rewritten perform
  rw [hd]
  dsimp only
  rw [show w.executors.get? ⟨k.ns, k.name⟩ = some e from he]
  rfl

theorem removeFinalizer_eq {k : ObjectKey} {e : Executor} (he : w.executors.get? k = some e) :
    (w.perform (.removeFinalizer k.name k.ns)).cluster =
      w.rewritten k e (Executor.others e.metadata.finalizerList) := by
  unfold rewritten
  rcases removeFinalizer_cases (w := w) k.name k.ns with ⟨hnone, -⟩ | ⟨e', he', ⟨hd, hnil, hw⟩ | ⟨hsome, hw⟩⟩
  · cases hnone.symm.trans he
  · cases he.symm.trans he'
    rw [hw, hd, hnil]
    rfl
  · cases he.symm.trans he'
    rw [hw, if_neg]
    simpa [List.isEmpty_iff] using hsome

end Cluster

namespace Executor

variable {e e' : Executor} {k : ObjectKey} {r : Option (Except Error Action)}

/-- **An undisturbed pass over a stored executor** leaves the cluster as it is, or it writes the list of finalizers that
the client makes of the stored one: with the operator's finalizer if that is missing, or without it if nobody needs the
executor, which is being deleted. -/
inductive Turn (e : Executor) (w : Cluster) (k : ObjectKey) (t : List Move) : Cluster → Prop
  | idle (hw : writes t = []) : Turn e w k t w
  | takes {fs} (hd : e.metadata.isDeleting = false) (hfs : e.toWrite true = some fs)
      (hw : writes t = [(w, .addFinalizer k.name k.ns)]) : Turn e w k t (w.rewritten k e fs)
  | lets {fs} (hd : e.metadata.isDeleting = true) (hf : e.hasFinalizer = true) (hfs : e.toWrite false = some fs)
      (hnone : w.dependentsOf k = []) (hw : writes t = [(w, .removeFinalizer k.name k.ns)]) :
      Turn e w k t (w.rewritten k e fs)

theorem toWrite_true (hf : e.hasFinalizer = false) :
    e.toWrite true = some (e.metadata.finalizerList ++ [finalizer]) := by
  unfold toWrite
  rw [hf]
  rfl

theorem Turn.of_deeds (h : Turn e w k (deeds t) w') : Turn e w k t w' := by
  cases h with
  | idle hw => exact .idle (writes_deeds t ▸ hw)
  | takes hd hfs hw => exact .takes hd hfs (writes_deeds t ▸ hw)
  | lets hd hf hfs hnone hw => exact .lets hd hf hfs hnone (writes_deeds t ▸ hw)

theorem Course.turn (h : Course undisturbed e w t w' r) (he : w.executors.get? e.metadata.key = some e) :
    Turn e w e.metadata.key t w' := by
  cases h with
  | cut h | left _ _ h | unlisted _ _ h | held _ _ h | ungranted _ _ h =>
    rw [h.eq_of_undisturbed]
    exact .idle rfl
  | listed _ _ h h' | refused _ _ h h' | unreleased _ _ h h' =>
    rw [h'.eq_of_undisturbed, h.eq_of_undisturbed]
    exact .idle rfl
  | released hd hf h h' h'' hn =>
    cases h.eq_of_undisturbed
    cases h'.eq_of_undisturbed
    have hw := Cluster.removeFinalizer_eq he
    rw [h''.eq_of_undisturbed, show (w.perform (.removeFinalizer e.name e.ns)).cluster = _ from hw]
    exact .lets hd hf rfl (dependents_eq_zero.1 hn) rfl
  | added hd hf h h' | granted hd hf h h' =>
    cases h.eq_of_undisturbed
    have hw := Cluster.addFinalizer_eq he hd
    rw [h'.eq_of_undisturbed, show (w.perform (.addFinalizer e.name e.ns)).cluster = _ from hw]
    exact .takes hd (toWrite_true hf) rfl

theorem pass_turn (hk : w.Keyed) (he : w.executors.get? k = some e)
    (h : Pass.Run undisturbed e.pass.run w t w' r) : Turn e w k t w' := by
  obtain rfl : e.metadata.key = k := hk.executors k e he
  exact ((pass_course h).turn he).of_deeds

/-! ## What becomes of an executor -/

structure Becomes (e e' : Executor) : Prop where
  others_eq : others e'.metadata.finalizerList = others e.metadata.finalizerList
  once : e.metadata.finalizerList.count finalizer ≤ 1 → e'.metadata.finalizerList.count finalizer ≤ 1
  deleting : e.metadata.isDeleting = true → e'.metadata.isDeleting = true
  unheld : e.metadata.isDeleting = true → e'.hasFinalizer = true → e.hasFinalizer = true

theorem Becomes.refl (e : Executor) : e.Becomes e := ⟨rfl, id, id, fun _ => id⟩

theorem Becomes.trans {e'' : Executor} (h : e.Becomes e') (h' : e'.Becomes e'') : e.Becomes e'' where
  others_eq := h'.others_eq.trans h.others_eq
  once hc := h'.once (h.once hc)
  deleting hd := h'.deleting (h.deleting hd)
  unheld hd hf := h.unheld hd (h'.unheld (h.deleting hd) hf)

theorem becomes_doomed (e : Executor) (time : Instant) : e.Becomes (Cluster.doomed e time) :=
  ⟨rfl, id, fun _ => Cluster.isDeleting_doomed e time, fun _ => id⟩

theorem hasFinalizer_withFinalizers {fs : List String} :
    (Cluster.withFinalizers e fs).hasFinalizer = true ↔ finalizer ∈ fs :=
  List.contains_iff_mem

theorem becomes_written {fs : List String} {holds : Bool} (hfs : e.toWrite holds = some fs)
    (hd : holds = true → e.metadata.isDeleting = false) : e.Becomes (Cluster.withFinalizers e fs) := by
  obtain ⟨hothers, hmem⟩ := toWrite_eq_some hfs
  refine ⟨hothers, fun _ => ?_, id, fun hdel hf => ?_⟩
  · show fs.count finalizer ≤ 1
    cases holds with
    | true =>
      -- it is added to a list without it
      cases hf : e.hasFinalizer with
      | true =>
        rw [toWrite, if_pos hf] at hfs
        cases hfs
      | false =>
        cases (toWrite_true hf).symm.trans hfs
        have hnot : finalizer ∉ e.metadata.finalizerList := fun hm => by
          cases hf.symm.trans (List.contains_iff_mem.2 hm)
        rw [List.count_append, List.count_eq_zero_of_not_mem hnot]
        decide
    | false =>
      have hnot : finalizer ∉ fs := fun hm => by cases hmem.1 hm
      rw [List.count_eq_zero_of_not_mem hnot]
      exact Nat.zero_le 1
  · cases hdel.symm.trans (hd (hmem.1 (hasFinalizer_withFinalizers.1 hf)))

end Executor

/-! ## Passes one after the other -/

inductive Round
  | pass (k : ObjectKey) (t : List Move) (r : Option (Except Error Action))
  | appStored (a : App)
  | appDeleted (k : ObjectKey)
  | executorDeleted (k : ObjectKey) (time : Instant)

/-- What a round does.  A pass is over the executor that is stored, and nobody else edits while it runs. -/
inductive Round.Does (w : Cluster) : Round → Cluster → Prop
  | pass {k e t w' r} (he : w.executors.get? k = some e) (h : Pass.Run undisturbed e.pass.run w t w' r) :
      Does w (.pass k t r) w'
  | appStored {a} : Does w (.appStored a) (w.edit (.putApp a))
  | appDeleted {k} : Does w (.appDeleted k) (w.edit (.delete .app k))
  | executorDeleted {k time} : Does w (.executorDeleted k time) (w.deleteExecutor k time)

inductive Rounds (w₀ : Cluster) : List (Cluster × Round) → Cluster → Prop
  | start : Rounds w₀ [] w₀
  | snoc {l w o w'} (h : Rounds w₀ l w) (ho : o.Does w w') : Rounds w₀ (l ++ [(w, o)]) w'

def Round.Lets (k : ObjectKey) (o : Round) : Prop :=
  ∃ t r y, o = .pass k t r ∧ .acted y (.removeFinalizer k.name k.ns) ∈ t

namespace Cluster

theorem deleteExecutor_cases (w : Cluster) (k : ObjectKey) (time : Instant) :
    w.executors.get? k = none ∧ w.deleteExecutor k time = w ∨
    ∃ e, w.executors.get? k = some e ∧
      (e.metadata.finalizerList = [] ∧ w.deleteExecutor k time = { w with executors := w.executors.erase k } ∨
        e.metadata.finalizerList ≠ [] ∧
          w.deleteExecutor k time = { w with executors := w.executors.insert k (doomed e time) }) := by
  unfold deleteExecutor
  cases he : w.executors.get? k with
  | none => exact .inl ⟨rfl, rfl⟩
  | some e =>
    refine .inr ⟨e, rfl, ?_⟩
    dsimp only
    split
    · exact .inl ⟨List.isEmpty_iff.1 ‹_›, rfl⟩
    · exact .inr ⟨fun h => ‹¬ _› (List.isEmpty_iff.2 h), rfl⟩

theorem Keyed.deleteExecutor (hk : w.Keyed) (k : ObjectKey) (time : Instant) : (w.deleteExecutor k time).Keyed := by
  obtain ⟨-, hw⟩ | ⟨e, he, ⟨-, hw⟩ | ⟨-, hw⟩⟩ := w.deleteExecutor_cases k time <;> rw [hw]
  · exact hk
  · exact { hk with executors := hk.executors.erase k }
  · exact { hk with executors := hk.executors.insert (hk.executors k e he) }

theorem holdsBack_congr {k : ObjectKey} (h : w'.executors.get? k = w.executors.get? k) :
    w'.HoldsBack k ↔ w.HoldsBack k := by
  unfold HoldsBack
  rw [h]

theorem holdsBack_deleteExecutor {k k' : ObjectKey} {time : Instant} :
    (w.deleteExecutor k' time).HoldsBack k ↔ w.HoldsBack k := by
  obtain ⟨-, hw⟩ | ⟨e, he, ⟨hnil, hw⟩ | ⟨-, hw⟩⟩ := w.deleteExecutor_cases k' time <;> rw [hw] <;> by_cases hk : k = k'
  · subst hk
    -- nobody held the one that is gone
    refine iff_of_false ?_ ?_
    · rintro ⟨e', he', -⟩
      cases (Dict.get?_erase_self ..).symm.trans he'
    · rintro ⟨e', he', hf⟩
      cases he.symm.trans he'
      rw [Executor.hasFinalizer, hnil] at hf
      cases hf
  · exact holdsBack_congr (Dict.get?_erase_of_ne _ hk)
  · subst hk
    constructor
    · rintro ⟨e', he', hf⟩
      cases (Dict.get?_insert_self ..).symm.trans he'
      exact ⟨e, he, hf⟩
    · rintro ⟨e', he', hf⟩
      cases he.symm.trans he'
      exact ⟨_, Dict.get?_insert_self .., hf⟩
  · exact holdsBack_congr (Dict.get?_insert_of_ne _ _ hk)

end Cluster

namespace Round

variable {o : Round} {k : ObjectKey} {e e' : Executor}

theorem Does.keyed (ho : o.Does w w') (hk : w.Keyed) : w'.Keyed := by
  cases ho with
  | pass _ h => exact h.keyed hk
  | appStored | appDeleted => exact hk.edit _
  | executorDeleted => exact hk.deleteExecutor _ _

/-- **What a round makes of the executors.** -/
theorem Does.becomes (ho : o.Does w w') (hk : w.Keyed) (he' : w'.executors.get? k = some e') :
    ∃ e, w.executors.get? k = some e ∧ e.Becomes e' := by
  cases ho with
  | @pass k' e t _ r he h =>
    by_cases hkk : k = k'
    · subst hkk
      refine ⟨e, he, ?_⟩
      cases Executor.pass_turn hk he h with
      | idle =>
        cases he.symm.trans he'
        exact .refl _
      | takes hd hfs =>
        rw [Cluster.rewritten_get? he']
        exact Executor.becomes_written hfs fun _ => hd
      | lets _ _ hfs =>
        rw [Cluster.rewritten_get? he']
        exact Executor.becomes_written hfs nofun
    · refine ⟨e', ?_, .refl e'⟩
      cases Executor.pass_turn hk he h with
      | idle => exact he'
      | takes | lets => rwa [Cluster.rewritten_get?_of_ne hkk] at he'
  | appStored | appDeleted => exact ⟨e', he', .refl e'⟩
  | @executorDeleted k' time =>
    obtain ⟨-, hw⟩ | ⟨e, he, ⟨-, hw⟩ | ⟨-, hw⟩⟩ := w.deleteExecutor_cases k' time <;> rw [hw] at he'
    · exact ⟨e', he', .refl e'⟩
    · exact ⟨e', Cluster.get?_of_erase he', .refl e'⟩
    · by_cases hkk : k = k'
      · subst hkk
        cases (Dict.get?_insert_self ..).symm.trans he'
        exact ⟨e, he, Executor.becomes_doomed e time⟩
      · exact ⟨e', (Dict.get?_insert_of_ne _ _ hkk).symm.trans he', .refl e'⟩

/-- **A round ends the hold on an executor that is being deleted** just if it is a pass that lets it go. -/
theorem Does.holdsBack_iff (ho : o.Does w w') (hk : w.Keyed) (hd : Fleet.Dooms w k) :
    w'.HoldsBack k ↔ w.HoldsBack k ∧ ¬ o.Lets k := by
  have same (h : w'.executors.get? k = w.executors.get? k) (hl : ¬ o.Lets k) :
      w'.HoldsBack k ↔ w.HoldsBack k ∧ ¬ o.Lets k := by
    rw [Cluster.holdsBack_congr h, and_iff_left hl]
  cases ho with
  | @pass k' e t _ r he h =>
    have hturn := Executor.pass_turn hk he h
    by_cases hkk : k = k'
    · subst hkk
      have hacts {y : Cluster} : .acted y (.removeFinalizer k.name k.ns) ∈ t ↔
          (y, .removeFinalizer k.name k.ns) ∈ writes t := (mem_writes rfl).symm
      cases hturn with
      | idle hw =>
        refine same rfl ?_
        rintro ⟨_, _, y, ho, hy⟩
        cases ho
        rw [hacts, hw] at hy
        cases hy
      | takes hno => cases hno.symm.trans (hd e he)
      | lets _ _ hfs _ hw =>
        refine iff_of_false ?_ fun hno => hno.2 ⟨t, r, w, rfl, hacts.2 (hw ▸ List.mem_cons_self)⟩
        rintro ⟨e', he', hf'⟩
        rw [Cluster.rewritten_get? he'] at hf'
        cases (Executor.toWrite_eq_some hfs).2.1 (Executor.hasFinalizer_withFinalizers.1 hf')
    · refine same ?_ ?_
      · cases hturn with
        | idle => rfl
        | takes | lets => exact Cluster.rewritten_get?_of_ne hkk
      · rintro ⟨_, _, _, ho, -⟩
        cases ho
        exact hkk rfl
  | appStored | appDeleted =>
    refine same rfl ?_
    rintro ⟨_, _, _, ho, -⟩
    cases ho
  | @executorDeleted k' time =>
    rw [Cluster.holdsBack_deleteExecutor, and_iff_left]
    rintro ⟨_, _, _, ho, -⟩
    cases ho

end Round

/-- **A pass that finds no dependents lets the executor go**, if none of its calls fails. -/
theorem Executor.pass_lets {e : Executor} {v : Except Error Action}
    (h : Pass.Run undisturbed e.pass.run w t w' (some v)) (hfail : ∀ c err, .failed c err ∉ t)
    (hd : e.metadata.isDeleting = true) (hf : e.hasFinalizer = true) (hnone : w.dependentsOf e.metadata.key = []) :
    ∃ y, .acted y (.removeFinalizer e.name e.ns) ∈ t := by
  have hcourse := pass_course h
  have unfailing (c : Call) (err : Error) : .failed c err ∉ deeds t := mt (mem_deeds rfl).1 (hfail c err)
  have acts (c : Call) : (∃ y, .acted y c ∈ t) ↔ ∃ y, .acted y c ∈ deeds t :=
    exists_congr fun _ => (mem_deeds rfl).symm
  rw [acts]
  generalize deeds t = u at hcourse unfailing
  generalize hr : some v = r at hcourse
  cases hcourse with
  | @released _ y => exact ⟨y, List.mem_cons_of_mem _ List.mem_cons_self⟩
  | @refused x _ _ _ _ _ hx _ hn =>
    rw [hx.eq_of_undisturbed, dependents_eq_zero.2 hnone] at hn
    cases hn
  | unlisted | ungranted => exact (unfailing _ _ List.mem_cons_self).elim
  | unreleased => exact (unfailing _ _ (List.mem_cons_of_mem _ List.mem_cons_self)).elim
  | cut | listed | added => cases hr
  | left _ hf' => cases hf.symm.trans hf'
  | held hd' | granted hd' => cases hd.symm.trans hd'

namespace Rounds

variable {w₀ : Cluster} {l : List (Cluster × Round)} {k : ObjectKey} {e : Executor} {x : Cluster} {o : Round}

theorem keyed (h : Rounds w₀ l w) (hk : w₀.Keyed) : w.Keyed := by
  induction h with
  | start => exact hk
  | snoc _ ho ih => exact ho.keyed ih

theorem becomes (h : Rounds w₀ l w) (hk : w₀.Keyed) (he : w.executors.get? k = some e) :
    ∃ e₀, w₀.executors.get? k = some e₀ ∧ e₀.Becomes e := by
  induction h generalizing e with
  | start => exact ⟨e, he, .refl e⟩
  | snoc h ho ih =>
    obtain ⟨e₁, he₁, h₁⟩ := ho.becomes (h.keyed hk) he
    obtain ⟨e₀, he₀, h₀⟩ := ih he₁
    exact ⟨e₀, he₀, h₀.trans h₁⟩

theorem dooms (h : Rounds w₀ l w) (hk : w₀.Keyed) (hd : Fleet.Dooms w₀ k) : Fleet.Dooms w k := fun e he => by
  obtain ⟨e₀, he₀, h₀⟩ := h.becomes hk he
  exact h₀.deleting (hd e₀ he₀)

/-- **An executor that is being deleted is held until a round lets it go**, and never again. -/
theorem holdsBack_iff (h : Rounds w₀ l w) (hk : w₀.Keyed) (hd : Fleet.Dooms w₀ k) :
    w.HoldsBack k ↔ w₀.HoldsBack k ∧ ∀ x o, (x, o) ∈ l → ¬ o.Lets k := by
  induction h with
  | start => simp
  | snoc h ho ih =>
    rw [ho.holdsBack_iff (h.keyed hk) (h.dooms hk hd), ih, and_assoc]
    refine and_congr_right fun _ => ⟨fun ⟨hl, ho⟩ x o hm => ?_, fun hl => ⟨fun x o hm => ?_, ?_⟩⟩
    · rcases List.mem_append.1 hm with hm | hm
      · exact hl x o hm
      · cases List.mem_singleton.1 hm
        exact ho
    · exact hl x o (List.mem_append_left _ hm)
    · exact hl _ _ (List.mem_append_right _ List.mem_cons_self)

theorem at_round (h : Rounds w₀ l w) (hm : (x, o) ∈ l) : ∃ l' x', Rounds w₀ l' x ∧ l' ⊆ l ∧ o.Does x x' := by
  induction h with
  | start => cases hm
  | snoc h ho ih =>
    rcases List.mem_append.1 hm with hm | hm
    · obtain ⟨l', x', h', hl, ho'⟩ := ih hm
      exact ⟨l', x', h', List.Subset.trans hl (List.subset_append_left ..), ho'⟩
    · cases List.mem_singleton.1 hm
      exact ⟨_, _, h, List.subset_append_left .., ho⟩

end Rounds

/-- **How long executors are held** in a row of passes over stored executors, while apps come and go and users delete
executors. -/
structure Tenure (w₀ : Cluster) (l : List (Cluster × Round)) (w : Cluster) : Prop where
  /-- The finalizers of others stay in their order, the operator's does not come twice, and to an executor that is being
  deleted it does not come at all. -/
  becomes : ∀ k e, w.executors.get? k = some e → ∃ e₀, w₀.executors.get? k = some e₀ ∧ e₀.Becomes e
  /-- An executor that is being deleted is held just until it is let go. -/
  holdsBack_iff : ∀ k, Fleet.Dooms w₀ k →
    (w.HoldsBack k ↔ w₀.HoldsBack k ∧ ∀ x o, (x, o) ∈ l → ¬ o.Lets k)
  /-- It is let go by passes that find no dependents. -/
  unneeded : ∀ k x t r, (x, .pass k t r) ∈ l → Round.Lets k (.pass k t r) → x.dependentsOf k = []
  /-- After the first such pass it is not held any more. -/
  removed : ∀ k x t v, Fleet.Dooms w₀ k → (x, .pass k t (some v)) ∈ l → (∀ c err, .failed c err ∉ t) →
    x.dependentsOf k = [] → ¬ w.HoldsBack k

theorem Rounds.tenure {w₀ : Cluster} {l : List (Cluster × Round)} (h : Rounds w₀ l w) (hk : w₀.Keyed) :
    Tenure w₀ l w where
  becomes _ _ he := h.becomes hk he
  holdsBack_iff _ hd := h.holdsBack_iff hk hd
  unneeded k x t r hm hl := by
    obtain ⟨l', x', h', -, ho⟩ := h.at_round hm
    obtain ⟨_, _, y, hpass, hy⟩ := hl
    cases hpass
    cases ho with
    | pass he hrun =>
      have hy := (mem_writes rfl).2 hy
      cases Executor.pass_turn (h'.keyed hk) he hrun with
      | lets _ _ _ hnone => exact hnone
      | idle hw =>
        rw [hw] at hy
        cases hy
      | takes _ _ hw =>
        rw [hw] at hy
        cases List.mem_singleton.1 hy
  removed k x t v hd hm hfail hnone hheld := by
    obtain ⟨l', x', h', hl, ho⟩ := h.at_round hm
    obtain ⟨h₀, hlets⟩ := (h.holdsBack_iff hk hd).1 hheld
    obtain ⟨e, he, hf⟩ := (h'.holdsBack_iff hk hd).2 ⟨h₀, fun x o hm => hlets x o (hl hm)⟩
    cases ho with
    | pass he' hrun =>
      cases he.symm.trans he'
      obtain rfl : e.metadata.key = k := (h'.keyed hk).executors k e he
      obtain ⟨y, hy⟩ := Executor.pass_lets hrun hfail (h'.dooms hk hd e he) hf hnone
      exact hlets x _ hm ⟨t, some v, y, rfl, hy⟩

/-- **Passes over executors.**  Each decides by the executor that it was given and by the apps that it was told of; over
a stored executor it writes just the list that the client makes of that one; and one after the other they hold every
executor until it is deleted and not needed. -/
theorem Executor.passes_hold :
    (∀ (A : Edit → Prop) (e : Executor) (w : Cluster) (t : List Move) (w' : Cluster)
        (r : Option (Except Error Action)),
      Pass.Run A e.pass.run w t w' r → e.Decides A w t w' r) ∧
    (∀ (w : Cluster) (k : ObjectKey) (e : Executor) (t : List Move) (w' : Cluster) (r : Option (Except Error Action)),
      w.Keyed → w.executors.get? k = some e → Pass.Run undisturbed e.pass.run w t w' r → e.Turn w k t w') ∧
    ∀ (w₀ : Cluster) (l : List (Cluster × Round)) (w : Cluster), w₀.Keyed → Rounds w₀ l w → Tenure w₀ l w :=
  ⟨fun _ _ _ _ _ _ h => pass_decides h, fun _ _ _ _ _ _ hk he h => pass_turn hk he h, fun _ _ _ hk h => h.tenure hk⟩

/-- An executor that no app names, and a pass after its deletion. -/
theorem Executor.dying_let_go : ∃ t w',
    Pass.Run undisturbed Sample.dying.pass.run Sample.terminating t w' (some (.ok .awaitChange)) ∧
    .removeFinalizer "shim" "default" ∈ calls t ∧ Sample.terminating.HoldsBack ⟨"default", "shim"⟩ ∧
    ¬ w'.HoldsBack ⟨"default", "shim"⟩ := by
  obtain ⟨hdecides, -, htenure⟩ := passes_hold
  have hk : Sample.terminating.Keyed := (Cluster.keyed_ofEdits _).deleteExecutor _ _
  have he : Sample.terminating.executors.get? ⟨"default", "shim"⟩ = some Sample.dying := rfl
  have hdooms : Fleet.Dooms Sample.terminating ⟨"default", "shim"⟩ := fun e he' => by
    cases he.symm.trans he'
    rfl
  have hrun : Pass.Run undisturbed Sample.dying.pass.run Sample.terminating
      [.acted Sample.terminating (.listApps "default"), .acted Sample.terminating (.removeFinalizer "shim" "default")]
      (Sample.terminating.perform (.removeFinalizer "shim" "default")).cluster (some (.ok .awaitChange)) := by
    rw [pass_of_deleting rfl (by decide)]
    exact .act (.act .done)
  refine ⟨_, _, hrun, ?_, ⟨_, he, by decide⟩, ?_⟩
  · exact (hdecides _ _ _ _ _ _ hrun).removes_of nofun rfl (by decide) _ List.mem_cons_self rfl
  · exact (htenure _ _ _ hk (.snoc .start (.pass he hrun))).removed _ _ _ _ hdooms List.mem_cons_self
      (by simp) rfl

end SpinFleet
