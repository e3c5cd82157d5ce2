import SpinFleet.Proofs.Dependents
import SpinFleet.Proofs.Interleaving
/-!
# Courses — all that a pass over an executor can come to

A pass over an executor decides by the object that it was given and by the apps that it is told of.  `Executor.Course`
lists all that it can come to, with calls that fail and others who edit (`Executor.pass_course`), and
`Executor.pass_decides` says of every run when the operator takes hold of the executor and when it lets go.
-/
namespace SpinFleet

open Cluster (Edited)

namespace Executor

/-- A pass is cut, or it comes to this. -/
def Ends (r : Option (Except Error Action)) (v : Except Error Action) : Prop := r = none ∨ r = some v

/-- **All that a pass over an executor can come to**: what it does, from one cluster to another, and its result, none if
it is cut. -/
inductive Course (A : Edit → Prop) (e : Executor) (w : Cluster) :
    List Move → Cluster → Option (Except Error Action) → Prop
  | cut {w'} (h : Edited A w w') : Course A e w [] w' none
  /-- It was let go already. -/
  | left {w'} (hd : e.metadata.isDeleting = true) (hf : e.hasFinalizer = false) (h : Edited A w w') :
      Course A e w [] w' (some (.ok .awaitChange))
  | unlisted {w' err r} (hd : e.metadata.isDeleting = true) (hf : e.hasFinalizer = true) (h : Edited A w w')
      (hr : Ends r (.error err)) : Course A e w [.failed (.listApps e.ns) err] w' r
  | listed {x w'} (hd : e.metadata.isDeleting = true) (hf : e.hasFinalizer = true) (h : Edited A w x)
      (h' : Edited A x w') : Course A e w [.acted x (.listApps e.ns)] w' none
  | refused {x w' n r} (hd : e.metadata.isDeleting = true) (hf : e.hasFinalizer = true) (h : Edited A w x)
      (h' : Edited A x w') (hn : e.dependents (Cluster.within e.ns x.apps) = n + 1)
      (hr : Ends r (.error (.dependentsExist e.name (n + 1)))) :
      Course A e w [.acted x (.listApps e.ns), .published (e.dependentsWarning (n + 1))] w' r
  | unreleased {x w' err r} (hd : e.metadata.isDeleting = true) (hf : e.hasFinalizer = true) (h : Edited A w x)
      (h' : Edited A x w') (hn : e.dependents (Cluster.within e.ns x.apps) = 0) (hr : Ends r (.error err)) :
      Course A e w [.acted x (.listApps e.ns), .failed (.removeFinalizer e.name e.ns) err] w' r
  | released {x y w' r} (hd : e.metadata.isDeleting = true) (hf : e.hasFinalizer = true) (h : Edited A w x)
      (h' : Edited A x y) (h'' : Edited A (y.perform (.removeFinalizer e.name e.ns)).cluster w')
      (hn : e.dependents (Cluster.within e.ns x.apps) = 0) (hr : Ends r (.ok .awaitChange)) :
      Course A e w [.acted x (.listApps e.ns), .acted y (.removeFinalizer e.name e.ns)] w' r
  /-- It is held already. -/
  | held {w' m r} (hd : e.metadata.isDeleting = false) (hf : e.hasFinalizer = true) (h : Edited A w w')
      (hr : Ends r (.ok .awaitChange)) : Course A e w [.recorded m] w' r
  | ungranted {w' err r} (hd : e.metadata.isDeleting = false) (hf : e.hasFinalizer = false) (h : Edited A w w')
      (hr : Ends r (.error err)) : Course A e w [.failed (.addFinalizer e.name e.ns) err] w' r
  | added {x w'} (hd : e.metadata.isDeleting = false) (hf : e.hasFinalizer = false) (h : Edited A w x)
      (h' : Edited A (x.perform (.addFinalizer e.name e.ns)).cluster w') :
      Course A e w [.acted x (.addFinalizer e.name e.ns)] w' none
  | granted {x w' m r} (hd : e.metadata.isDeleting = false) (hf : e.hasFinalizer = false) (h : Edited A w x)
      (h' : Edited A (x.perform (.addFinalizer e.name e.ns)).cluster w') (hr : Ends r (.ok .awaitChange)) :
      Course A e w [.acted x (.addFinalizer e.name e.ns), .recorded m] w' r

end Executor

variable {A : Edit → Prop} {w w' : Cluster} {t : List Move}

/-! ## What a pass does itself -/

def Move.isOwn : Move → Bool
  | .edited _ => false
  | _ => true

def deeds (t : List Move) : List Move := t.filter Move.isOwn

theorem mem_deeds {m : Move} (hm : m.isOwn = true) : m ∈ deeds t ↔ m ∈ t := by
  unfold deeds
  rw [List.mem_filter, and_iff_left hm]

/-- Whoever looks for anything but edits finds the same without them. -/
theorem filterMap_deeds {α : Type} {f : Move → Option α} (hf : ∀ x, f (.edited x) = none) (t : List Move) :
    (deeds t).filterMap f = t.filterMap f := by
  unfold deeds
  rw [List.filterMap_filter]
  congr 1
  funext m
  cases m with
  | edited x => exact (hf x).symm
  | acted | failed | published | recorded => rfl

theorem calls_deeds (t : List Move) : calls (deeds t) = calls t := filterMap_deeds (fun _ => rfl) t

theorem writes_deeds (t : List Move) : writes (deeds t) = writes t := filterMap_deeds (fun _ => rfl) t

def Move.event? : Move → Option Event
  | .published e => some e
  | _ => none

def published (t : List Move) : List Event := t.filterMap Move.event?

theorem published_deeds (t : List Move) : published (deeds t) = published t := filterMap_deeds (fun _ => rfl) t

namespace Pass

variable {α : Type}

/-- The next deed of a pass, and what is left of the pass and of the cluster after it. -/
inductive Next : Pass α → Cluster → Move → Pass α → Cluster → Prop
  | call {c next w m y answer} (h : c.Goes w m y answer) : Next (.call c next) w m (next answer) y
  | publish {e next w} : Next (.publish e next) w (.published e) next w
  | record {m next w} : Next (.record m next) w (.recorded m) next w

/-- **A run goes on with the next deed of the pass**, unless there is none or it is cut before. -/
theorem Run.next {p : Pass α} {r : Option α} (h : Run A p w t w' r) (hp : ∀ refs f, p ≠ .gather refs f) :
    deeds t = [] ∧ Edited A w w' ∧ (r = none ∨ ∃ a, p = .done a ∧ r = some a) ∨
    ∃ x m q y u, Edited A w x ∧ p.Next x m q y ∧ deeds t = m :: deeds u ∧ Run A q y u w' r := by
  induction h with
  | cut => exact .inl ⟨rfl, .refl _, .inl rfl⟩
  | done => exact .inl ⟨rfl, .refl _, .inr ⟨_, rfl, rfl⟩⟩
  | act h => exact .inr ⟨_, _, _, _, _, .refl _, .call .acted, rfl, h⟩
  | fail hf h => exact .inr ⟨_, _, _, _, _, .refl _, .call (.failed hf), rfl, h⟩
  | publish h => exact .inr ⟨_, _, _, _, _, .refl _, .publish, rfl, h⟩
  | record h => exact .inr ⟨_, _, _, _, _, .refl _, .record, rfl, h⟩
  | gather | gatherCut => exact (hp _ _ rfl).elim
  | edit hx _ ih =>
    rcases ih hp with ⟨ht, he, hr⟩ | ⟨x, m, q, y, u, he, hn, ht, h⟩
    · exact .inl ⟨ht, .step hx he, hr⟩
    · exact .inr ⟨x, m, q, y, u, .step hx he, hn, ht, h⟩

end Pass

theorem Cluster.Fails.eq {c : Call} (h : w.Fails c w') (hc : ∀ app ns keep, c ≠ .pruneSecrets app ns keep) :
    w' = w := by
  cases h with
  | idle => rfl
  | pruning => exact (hc _ _ _ rfl).elim

theorem Cluster.answer_addFinalizer (w : Cluster) (n ns : String) :
    (w.perform (.addFinalizer n ns)).answer = .ok () := by
  unfold perform
  dsimp only
  split <;> rfl

theorem Cluster.answer_removeFinalizer (w : Cluster) (n ns : String) :
    (w.perform (.removeFinalizer n ns)).answer = .ok () := by
  unfold perform
  dsimp only
  split <;> rfl

namespace Executor

variable {e : Executor} {r : Option (Except Error Action)}

theorem run_done {v : Except Error Action} (h : Pass.Run A (.done v) w t w' r) :
    deeds t = [] ∧ Edited A w w' ∧ Ends r v := by
  rcases h.next nofun with ⟨ht, he, hr⟩ | ⟨x, m, q, y, u, -, hn, -⟩
  · exact ⟨ht, he, hr.imp_right fun ⟨a, ha, hr⟩ => by cases ha; exact hr⟩
  · cases hn

theorem releasing_course {x : Cluster} {m : Move} {u : List Move} (hd : e.metadata.isDeleting = true)
    (hf : e.hasFinalizer = true) (hm : m = .acted x (.listApps e.ns)) (hx : Edited A w x)
    (hn : e.dependents (Cluster.within e.ns x.apps) = 0) (h : Pass.Run A e.releasing x u w' r) :
    Course A e w (m :: deeds u) w' r := by
  subst hm
  rcases h.next nofun with ⟨hu, he, rfl | ⟨a, ha, -⟩⟩ | ⟨y, m, q, z, v, hy, hnext, hu, hv⟩
  · rw [hu]
    exact .listed hd hf hx he
  · cases ha
  rw [hu]
  cases hnext with
  | call hm =>
    obtain ⟨hv, hw, hr⟩ := run_done hv
    rw [hv]
    cases hm with
    | acted =>
      rw [y.answer_removeFinalizer] at hr
      exact .released hd hf hx hy hw hn hr
    | failed hfail =>
      rw [hfail.eq nofun] at hw
      exact .unreleased hd hf hx (hy.trans hw) hn hr

theorem listing_course (hd : e.metadata.isDeleting = true) (hf : e.hasFinalizer = true)
    (h : Pass.Run A e.listing w t w' r) : Course A e w (deeds t) w' r := by
  rcases h.next nofun with ⟨ht, he, rfl | ⟨a, ha, -⟩⟩ | ⟨x, m, q, y, u, hx, hnext, ht, hu⟩
  · rw [ht]
    exact .cut he
  · cases ha
  rw [ht]
  cases hnext with
  | call hm =>
    cases hm with
    | failed hfail =>
      obtain ⟨hu, hw, hr⟩ := run_done hu
      rw [hfail.eq nofun] at hw
      rw [hu]
      exact .unlisted hd hf (hx.trans hw) hr
    | acted =>
      change Pass.Run A (e.deciding (Cluster.within e.ns x.apps)) x u w' r at hu
      unfold deciding at hu
      cases hn : e.dependents (Cluster.within e.ns x.apps) with
      | zero =>
        rw [hn, if_neg (Nat.lt_irrefl 0)] at hu
        exact releasing_course hd hf rfl hx hn hu
      | succ n =>
        rw [hn, if_pos (Nat.succ_pos n)] at hu
        rcases hu.next nofun with ⟨hdeeds, hw, rfl | ⟨a, ha, -⟩⟩ | ⟨z, m, q, z', v, hz, hnext, hdeeds, hv⟩
        · rw [hdeeds]
          exact .listed hd hf hx hw
        · cases ha
        · cases hnext with
          | publish =>
            obtain ⟨hv, hw, hr⟩ := run_done hv
            rw [hdeeds, hv]
            exact .refused hd hf hx (hz.trans hw) hn hr

def recording (e : Executor) : Pass (Except Error Action) :=
  .record (.executorInfo e.name e.ns e.spec.createDeployment (e.spec.config.runtimeClass.getD ""))
    (.done (.ok .awaitChange))

def holding (e : Executor) : Pass (Except Error Action) :=
  .call (.addFinalizer e.name e.ns) fun r => match r with
    | .error err => .done (.error err)
    | .ok _ => e.recording

theorem pass_of_live (hd : e.metadata.isDeleting = false) :
    e.pass.run = if e.hasFinalizer then e.recording else e.holding := by
  unfold pass
  rw [hd]
  cases e.hasFinalizer with
  | true => rfl
  | false =>
    refine congrArg (Pass.call _) (funext fun r => ?_)
    cases r <;> rfl

theorem recording_course {x : Cluster} {u : List Move} (h : Pass.Run A e.recording x u w' r) :
    Edited A x w' ∧ (deeds u = [] ∧ r = none ∨ ∃ m, deeds u = [.recorded m] ∧ Ends r (.ok .awaitChange)) := by
  rcases h.next nofun with ⟨hu, he, rfl | ⟨a, ha, -⟩⟩ | ⟨y, m, q, z, v, hy, hnext, hu, hv⟩
  · exact ⟨he, .inl ⟨hu, rfl⟩⟩
  · cases ha
  · cases hnext with
    | record =>
      obtain ⟨hv, hw, hr⟩ := run_done hv
      exact ⟨hy.trans hw, .inr ⟨_, by rw [hu, hv], hr⟩⟩

theorem holding_course (hd : e.metadata.isDeleting = false) (hf : e.hasFinalizer = false)
    (h : Pass.Run A e.holding w t w' r) : Course A e w (deeds t) w' r := by
  rcases h.next nofun with ⟨ht, he, rfl | ⟨a, ha, -⟩⟩ | ⟨x, m, q, y, u, hx, hnext, ht, hu⟩
  · rw [ht]
    exact .cut he
  · cases ha
  rw [ht]
  cases hnext with
  | call hm =>
    cases hm with
    | failed hfail =>
      obtain ⟨hu, hw, hr⟩ := run_done hu
      rw [hfail.eq nofun] at hw
      rw [hu]
      exact .ungranted hd hf (hx.trans hw) hr
    | acted =>
      rw [x.answer_addFinalizer] at hu
      obtain ⟨he, ⟨hdeeds, rfl⟩ | ⟨m, hdeeds, hr⟩⟩ := recording_course hu
      · rw [hdeeds]
        exact .added hd hf hx he
      · rw [hdeeds]
        exact .granted hd hf hx he hr

/-- **Every run of a pass over an executor takes such a course.** -/
theorem pass_course (h : Pass.Run A e.pass.run w t w' r) : Course A e w (deeds t) w' r := by
  cases hd : e.metadata.isDeleting with
  | true =>
    cases hf : e.hasFinalizer with
    | true => exact listing_course hd hf (pass_of_deleting hd hf ▸ h)
    | false =>
      rw [pass, if_pos hd, handleDeletion_run, hf] at h
      obtain ⟨ht, he, rfl | rfl⟩ := run_done h
      · rw [ht]
        exact .cut he
      · rw [ht]
        exact .left hd hf he
  | false =>
    rw [pass_of_live hd] at h
    cases hf : e.hasFinalizer with
    | true =>
      rw [hf] at h
      obtain ⟨he, ⟨ht, rfl⟩ | ⟨m, ht, hr⟩⟩ := recording_course h
      · rw [ht]
        exact .cut he
      · rw [ht]
        exact .held hd hf he hr
    | false =>
      rw [hf] at h
      exact holding_course hd hf h

end Executor

/-! ## What a pass decides -/

def Cluster.dependentsOf (w : Cluster) (k : ObjectKey) : List (ObjectKey × App) :=
  w.apps.toList.filter fun p => p.1.ns == k.ns && p.2.spec.executor == k.name

theorem Cluster.hasFinalizer_of_added {n ns : String} {e : Executor}
    (h : (w.perform (.addFinalizer n ns)).cluster.executors.get? ⟨ns, n⟩ = some e) : e.hasFinalizer = true := by
  unfold perform at h
  dsimp only at h
  split at h
  · rename_i hnone
    cases hnone.symm.trans h
  · cases (Dict.get?_insert_self ..).symm.trans h
    exact List.contains_iff_mem.2 (List.mem_append_right _ List.mem_cons_self)

namespace Executor

variable {e : Executor} {r : Option (Except Error Action)}

theorem dependents_eq_length (e : Executor) (w : Cluster) :
    e.dependents (Cluster.within e.ns w.apps) = (w.dependentsOf e.metadata.key).length := by
  have hfilter : (Cluster.within e.ns w.apps).filter (fun a => a.spec.executor == e.name) =
      (w.dependentsOf e.metadata.key).map Prod.snd := by
    unfold Cluster.within Dict.values Dict.filter Cluster.dependentsOf
    rw [List.filter_map, List.filter_filter]
    congr 1
    refine List.filter_congr fun p _ => Bool.and_comm _ _
  unfold dependents
  rw [hfilter, List.length_map]

/-- **What a pass over an executor decides**, whichever calls fail and whatever others do in between.  The executor that
it goes by is the one that it was given. -/
structure Decides (A : Edit → Prop) (e : Executor) (w : Cluster) (t : List Move) (w' : Cluster)
    (r : Option (Except Error Action)) : Prop where
  /-- It lets the executor go only if this is being deleted and held, and if it was told that no app names it. -/
  removes : ∀ n ns, .removeFinalizer n ns ∈ calls t → n = e.name ∧ ns = e.ns ∧ e.metadata.isDeleting = true ∧
    e.hasFinalizer = true ∧ ∃ x, .acted x (.listApps e.ns) ∈ t ∧ x.dependentsOf e.metadata.key = []
  /-- A pass that is not cut does so whenever it may. -/
  removes_of : r ≠ none → e.metadata.isDeleting = true → e.hasFinalizer = true →
    ∀ x, .acted x (.listApps e.ns) ∈ t → x.dependentsOf e.metadata.key = [] → .removeFinalizer e.name e.ns ∈ calls t
  /-- If apps name the executor, they are counted, users are warned once, and nothing is written. -/
  refuses : e.metadata.isDeleting = true → e.hasFinalizer = true → ∀ x, .acted x (.listApps e.ns) ∈ t →
    x.dependentsOf e.metadata.key ≠ [] → writes t = [] ∧ Edited A w w' ∧ ∀ v, r = some v →
      ∃ err, v = .error err ∧ err = .dependentsExist e.name (x.dependentsOf e.metadata.key).length ∧
        err.isRetryable = true ∧
        published t = [⟨e.reference, .warning, "DependentsExist", "Delete", some err.message⟩]
  /-- An executor that is neither being deleted nor held is taken hold of, unless the call fails. -/
  adds : e.metadata.isDeleting = false → e.hasFinalizer = false → ∀ v, r = some v →
    calls t = [.addFinalizer e.name e.ns] ∧
      ((∃ y, .acted y (.addFinalizer e.name e.ns) ∈ t ∧ v = .ok .awaitChange ∧
          ∀ e', (y.perform (.addFinalizer e.name e.ns)).cluster.executors.get? e.metadata.key = some e' →
            e'.hasFinalizer = true) ∨
        ∃ err, .failed (.addFinalizer e.name e.ns) err ∈ t ∧ v = .error err)

theorem Decides.of_deeds (h : Decides A e w (deeds t) w' r) : Decides A e w t w' r where
  removes n ns hm := by
    rw [← calls_deeds] at hm
    obtain ⟨hn, hns, hd, hf, x, hx, hnone⟩ := h.removes n ns hm
    exact ⟨hn, hns, hd, hf, x, (mem_deeds rfl).1 hx, hnone⟩
  removes_of hr hd hf x hx := by
    rw [← calls_deeds]
    exact h.removes_of hr hd hf x ((mem_deeds rfl).2 hx)
  refuses hd hf x hx := by
    rw [← writes_deeds, ← published_deeds]
    exact h.refuses hd hf x ((mem_deeds rfl).2 hx)
  adds hd hf v hv := by
    rw [← calls_deeds]
    obtain ⟨hc, ⟨y, hy, hv⟩ | ⟨err, hm, hv⟩⟩ := h.adds hd hf v hv
    · exact ⟨hc, .inl ⟨y, (mem_deeds rfl).1 hy, hv⟩⟩
    · exact ⟨hc, .inr ⟨err, (mem_deeds rfl).1 hm, hv⟩⟩

theorem dependents_eq_zero {x : Cluster} :
    e.dependents (Cluster.within e.ns x.apps) = 0 ↔ x.dependentsOf e.metadata.key = [] := by
  rw [dependents_eq_length, List.length_eq_zero_iff]

theorem Course.decides (h : Course A e w t w' r) : Decides A e w t w' r where
  removes n ns hm := by
    cases h with
    | @unreleased x _ _ _ hd hf _ _ hn | @released x _ _ _ hd hf _ _ _ hn =>
      have hm : n = e.name ∧ ns = e.ns := by simpa [calls, Move.call?] using hm
      exact ⟨hm.1, hm.2, hd, hf, x, List.mem_cons_self, dependents_eq_zero.1 hn⟩
    | _ => simp [calls, Move.call?] at hm
  removes_of hr hd hf x hx hnone := by
    cases h with
    | unreleased | released => simp [calls, Move.call?]
    | listed => exact (hr rfl).elim
    | refused _ _ _ _ hn =>
      obtain rfl : x = _ := by simpa using hx
      cases hn.symm.trans (dependents_eq_zero.2 hnone)
    | _ => simp at hx
  refuses hd hf x hx hsome := by
    cases h with
    | listed _ _ h h' => exact ⟨rfl, h.trans h', nofun⟩
    | @refused _ _ n _ _ _ h h' hn hr =>
      obtain rfl : x = _ := by simpa using hx
      have hlen : (x.dependentsOf e.metadata.key).length = n + 1 := (e.dependents_eq_length x).symm.trans hn
      refine ⟨rfl, h.trans h', fun v hv => ⟨.dependentsExist e.name (n + 1), ?_, by rw [hlen], rfl, rfl⟩⟩
      rcases hr with rfl | rfl <;> cases hv
      rfl
    | unreleased _ _ _ _ hn | released _ _ _ _ _ hn =>
      obtain rfl : x = _ := by simpa using hx
      exact (hsome (dependents_eq_zero.1 hn)).elim
    | _ => simp at hx
  adds hd hf v hv := by
    cases h with
    | @ungranted _ err _ _ _ _ hr =>
      refine ⟨rfl, .inr ⟨err, List.mem_cons_self, ?_⟩⟩
      rcases hr with rfl | rfl <;> cases hv
      rfl
    | @granted x _ _ _ _ _ _ _ hr =>
      refine ⟨rfl, .inl ⟨x, List.mem_cons_self, ?_, fun _ he' => Cluster.hasFinalizer_of_added he'⟩⟩
      rcases hr with rfl | rfl <;> cases hv
      rfl
    | cut | listed | added => cases hv
    | held _ hf' => cases hf.symm.trans hf'
    | left hd' | unlisted hd' | refused hd' | unreleased hd' | released hd' => cases hd.symm.trans hd'

/-- **What a pass over an executor decides** holds of each of its runs. -/
theorem pass_decides (h : Pass.Run A e.pass.run w t w' r) : Decides A e w t w' r :=
  (pass_course h).decides.of_deeds

end Executor

end SpinFleet
