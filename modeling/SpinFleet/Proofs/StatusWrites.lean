import SpinFleet.Proofs.Interleaving
/-!
# StatusWrites — no update of a status is lost

A pass writes down a status for the version of the app that it has read.  If other writers change the app before, and
give it other versions by this, the write is refused and the app stays as the last of them left it; the pass goes on in
any case.  If nobody does, the app is still what the new status was made from, and gets this status and another version
and nothing else (`App.Restated`).  A pass that does not come to the write has ended early, and leaves the apps to the
others (`App.pass_status`).
-/
namespace SpinFleet

variable {A : Edit → Prop} {w w' x : Cluster} {t : List Move} {xs ys : List Edit} {key : ObjectKey} {a : App}

/-! ## Edits of an app -/

def Edit.Touches (key : ObjectKey) : Edit → Prop
  | .putApp a => a.metadata.key = key
  | .delete .app k => k = key
  | _ => False

instance (key : ObjectKey) : DecidablePred (Edit.Touches key) := fun y => by
  unfold Edit.Touches
  split <;> infer_instance

/-- The version that an edit gives to the app with a key. -/
def Edit.version? (key : ObjectKey) : Edit → Option String
  | .putApp a => if a.metadata.key = key then some a.metadata.version else none
  | _ => none

namespace Cluster

theorem edit_untouched {y : Edit} (h : ¬ y.Touches key) : (w.edit y).apps.get? key = w.apps.get? key := by
  cases y with
  | putApp b => exact Dict.get?_insert_of_ne _ _ (Ne.symm h)
  | delete kind k =>
    cases kind with
    | app =>
      show (w.apps.erase k).get? key = _
      rw [Dict.get?_erase_of_ne]
      exact Ne.symm h
    | executor | deployment | service | secret | configMap => rfl
  | putExecutor | putDeployment | putService | putSecret | putConfigMap => rfl

theorem edit_touched {y : Edit} (h : y.Touches key) (ha : (w.edit y).apps.get? key = some a) :
    y.version? key = some a.metadata.version := by
  cases y with
  | putApp b =>
    obtain rfl : b.metadata.key = key := h
    obtain rfl : b = a := by simpa [Cluster.edit] using ha
    exact if_pos rfl
  | delete kind k =>
    cases kind with
    | app =>
      obtain rfl : k = key := h
      simp [Cluster.edit] at ha
    | executor | deployment | service | secret | configMap => cases h
  | putExecutor | putDeployment | putService | putSecret | putConfigMap => cases h

theorem editAll_untouched (h : ∀ y ∈ xs, ¬ y.Touches key) : (w.editAll xs).apps.get? key = w.apps.get? key := by
  induction xs generalizing w with
  | nil => rfl
  | cons y xs ih =>
    obtain ⟨hy, hxs⟩ := List.forall_mem_cons.1 h
    exact (ih hxs).trans (edit_untouched hy)

theorem editAll_version (ha : (w.editAll xs).apps.get? key = some a) :
    (∀ y ∈ xs, ¬ y.Touches key) ∨ a.metadata.version ∈ xs.filterMap (Edit.version? key) := by
  induction xs generalizing w with
  | nil => exact .inl (List.forall_mem_nil _)
  | cons y xs ih =>
    rcases ih ha with hxs | hmem
    · by_cases hy : y.Touches key
      · have ha : (w.edit y).apps.get? key = some a := (editAll_untouched hxs).symm.trans ha
        exact .inr (List.mem_filterMap.2 ⟨y, List.mem_cons_self, edit_touched hy ha⟩)
      · exact .inl (List.forall_mem_cons.2 ⟨hy, hxs⟩)
    · obtain ⟨z, hz, hv⟩ := List.mem_filterMap.1 hmem
      exact .inr (List.mem_filterMap.2 ⟨z, List.mem_cons_of_mem _ hz, hv⟩)

theorem version_ne {b : App} {version : String} (hy : ∃ y ∈ ys, y.Touches key)
    (hv : ∀ y ∈ ys, y.version? key ≠ some version) (hb : (w.editAll ys).apps.get? key = some b) :
    b.metadata.version ≠ version := by
  rcases editAll_version hb with hno | hmem
  · obtain ⟨y, hm, ht⟩ := hy
    exact (hno y hm ht).elim
  · rintro rfl
    obtain ⟨y, hm, hy⟩ := List.mem_filterMap.1 hmem
    exact hv y hm hy

theorem edit_apps_congr (h : x.apps = w.apps) (y : Edit) : (x.edit y).apps = (w.edit y).apps := by
  cases y with
  | putApp b => exact congrArg (Dict.insert · b.metadata.key b) h
  | delete kind k =>
    cases kind with
    | app => exact congrArg (Dict.erase · k) h
    | executor | deployment | service | secret | configMap => exact h
  | putExecutor | putDeployment | putService | putSecret | putConfigMap => exact h

theorem editAll_apps_congr (h : x.apps = w.apps) (ys : List Edit) : (x.editAll ys).apps = (w.editAll ys).apps := by
  induction ys generalizing x w with
  | nil => exact h
  | cons y ys ih => exact ih (edit_apps_congr h y)

theorem patchAppStatus_refused {n ns version : String} {status : AppStatus}
    (h : ∀ b, w.apps.get? ⟨ns, n⟩ = some b → b.metadata.version ≠ version) :
    (w.perform (.patchAppStatus n ns version status)).cluster = w := by
  unfold perform
  dsimp only
  cases hb : w.apps.get? ⟨ns, n⟩ with
  | none => rfl
  | some b => exact congrArg Reply.cluster (if_neg (h b hb))

theorem patchAppStatus_accepted {n ns version : String} {status : AppStatus} (ha : w.apps.get? ⟨ns, n⟩ = some a)
    (hv : a.metadata.version = version) : (w.perform (.patchAppStatus n ns version status)).cluster =
      { w with apps := w.apps.insert ⟨ns, n⟩ (withStatus a status) } := by
  unfold perform
  dsimp only
  rw [ha]
  exact congrArg Reply.cluster (if_pos hv)

end Cluster

/-! ## Runs that write no status -/

theorem Gathers.editAll_eq {refs : List Reference} {acc : Resolved} {r : Option (Except Error Resolved)}
    (h : Gathers A refs acc w t w' r) : w' = w.editAll (edits t) := by
  induction h with
  | cut | done | missing | failed => rfl
  | found _ _ _ ih | edit _ _ ih => exact ih

theorem Gathers.edits_eq_nil {refs : List Reference} {acc : Resolved} {r : Option (Except Error Resolved)}
    (h : Gathers undisturbed refs acc w t w' r) : edits t = [] := by
  induction h with
  | cut | done | missing | failed => rfl
  | found _ _ _ ih => exact ih
  | edit hx => exact hx.elim

theorem Pass.Run.edits_eq_nil {α : Type} {p : Pass α} {r : Option α} (h : Run undisturbed p w t w' r) :
    edits t = [] := by
  induction h with
  | cut | done => rfl
  | act _ ih | fail _ _ ih | publish _ ih | record _ ih => exact ih
  | gather hg _ ih => rw [edits_append, hg.edits_eq_nil, ih, List.append_nil]
  | gatherCut hg => exact hg.edits_eq_nil
  | edit hx => exact hx.elim

/-- **Who writes no status leaves the apps to the others.** -/
theorem Pass.Run.apps_eq {α : Type} {p : Pass α} {r : Option α} (h : Run A p w t w' r)
    (hc : ∀ c ∈ calls t, c.target ≠ some .app) : w'.apps = (w.editAll (edits t)).apps := by
  induction h with
  | cut | done => rfl
  | act _ ih =>
    obtain ⟨hc, hcs⟩ := List.forall_mem_cons.1 hc
    exact (ih hcs).trans (Cluster.editAll_apps_congr ((Cluster.perform_sameBut ..).apps hc) _)
  | fail hf _ ih =>
    obtain ⟨-, hcs⟩ := List.forall_mem_cons.1 hc
    exact (ih hcs).trans (Cluster.editAll_apps_congr hf.apps_eq _)
  | gather hg _ ih =>
    rw [calls_append] at hc
    rw [edits_append, Cluster.editAll_append, ← hg.editAll_eq]
    exact ih (List.forall_mem_append.1 hc).2
  | gatherCut hg => rw [hg.editAll_eq]
  | publish _ ih | record _ ih | edit _ _ ih => exact ih hc

/-! ## The status write of a pass -/

namespace App

variable {s : Settings} {e : Executor} {r : Option (Except Error Action)}

/-- An app with another status and, but for its version, otherwise as it was. -/
structure Restated (a : App) (status : AppStatus) (b : App) : Prop where
  status : b.status = some status
  spec : b.spec = a.spec
  metadata : b.metadata = { a.metadata with resourceVersion := b.metadata.resourceVersion }

theorem restated (a : App) (status : AppStatus) : a.Restated status (Cluster.withStatus a status) := ⟨rfl, rfl, rfl⟩

theorem target_ne_of_isAside {c : Call} (h : c.isAside = true) : c.target ≠ some .app := by
  cases c with
  | patchAppStatus => cases h
  | _ => exact nofun

theorem Tends.target_ne {c : Call} (h : Tends s a key e c) : c.target ≠ some .app := by
  cases h with
  | @look ref => cases ref <;> exact nofun
  | apply | configure | certify | prune | delete | serve => exact nofun

theorem finishing_asks : (a.finishing s key e).Asks (fun c => c.target ≠ some .app) fun _ => True := by
  have hc : (Call.getApp key.name key.ns).target ≠ some .app := nofun
  refine (Attempt.asks_call hc).bind fun o _ => ?_
  cases o with
  | none => exact Attempt.asks_pure trivial
  | some f => exact (converge_asks _).mono fun _ => Tends.target_ne

namespace StatusWrite

variable (p : StatusWrite A w t s key w' r)

/-- What others do between the look-up of the app and the write. -/
def window : List Edit := p.second ++ p.third ++ p.fourth

def before : Cluster := w.editAll (p.early ++ p.window)

/-- What is to be written down, made from what has been read. -/
def status : AppStatus := (p.app.status.getD .empty).observe s.now p.executor.name p.deployment

theorem edits_eq : edits t = p.early ++ p.window ++ edits p.late := by
  have hlate : edits (p.move :: p.late) = edits p.late := p.goes.edits_eq p.late
  have ht := congrArg edits p.trace_eq
  simpa [window, hlate] using ht

theorem goes_before : (p.app.statusPatch s p.executor p.deployment).Goes p.before p.move p.after p.answer := by
  have hb : p.before = w.editAll (p.early ++ p.second ++ p.third ++ p.fourth) := by simp [before, window]
  exact hb ▸ p.goes

theorem move_cases : (p.move = .acted p.before (p.app.statusPatch s p.executor p.deployment) ∧
      p.after = (p.before.perform (p.app.statusPatch s p.executor p.deployment)).cluster) ∨
    (∃ err, p.move = .failed (p.app.statusPatch s p.executor p.deployment) err) ∧ p.after = p.before := by
  have idle {y z : Cluster} (h : y.Fails (p.app.statusPatch s p.executor p.deployment) z) : z = y := by
    cases h
    rfl
  rcases p.goes_before.elim with h | ⟨err, hm, hf⟩
  · exact .inl h
  · exact .inr ⟨⟨err, hm⟩, idle hf⟩

theorem move_ne (z : Edit) : p.move ≠ .edited z := by
  rcases p.move_cases with ⟨hm, -⟩ | ⟨⟨err, hm⟩, -⟩ <;> rw [hm] <;> exact nofun

theorem patch_eq (hk : w.Keyed) : p.app.statusPatch s p.executor p.deployment =
    .patchAppStatus key.name key.ns p.app.metadata.version p.status := by
  show Call.patchAppStatus p.app.metadata.key.name p.app.metadata.key.ns _ _ = _
  rw [p.key_eq hk]
  rfl

/-- Whether all who write in between give the app another version than the pass has read. -/
def Renewed : Prop := ∀ y ∈ p.window, y.version? key ≠ some p.app.metadata.version

theorem after_of_touched (hk : w.Keyed) (hv : p.Renewed) (hy : ∃ y ∈ p.window, y.Touches key) : p.after = p.before := by
  rcases p.move_cases with ⟨-, ha⟩ | ⟨-, ha⟩
  · rw [ha, p.patch_eq hk]
    refine Cluster.patchAppStatus_refused fun b hb => ?_
    rw [before, Cluster.editAll_append] at hb
    exact Cluster.version_ne hy hv hb
  · exact ha

theorem after_of_untouched (hk : w.Keyed) (hy : ∀ y ∈ p.window, ¬ y.Touches key) :
    p.before.apps.get? key = some p.app ∧
      ((∃ err, p.move = .failed (p.app.statusPatch s p.executor p.deployment) err) ∧ p.after = p.before ∨
        p.move = .acted p.before (p.app.statusPatch s p.executor p.deployment) ∧
          ∃ b, p.app.Restated p.status b ∧ p.after = { p.before with apps := p.before.apps.insert key b }) := by
  have ha : p.before.apps.get? key = some p.app := by
    rw [before, Cluster.editAll_append, Cluster.editAll_untouched hy, p.app_found]
  refine ⟨ha, p.move_cases.symm.imp_right fun ⟨hm, h⟩ => ⟨hm, _, restated p.app p.status, ?_⟩⟩
  rw [h, p.patch_eq hk]
  exact Cluster.patchAppStatus_accepted ha rfl

end StatusWrite

/-- **No update of a status is lost.**  A pass writes down a status once at most.  It writes none only if it has ended
early, and then it leaves the apps to the others.  If other writers have changed the app since the pass has read it,
each giving it another version, the write is refused and leaves everything to them; if none has, the app is still what
was read, and unless the write fails it gets the status that was made from that.  Either way the pass goes on in the
same way, and its other calls leave the apps to the others. -/
theorem pass_status (hk : w.Keyed) (h : Pass.Run A (App.pass s key).run w t w' r) :
    (EndsEarly key w t r ∧ (∀ c ∈ calls t, c.target ≠ some .app) ∧ w'.apps = (w.editAll (edits t)).apps) ∨
    ∃ p : StatusWrite A w t s key w' r,
      (p.Renewed → (∃ y ∈ p.window, y.Touches key) → p.after = p.before) ∧
      ((∀ y ∈ p.window, ¬ y.Touches key) → p.before.apps.get? key = some p.app ∧
        ((∃ err, p.move = .failed (p.app.statusPatch s p.executor p.deployment) err) ∧ p.after = p.before ∨
          p.move = .acted p.before (p.app.statusPatch s p.executor p.deployment) ∧
            ∃ b, p.app.Restated p.status b ∧ p.after = { p.before with apps := p.before.apps.insert key b })) ∧
      Pass.Run A (p.app.finishing s key p.executor).run p.after p.late w' r ∧
      (∀ c ∈ calls p.late, c.target ≠ some .app) ∧ w'.apps = (p.after.editAll (edits p.late)).apps := by
  rcases pass_writes_status hk h with ⟨hends, haside⟩ | ⟨⟨p⟩⟩
  · have hc : ∀ c ∈ calls t, c.target ≠ some .app := fun c hm => target_ne_of_isAside (haside c hm)
    exact .inl ⟨hends, hc, h.apps_eq hc⟩
  · have hlate := p.rest.asks (p.goes.keyed (hk.editAll _)) finishing_asks
    exact .inr ⟨p, p.after_of_touched hk, p.after_of_untouched hk, p.rest, hlate, p.rest.apps_eq hlate⟩

/-! ## A write that is accepted and one that is refused -/

theorem acted_first {m : Move} {u v : List Move} {y : Cluster} {c : Call}
    (h : xs.map .edited ++ m :: u = .acted y c :: v) : xs = [] ∧ m = .acted y c ∧ u = v := by
  cases xs with
  | nil => exact ⟨rfl, List.cons_eq_cons.1 h⟩
  | cons x xs => cases (List.cons_eq_cons.1 h).1

theorem edited_first {m : Move} {u v : List Move} {y : Edit} (hm : ∀ z, m ≠ .edited z)
    (h : xs.map .edited ++ m :: u = .edited y :: v) : ∃ zs, xs = y :: zs ∧ zs.map .edited ++ m :: u = v := by
  cases xs with
  | nil => exact (hm y (List.cons_eq_cons.1 h).1).elim
  | cons x xs =>
    obtain ⟨hx, hv⟩ := List.cons_eq_cons.1 h
    cases hx
    exact ⟨xs, rfl, hv⟩

/-- A pass that is not disturbed before it has looked at the `Deployment` has read the cluster as it was. -/
theorem StatusWrite.opened {u : List Move} {x₁ x₂ x₃ : Cluster} {c₁ c₂ c₃ : Call} (p : StatusWrite A w t s key w' r)
    (ht : t = .acted x₁ c₁ :: .acted x₂ c₂ :: .acted x₃ c₃ :: u) :
    w.apps.get? key = some p.app ∧ w.executors.get? ⟨key.ns, p.app.spec.executor⟩ = some p.executor ∧
      w.deployments.get? ⟨p.app.ns, p.app.name⟩ = p.deployment ∧ p.window = p.fourth ∧
      p.fourth.map .edited ++ p.move :: p.late = u := by
  obtain ⟨hearly, -, ht⟩ := acted_first (p.trace_eq.symm.trans ht)
  obtain ⟨hsecond, -, ht⟩ := acted_first ht
  obtain ⟨hthird, -, ht⟩ := acted_first ht
  have happ := p.app_found
  have hexecutor := p.executor_found
  have hdeployment := p.deployment_found
  rw [hearly] at happ
  rw [hearly, hsecond] at hexecutor
  rw [hearly, hsecond, hthird] at hdeployment
  have hwindow : p.window = p.fourth := by rw [window, hsecond, hthird]; rfl
  exact ⟨happ, hexecutor, hdeployment, hwindow, ht⟩

def rival : App where
  metadata := { Sample.metadata Sample.key.name with resourceVersion := some "2" }
  spec := (Sample.app (Sample.storeAt "a")).spec
  status := some { AppStatus.empty with readyReplicas := 3 }

/-- The small cluster when a pass has written down what it has observed. -/
def reported : Cluster :=
  ((Sample.cluster (Sample.storeAt "a")).perform
    ((Sample.app (Sample.storeAt "a")).statusPatch Sample.settings (Sample.executor .empty) none)).cluster

def reporting : Attempt Action :=
  (Sample.app (Sample.storeAt "a")).finishing Sample.settings Sample.key (Sample.executor .empty)

/-- A pass that nobody disturbs leaves the app with what it has observed.  One that another writer was faster than
leaves the app to that writer. -/
theorem status_written_or_kept :
    (∃ t w' v, Pass.Run undisturbed (App.pass Sample.settings Sample.key).run (Sample.cluster (Sample.storeAt "a")) t w'
        (some (.ok v)) ∧
      ∃ b, w'.apps.get? Sample.key = some b ∧ b.spec = (Sample.app (Sample.storeAt "a")).spec ∧
        b.status = some ⟨[⟨"Available", .unknown, "DeploymentNotFound", "Deployment not found", ⟨0, 0⟩⟩,
          ⟨"Progressing", .unknown, "DeploymentNotFound", "Deployment not found", ⟨0, 0⟩⟩], some "shim", 0⟩) ∧
    ∃ t w' x status, Pass.Run (fun _ => True) (App.pass Sample.settings Sample.key).run
        (Sample.cluster (Sample.storeAt "a")) t w' none ∧
      .acted x (.patchAppStatus Sample.key.name Sample.key.ns "" status) ∈ t ∧
      w'.apps.get? Sample.key = some rival := by
  have hk : (Sample.cluster (Sample.storeAt "a")).Keyed := Cluster.keyed_ofEdits _
  have ha : (Sample.cluster (Sample.storeAt "a")).apps.get? Sample.key = some (Sample.app (Sample.storeAt "a")) :=
    Dict.get?_insert_self ..
  have he : (Sample.cluster (Sample.storeAt "a")).executors.get? ⟨Sample.key.ns, "shim"⟩ =
      some (Sample.executor .empty) := Dict.get?_insert_self ..
  constructor
  · obtain ⟨u, -, hu⟩ := Simulation.run_undisturbed none [] reporting.run reported (List.forall_mem_nil _)
    have h := pass_opens (A := undisturbed) ha he rfl (.act hu)
    obtain ⟨v, hv⟩ := Sample.eq_of_succeeds (r := (Simulation.run none reporting.run (.ofCluster reported [])).2)
      (by decide +kernel)
    obtain ⟨p, -, hkept, -, -, happs⟩ := (pass_status hk h).resolve_left fun hno =>
      hno.2.1 _ (.tail _ (.tail _ (.tail _ (.head _)))) rfl
    obtain ⟨happ, hexecutor, hdeployment, hwindow, ht⟩ := p.opened rfl
    obtain ⟨hfourth, hmove, hlate⟩ := acted_first ht
    have happ : p.app = Sample.app (Sample.storeAt "a") := Option.some.inj (happ.symm.trans ha)
    rw [happ] at hexecutor hdeployment
    have hexecutor : p.executor = Sample.executor .empty := Option.some.inj (hexecutor.symm.trans he)
    have hdeployment : p.deployment = none := hdeployment.symm
    have huntouched : ∀ y ∈ p.window, ¬ y.Touches Sample.key := by
      rw [hwindow, hfourth]
      exact List.forall_mem_nil _
    obtain ⟨-, ⟨⟨err, hm⟩, -⟩ | ⟨-, b, hb, hafter⟩⟩ := hkept huntouched
    · cases hm.symm.trans hmove
    refine ⟨_, _, v, hv ▸ h, b, ?_, hb.spec.trans (congrArg App.spec happ), hb.status.trans ?_⟩
    · rw [happs, hlate, hu.edits_eq_nil, hafter]
      exact Dict.get?_insert_self ..
    · rw [StatusWrite.status, happ, hexecutor, hdeployment]
      decide +kernel
  · have h := pass_opens (A := fun _ => True) (s := Sample.settings) ha he rfl
      (.edit (x := .putApp rival) trivial (.act .cut))
    obtain ⟨p, hrefused, -, -, -, happs⟩ := (pass_status hk h).resolve_left fun hno =>
      hno.2.1 _ (.tail _ (.tail _ (.tail _ (.head _)))) rfl
    obtain ⟨happ, -, -, hwindow, ht⟩ := p.opened rfl
    have happ : p.app = Sample.app (Sample.storeAt "a") := Option.some.inj (happ.symm.trans ha)
    -- the one edit stands behind all that was read, and before the write
    obtain ⟨zs, hfourth, ht⟩ := edited_first p.move_ne ht
    obtain ⟨rfl, -, -⟩ := acted_first ht
    have hwindow : p.window = [.putApp rival] := hwindow.trans hfourth
    have hrenewed : p.Renewed := by
      intro y hy
      obtain rfl := List.mem_singleton.1 (hwindow ▸ hy)
      rw [happ]
      decide
    have htouched : ∃ y ∈ p.window, y.Touches Sample.key := ⟨.putApp rival, by simp [hwindow], rfl⟩
    refine ⟨_, _, _, _, h, .tail _ (.tail _ (.tail _ (.tail _ (.head _)))), ?_⟩
    rw [happs, hrefused hrenewed htouched, StatusWrite.before, ← Cluster.editAll_append, ← p.edits_eq]
    exact Dict.get?_insert_self ..

end App

end SpinFleet
