import SpinFleet.Proofs.Interleaving
/-!
# Snapshots — which of the apps it has found a pass makes a `Deployment` for

A pass finds a managed app twice, and its executor once, in between: the app as it was found first says which executor
to look for, and the `Deployment` is made for the app as it was found last.  If another writer has given the app another
executor in the meantime, the `Deployment` is made for what the app declares now with the configuration of the executor
that it named before (`App.applied_coherent_iff`).
-/
namespace SpinFleet

open Attempt (run_call_bind)

variable {A : Edit → Prop} {w w' x : Cluster} {t u : List Move} {key : ObjectKey} {d : Deployment}

def Move.app? : Move → Option App
  | .acted w (.getApp n ns) => w.apps.get? ⟨ns, n⟩
  | _ => none

def Move.executor? : Move → Option Executor
  | .acted w (.getExecutor n ns) => w.executors.get? ⟨ns, n⟩
  | _ => none

/-- The apps that a run has found, one after the other. -/
def snapshots (t : List Move) : List App := t.filterMap Move.app?

def executorsFound (t : List Move) : List Executor := t.filterMap Move.executor?

/-- A `Deployment` is of one piece: one of the apps that a run has found gives it together with the executor which this
very app names, and which makes `Deployment`s. -/
def Coherent (key : ObjectKey) (t : List Move) (d : Deployment) : Prop :=
  ∃ a ∈ snapshots t, ∃ e ∈ executorsFound t, e.metadata.key = ⟨key.ns, a.spec.executor⟩ ∧
    e.spec.createDeployment = true ∧ ∃ generated ca, a.deployment e.spec.config generated ca = .ok d

@[simp] theorem snapshots_append (t u : List Move) : snapshots (t ++ u) = snapshots t ++ snapshots u :=
  List.filterMap_append ..

@[simp] theorem executorsFound_append (t u : List Move) :
    executorsFound (t ++ u) = executorsFound t ++ executorsFound u :=
  List.filterMap_append ..

@[simp] theorem snapshots_edited (xs : List Edit) : snapshots (xs.map .edited) = [] :=
  filterMap_edited (fun _ => rfl) xs

@[simp] theorem executorsFound_edited (xs : List Edit) : executorsFound (xs.map .edited) = [] :=
  filterMap_edited (fun _ => rfl) xs

theorem snapshots_acted (w : Cluster) (c : Call) (t : List Move) :
    snapshots (.acted w c :: t) = (Move.app? (.acted w c)).toList ++ snapshots t := by
  cases h : Move.app? (.acted w c) <;> simp [snapshots, h]

theorem executorsFound_acted (w : Cluster) (c : Call) (t : List Move) :
    executorsFound (.acted w c :: t) = (Move.executor? (.acted w c)).toList ++ executorsFound t := by
  cases h : Move.executor? (.acted w c) <;> simp [executorsFound, h]

namespace App

variable {s : Settings} {a b : App} {e : Executor} {r : Option (Except Error Action)}

theorem finds_nothing (h : ∀ c ∈ calls t, Tends s a key e c) : snapshots t = [] ∧ executorsFound t = [] := by
  have none_found : ∀ m ∈ t, m.app? = none ∧ m.executor? = none := by
    intro m hm
    cases m with
    | acted y c =>
      cases h c (mem_calls.2 ⟨_, hm, rfl⟩) with
      | @look ref => cases ref <;> exact ⟨rfl, rfl⟩
      | apply | configure | certify | prune | delete | serve => exact ⟨rfl, rfl⟩
    | failed | published | recorded | edited => exact ⟨rfl, rfl⟩
  exact ⟨List.filterMap_eq_nil_iff.2 fun m hm => (none_found m hm).1,
    List.filterMap_eq_nil_iff.2 fun m hm => (none_found m hm).2⟩

theorem Tends.of_apply (h : Tends s a key e (.applyDeployment d)) :
    ∃ generated ca, a.deployment e.spec.config generated ca = .ok d := by
  generalize hc : Call.applyDeployment d = c at h
  cases h with
  | @look ref => cases ref <;> cases hc
  | apply _ h =>
    cases hc
    exact ⟨_, _, h⟩
  | configure | certify | prune | delete | serve => cases hc

theorem finishing_applies (hk : w.Keyed) (h : Pass.Run A (a.finishing s key e).run w t w' r)
    (hd : .applyDeployment d ∈ calls t) : ∃ f, f.metadata.key = key ∧ snapshots t = [f] ∧ executorsFound t = [] ∧
      ∃ generated ca, f.deployment e.spec.config generated ca = .ok d := by
  rcases run_call_bind rfl h with h | ⟨xs, o, u, rfl, ho, h⟩
  · cases h.call_eq hd
  have ho : (w.editAll xs).apps.get? key = o := by injection ho
  have hd : .applyDeployment d ∈ calls u := by simpa using hd
  cases o with
  | none =>
    obtain ⟨ys, rfl, -⟩ := Pass.Run.of_done h
    simp at hd
  | some f =>
    have hu := h.asks (hk.editAll xs) (converge_asks _)
    obtain ⟨hs, he⟩ := finds_nothing hu
    refine ⟨f, (hk.editAll xs).apps _ _ ho, ?_, ?_, (hu _ hd).of_apply⟩
    · simp [snapshots_acted, hs, Move.app?, ho]
    · simp [executorsFound_acted, he, Move.executor?]

/-- **A `Deployment` is of one piece** if the app as it was found last names the executor that it named at first, and
otherwise only if the app as it was found first would have given the very same `Deployment`. -/
theorem applied_coherent_iff (hk : w.Keyed) (h : Pass.Run A (App.pass s key).run w t w' r)
    (hd : .acted x (.applyDeployment d) ∈ t) : ∃ a f e, snapshots t = [a, f] ∧ executorsFound t = [e] ∧
      a.metadata.key = key ∧ f.metadata.key = key ∧ e.metadata.key = ⟨key.ns, a.spec.executor⟩ ∧
      e.spec.createDeployment = true ∧ (∃ generated ca, f.deployment e.spec.config generated ca = .ok d) ∧
      (Coherent key t d ↔ f.spec.executor = a.spec.executor ∨
        ∃ generated ca, a.deployment e.spec.config generated ca = .ok d) := by
  have hd : .applyDeployment d ∈ calls t := mem_calls.2 ⟨_, hd, rfl⟩
  obtain ⟨-, haside⟩ | ⟨⟨p⟩⟩ := pass_writes_status hk h
  · cases haside _ hd
  have hd : .applyDeployment d ∈ calls p.late := by
    rw [p.calls_eq] at hd
    simpa [statusPatch] using hd
  obtain ⟨f, hf, hsnaps, hexecs, hdep⟩ := finishing_applies (p.goes.keyed (hk.editAll _)) p.rest hd
  have hwrite : snapshots (p.move :: p.late) = [f] ∧ executorsFound (p.move :: p.late) = [] := by
    rw [← hsnaps, ← hexecs]
    rcases p.goes.elim with ⟨h, -⟩ | ⟨err, h, -⟩ <;> rw [h] <;> exact ⟨rfl, rfl⟩
  have hsnaps : snapshots t = [p.app, f] := by
    have ht := congrArg snapshots p.trace_eq
    simpa [snapshots_acted, Move.app?, hwrite.1, p.app_found] using ht
  have hexecs : executorsFound t = [p.executor] := by
    have ht := congrArg executorsFound p.trace_eq
    simpa [executorsFound_acted, Move.executor?, hwrite.2, p.executor_found] using ht
  have he : p.executor.metadata.key = ⟨key.ns, p.app.spec.executor⟩ :=
    (hk.editAll _).executors _ _ p.executor_found
  refine ⟨p.app, f, p.executor, hsnaps, hexecs, p.key_eq hk, hf, he, p.creating, hdep, ?_⟩
  unfold Coherent
  rw [hsnaps, hexecs]
  constructor
  · rintro ⟨b, hb, e, he', hkey, -, hb'⟩
    obtain rfl := List.mem_singleton.1 he'
    obtain rfl | rfl : b = p.app ∨ b = f := by simpa using hb
    · exact .inr hb'
    · exact .inl (congrArg ObjectKey.name (hkey.symm.trans he))
  · rintro (hname | hfirst)
    · exact ⟨f, by simp, p.executor, by simp, hname ▸ he, p.creating, hdep⟩
    · exact ⟨p.app, by simp, p.executor, by simp, he, p.creating, hfirst⟩

/-! ## A run in which the executor changes -/

section ReadyMade

variable {c : DeploymentConfig}

theorem ensureConfigSecret_readyMade (hv : b.spec.runtimeConfig.verbatimSecret.isSome = true) :
    Pass.Run A b.ensureConfigSecret.run w [] w (some (.ok none)) := by
  have resolve : Pass.Run A b.resolveDocument.run w [] w (some (.ok none)) := by
    have hrefs : (References.ofApp b).toList = [] := by
      unfold References.ofApp
      rw [if_pos hv]
      rfl
    unfold App.resolveDocument References.fetch
    rw [hrefs]
    refine Attempt.run_of_bind (a := Resolved.empty) (.gather .done .done) ?_
    rw [if_pos hv]
    exact .done
  have document : Pass.Run A b.documentOrWarn.run w [] w (some (.ok none)) := by
    unfold App.documentOrWarn
    rw [Attempt.tryCatch_run]
    exact .bind resolve .done
  exact Attempt.run_of_bind document .done

theorem ensureCaSecret_unasked (hca : c.caSecret = none) (hi : c.installDefaultCACerts = false) :
    Pass.Run A (b.ensureCaSecret s c).run w [] w (some (.ok none)) := by
  unfold App.ensureCaSecret
  rw [hca]
  simp only [hi]
  exact .done

theorem converge_readyMade (key : ObjectKey) (executor : String) {v : Service} (hdel : b.metadata.isDeleting = false)
    (hv : b.spec.runtimeConfig.verbatimSecret.isSome = true) (hc : e.spec.createDeployment = true)
    (hca : e.spec.config.caSecret = none) (hi : e.spec.config.installDefaultCACerts = false)
    (hd : b.deployment e.spec.config none none = .ok d) (hs : b.service = .ok v) : ∃ t w',
      Pass.Run A (b.converge s key executor e).run w (.acted w (.applyDeployment d) :: t) w'
        (some (.ok .awaitChange)) := by
  have deploy : Pass.Run A (b.deploymentOrWarn e.spec.config none none).run w [] w (some (.ok d)) := by
    unfold App.deploymentOrWarn
    rw [hd]
    exact .done
  have write : ∃ t w', Pass.Run A (do
      Attempt.call (.applyDeployment d)
      Attempt.call (.pruneSecrets b.name b.ns none) : Attempt Unit).run w (.acted w (.applyDeployment d) :: t) w'
      (some (.ok ())) := ⟨_, _, .act (.act .done)⟩
  obtain ⟨t, w', write⟩ := write
  have realize : Pass.Run A (b.realize s e.spec.config).run w (.acted w (.applyDeployment d) :: t) w'
      (some (.ok ())) := by
    refine Attempt.run_of_bind (t := []) (ensureConfigSecret_readyMade hv) ?_
    refine Attempt.run_of_bind (t := []) (ensureCaSecret_unasked hca hi) ?_
    exact Attempt.run_of_bind (t := []) deploy write
  have serve : Pass.Run A (do
      let service ← Attempt.ofExcept b.service
      Attempt.call (.applyService service)
      Attempt.record (.appInfo key.name key.ns executor)
      return .awaitChange : Attempt Action).run w'
      [.acted w' (.applyService v), .recorded (.appInfo key.name key.ns executor)]
      (w'.perform (.applyService v)).cluster (some (.ok .awaitChange)) := by
    rw [hs]
    exact .act (.record .done)
  unfold App.converge
  rw [if_neg (by simp [hdel])]
  simp only [if_pos hc]
  exact ⟨_, _, Attempt.run_of_bind realize serve⟩

/-- Another writer may put an app with a ready-made configuration in the place of the one that a pass works on, right
after the pass has written its status. -/
theorem pass_divided {v : Service} (ha : w.apps.get? key = some a)
    (he : w.executors.get? ⟨key.ns, a.spec.executor⟩ = some e) (hc : e.spec.createDeployment = true)
    (hb : b.metadata.key = key) (hdel : b.metadata.isDeleting = false)
    (hv : b.spec.runtimeConfig.verbatimSecret.isSome = true) (hca : e.spec.config.caSecret = none)
    (hi : e.spec.config.installDefaultCACerts = false) (hd : b.deployment e.spec.config none none = .ok d)
    (hs : b.service = .ok v) : ∃ t w' x, Pass.Run (fun y => y = .putApp b) (App.pass s key).run w t w'
      (some (.ok .awaitChange)) ∧ .acted x (.applyDeployment d) ∈ t ∧ [a, b] <+: snapshots t := by
  let y := (w.perform (a.statusPatch s e (w.deployments.get? ⟨a.ns, a.name⟩))).cluster.edit (.putApp b)
  have hy : (y.perform (.getApp key.name key.ns)).answer = .ok (some b) := by
    refine congrArg Except.ok ?_
    show y.apps.get? key = some b
    rw [← hb]
    exact Dict.get?_insert_self ..
  obtain ⟨u, w', hu⟩ := converge_readyMade (A := fun y => y = .putApp b) (s := s) (w := y) key a.spec.executor hdel
    hv hc hca hi hd hs
  have hfinish : Pass.Run (fun y => y = .putApp b) (a.finishing s key e).run y
      (.acted y (.getApp key.name key.ns) :: .acted y (.applyDeployment d) :: u) w' (some (.ok .awaitChange)) :=
    Attempt.run_of_bind (t := [_]) (Attempt.run_of_read rfl hy) hu
  have hby : y.apps.get? key = some b := by injection hy
  refine ⟨_, w', y, pass_opens ha he hc (.act (.edit rfl hfinish)), by simp, snapshots u, ?_⟩
  rw [snapshots_acted]
  show _ = (w.apps.get? key).toList ++ snapshots (.acted y (.getApp key.name key.ns) :: _)
  rw [snapshots_acted]
  show _ = (w.apps.get? key).toList ++ ((y.apps.get? key).toList ++ snapshots u)
  rw [ha, hby]
  rfl

end ReadyMade

end App

namespace Sample

/-- The app of the small cluster as another writer wants it: with two replicas, and with another executor, which makes
no `Deployment`s. -/
def moved : App where
  metadata := (app (readyMade "settings")).metadata
  spec := { (app (readyMade "settings")).spec with executor := "elsewhere", replicas := some 2 }
  status := none

def elsewhere : Executor where
  metadata := metadata "elsewhere"
  spec := ⟨false, none⟩
  status := none

/-- The small cluster with both executors. -/
def divided : Cluster := (cluster (readyMade "settings")).edit (.putExecutor elsewhere)

end Sample

namespace App

theorem deployment_replicas {a : App} {c : DeploymentConfig} {generated ca : Option String}
    (h : a.deployment c generated ca = .ok d) : d.spec.map DeploymentSpec.replicas = some a.spec.desiredReplicas := by
  obtain ⟨profile, config, probes, owner, -, -, -, rfl⟩ := deployment_parts h
  rfl

/-- A pass that applies a `Deployment` with two replicas and ends well, although only the app that names the executor
without `Deployment`s wants these. -/
theorem moved_app_deployed : ∃ (t : List Move) (w' x : Cluster) (d : Deployment),
    Pass.Run (fun y => y = .putApp Sample.moved) (App.pass Sample.settings Sample.key).run Sample.divided t w'
      (some (.ok .awaitChange)) ∧
    .acted x (.applyDeployment d) ∈ t ∧ d.spec.map DeploymentSpec.replicas = some (some 2) ∧
    Sample.divided.executors.get? ⟨Sample.key.ns, Sample.moved.spec.executor⟩ = some Sample.elsewhere ∧
    Sample.elsewhere.spec.createDeployment = false ∧ ¬ Coherent Sample.key t d := by
  obtain ⟨d, hd⟩ : ∃ d, Sample.moved.deployment (Sample.executor .empty).spec.config none none = .ok d := ⟨_, rfl⟩
  obtain ⟨v, hv⟩ : ∃ v, Sample.moved.service = .ok v := ⟨_, rfl⟩
  have ha : Sample.divided.apps.get? Sample.key = some (Sample.app (Sample.readyMade "settings")) :=
    Dict.get?_insert_self ..
  have he : Sample.divided.executors.get? ⟨"default", "shim"⟩ = some (Sample.executor .empty) :=
    (Dict.get?_insert_of_ne _ _ (by decide)).trans (Dict.get?_insert_self ..)
  obtain ⟨t, w', x, h, hx, u, hread⟩ := pass_divided (s := Sample.settings) ha he rfl rfl rfl rfl rfl rfl hd hv
  have hk : Sample.divided.Keyed := (Cluster.keyed_ofEdits _).edit _
  refine ⟨t, w', x, d, h, hx, deployment_replicas hd, Dict.get?_insert_self .., rfl, ?_⟩
  obtain ⟨a, f, e, hsnaps, -, -, -, -, -, -, hiff⟩ := applied_coherent_iff hk h hx
  obtain ⟨rfl, rfl, -⟩ : Sample.app (Sample.readyMade "settings") = a ∧ Sample.moved = f ∧ u = [] := by
    simpa [hsnaps] using hread
  rw [hiff]
  rintro (hname | ⟨generated, ca, hfirst⟩)
  · exact absurd hname (by decide)
  · exact absurd ((deployment_replicas hd).symm.trans (deployment_replicas hfirst)) (by decide)

end App

end SpinFleet
