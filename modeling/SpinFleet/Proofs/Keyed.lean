import SpinFleet.Proofs.Reads
import SpinFleet.Proofs.Interpreter
import SpinFleet.Reconcile.App
/-!
# Keyed — every object is stored under its own key

An object has its namespace and its name within itself, and the cluster stores it under just these.  Edits and calls
keep this (`Pass.Run.keyed`), so it holds of every cluster there is: it is a condition on the type of clusters that the
type does not say.
-/
namespace SpinFleet

def Dict.Keyed {α : Type} (key : α → ObjectKey) (d : Dict ObjectKey α) : Prop := ∀ k a, d.get? k = some a → key a = k

namespace Dict.Keyed

variable {α : Type} {key : α → ObjectKey} {d : Dict ObjectKey α}

theorem empty : Keyed key (.empty : Dict ObjectKey α) := fun _ _ h => by cases h

theorem insert (h : Keyed key d) {k : ObjectKey} {a : α} (ha : key a = k) : Keyed key (d.insert k a) := by
  intro k' b hb
  by_cases hk : k' = k
  · subst hk
    rw [get?_insert_self] at hb
    cases hb
    exact ha
  · rw [get?_insert_of_ne _ _ hk] at hb
    exact h k' b hb

theorem filter (h : Keyed key d) (p : ObjectKey → α → Bool) : Keyed key (d.filter p) := by
  intro k a ha
  rw [get?_filter] at ha
  exact h k a (Option.eq_some_of_filter_eq_some ha)

theorem erase (h : Keyed key d) (k : ObjectKey) : Keyed key (d.erase k) := h.filter _

end Dict.Keyed

namespace Cluster

/-- Every object is stored under its own key. -/
structure Keyed (w : Cluster) : Prop where
  apps : Dict.Keyed (fun a => a.metadata.key) w.apps
  executors : Dict.Keyed (fun e => e.metadata.key) w.executors
  deployments : Dict.Keyed (fun d => d.metadata.key) w.deployments
  services : Dict.Keyed (fun s => s.metadata.key) w.services
  secrets : Dict.Keyed (fun s => s.metadata.key) w.secrets
  configMaps : Dict.Keyed (fun c => c.metadata.key) w.configMaps

theorem keyed_empty : empty.Keyed := ⟨.empty, .empty, .empty, .empty, .empty, .empty⟩

variable {w w' : Cluster}

theorem Keyed.edit (h : w.Keyed) (x : Edit) : (w.edit x).Keyed := by
  cases x with
  | putApp => exact { h with apps := h.apps.insert rfl }
  | putExecutor => exact { h with executors := h.executors.insert rfl }
  | putDeployment => exact { h with deployments := h.deployments.insert rfl }
  | putService => exact { h with services := h.services.insert rfl }
  | putSecret => exact { h with secrets := h.secrets.insert rfl }
  | putConfigMap => exact { h with configMaps := h.configMaps.insert rfl }
  | delete kind k =>
    cases kind with
    | app => exact { h with apps := h.apps.erase k }
    | executor => exact { h with executors := h.executors.erase k }
    | deployment => exact { h with deployments := h.deployments.erase k }
    | service => exact { h with services := h.services.erase k }
    | secret => exact { h with secrets := h.secrets.erase k }
    | configMap => exact { h with configMaps := h.configMaps.erase k }

def ofEdits (xs : List Edit) : Cluster := xs.foldl Cluster.edit .empty

theorem keyed_ofEdits (xs : List Edit) : (ofEdits xs).Keyed := by
  unfold ofEdits
  generalize hw : empty = w
  have h : w.Keyed := hw ▸ keyed_empty
  clear hw
  induction xs generalizing w with
  | nil => exact h
  | cons x xs ih => exact ih _ (h.edit x)

theorem Keyed.perform (h : w.Keyed) (c : Call) : (w.perform c).cluster.Keyed := by
  unfold Cluster.perform
  cases c with
  | patchAppStatus n ns version status =>
    dsimp only
    split
    · exact h
    · rename_i a ha
      split
      · exact { h with apps := h.apps.insert (h.apps _ a ha) }
      · exact h
  | applyDeployment => exact { h with deployments := h.deployments.insert rfl }
  | deleteDeployment => exact { h with deployments := h.deployments.erase _ }
  | applyService => exact { h with services := h.services.insert rfl }
  | createSecret s =>
    dsimp only
    split
    · exact h
    · exact { h with secrets := h.secrets.insert rfl }
  | pruneSecrets => exact { h with secrets := h.secrets.filter _ }
  | addFinalizer n ns =>
    dsimp only
    split
    · exact h
    · rename_i e he
      exact { h with executors := h.executors.insert (h.executors _ e he) }
  | removeFinalizer n ns =>
    dsimp only
    split
    · exact h
    · rename_i e he
      unfold release
      dsimp only
      split
      · exact { h with executors := h.executors.erase _ }
      · exact { h with executors := h.executors.insert (h.executors _ e he) }
  | getApp | listApps | getExecutor | listExecutors | getDeployment | getSecret | getConfigMap => exact h

theorem Keyed.fails (h : w.Keyed) {c : Call} (hf : w.Fails c w') : w'.Keyed := by
  cases hf with
  | idle => exact h
  | pruning => exact { h with secrets := h.secrets.filter _ }

theorem Keyed.edited {A : Edit → Prop} (h : w.Keyed) (he : Edited A w w') : w'.Keyed := by
  induction he with
  | refl => exact h
  | step _ _ ih => exact ih (h.edit _)

theorem Keyed.leaves (h : w.Keyed) {c : Call} (hl : w.Leaves c w') : w'.Keyed := by
  rcases hl with rfl | hf
  · exact h.perform c
  · exact h.fails hf

theorem Stops.keyed {A : Edit → Prop} {L : List Call} {m : List (Cluster × Call)} (hs : Stops A w L m w')
    (h : w.Keyed) : w'.Keyed :=
  hs.keeps h (fun _ y _ hx => hx.edit y) fun _ _ _ _ hl hx => hx.leaves hl

end Cluster

/-- **Whatever is done to a cluster, every object is stored under its own key.** -/
theorem Pass.Run.keyed {α : Type} {A : Edit → Prop} {p : Pass α} {w w' : Cluster} {t : List Move} {r : Option α}
    (h : Pass.Run A p w t w' r) (hw : w.Keyed) : w'.Keyed := by
  induction h with
  | cut | done => exact hw
  | act _ ih => exact ih (hw.perform _)
  | fail hf _ ih => exact ih (hw.fails hf)
  | gather hg _ ih => exact ih (hw.edited hg.quiet.edited)
  | gatherCut hg => exact hw.edited hg.quiet.edited
  | publish _ ih => exact ih hw
  | record _ ih => exact ih hw
  | edit _ _ ih => exact ih (hw.edit _)

/-! ## A small cluster

One app with one store, and its executor. -/

namespace Sample

def key : ObjectKey := ⟨"default", "hello"⟩

def metadata (name : String) : ObjectMeta :=
  { ObjectMeta.empty with name := some name, ns := some key.ns, uid := some name }

def storeAt (url : String) : RuntimeConfig where
  loadFromSecret := none
  sqliteDatabases := []
  keyValueStores := [⟨"default", "redis", [⟨"url", some url, none⟩]⟩]
  llmCompute := none

def borrowing (secret : String) : RuntimeConfig :=
  { storeAt "" with
    keyValueStores := [⟨"default", "redis", [⟨"url", none, some ⟨none, some ⟨secret, "url", none⟩⟩⟩]⟩] }

def readyMade (secret : String) : RuntimeConfig where
  loadFromSecret := some secret
  sqliteDatabases := []
  keyValueStores := []
  llmCompute := none

def app (c : RuntimeConfig) : App where
  metadata := metadata key.name
  spec := { AppSpec.ofImage "example" with executor := "shim", runtimeConfig := c }
  status := none

def executor (c : DeploymentConfig) : Executor where
  metadata := metadata "shim"
  spec := ⟨true, some { c with runtimeClassName := some "wasm" }⟩
  status := none

def cluster (c : RuntimeConfig) : Cluster := .ofEdits [.putApp (app c), .putExecutor (executor .empty)]

def settings : Settings := ⟨none, ⟨0, 0⟩⟩

/-- A pass over the app, disturbed by a script. -/
def pass (deadline : Option Nat) (script : List Cue) (w : Cluster) : World × Option (Except Error Action) :=
  Simulation.run deadline (App.pass settings key).run (.ofCluster w script)

theorem pass_run (deadline : Option Nat) (script : List Cue) (w : Cluster) (hs : ∀ q ∈ script, q.edits = []) :
    ∃ t, (∀ m ∈ t, Simulation.FailsBy script m) ∧ Pass.Run undisturbed (App.pass settings key).run w t
      (pass deadline script w).1.cluster (pass deadline script w).2 :=
  Simulation.run_undisturbed deadline script _ w hs

theorem pass_undisturbed (w : Cluster) : ∃ t, (∀ c e, .failed c e ∉ t) ∧
    Pass.Run undisturbed (App.pass settings key).run w t (pass none [] w).1.cluster (pass none [] w).2 := by
  obtain ⟨t, ht, h⟩ := pass_run none [] w (List.forall_mem_nil _)
  refine ⟨t, fun c e hm => ?_, h⟩
  obtain ⟨q, hq, -⟩ := ht _ hm
  cases hq

def succeeds : Option (Except Error Action) → Bool
  | some (.ok _) => true
  | _ => false

theorem eq_of_succeeds {r : Option (Except Error Action)} (h : succeeds r = true) : ∃ v, r = some (.ok v) := by
  match r, h with
  | some (.ok v), _ => exact ⟨v, rfl⟩

/-- The cluster in which an app was changed after a pass. -/
def changed (before after : RuntimeConfig) : Cluster :=
  (pass none [] (cluster before)).1.cluster.edit (.putApp (app after))

theorem keyed_changed (before after : RuntimeConfig) : (changed before after).Keyed := by
  obtain ⟨t, -, h⟩ := pass_run none [] (cluster before) (List.forall_mem_nil _)
  exact (h.keyed (Cluster.keyed_ofEdits _)).edit _

theorem changed_app (before after : RuntimeConfig) : (changed before after).apps.get? key = some (app after) :=
  Dict.get?_insert_self ..

end Sample

end SpinFleet
