import SpinFleet.Proofs.Writes
/-!
# Frames — what a call leaves as it is

Every call that writes has one kind of objects that it writes to (`Call.target`), and leaves all others as they are,
whether it acts or fails (`Cluster.SameBut`).  Of the objects of its own kind it leaves all but those that it is about:
creating a `Secret` loses none, pruning deletes none but stale ones, and writing down the status of an app does not
touch what the app declares (`App.Declares`).
-/
namespace SpinFleet

def Call.target : Call → Option Kind
  | .patchAppStatus .. => some .app
  | .applyDeployment _ | .deleteDeployment .. => some .deployment
  | .applyService _ => some .service
  | .createSecret _ | .pruneSecrets .. => some .secret
  | .addFinalizer .. | .removeFinalizer .. => some .executor
  | _ => none

/-- Two versions of an app that differ in nothing but what was observed of it. -/
structure App.Declares (a b : App) : Prop where
  spec : b.spec = a.spec
  metadata : b.metadata = { a.metadata with resourceVersion := b.metadata.resourceVersion }

theorem App.Declares.refl (a : App) : a.Declares a := ⟨rfl, rfl⟩

theorem App.Declares.trans {a b c : App} (h : a.Declares b) (h' : b.Declares c) : a.Declares c :=
  ⟨h'.spec.trans h.spec, by rw [h'.metadata, h.metadata]⟩

theorem App.Declares.key {a b : App} (h : a.Declares b) : b.metadata.key = a.metadata.key := by
  rw [h.metadata]
  rfl

theorem App.Declares.isDeleting {a b : App} (h : a.Declares b) : b.metadata.isDeleting = a.metadata.isDeleting := by
  rw [h.metadata]
  rfl

namespace Cluster

variable {w x w' : Cluster} {c : Call}

/-! ## Kinds -/

structure SameBut (k : Option Kind) (w w' : Cluster) : Prop where
  apps : k ≠ some .app → w'.apps = w.apps
  executors : k ≠ some .executor → w'.executors = w.executors
  deployments : k ≠ some .deployment → w'.deployments = w.deployments
  services : k ≠ some .service → w'.services = w.services
  secrets : k ≠ some .secret → w'.secrets = w.secrets
  configMaps : k ≠ some .configMap → w'.configMaps = w.configMaps

theorem SameBut.refl (k : Option Kind) (w : Cluster) : SameBut k w w :=
  ⟨fun _ => rfl, fun _ => rfl, fun _ => rfl, fun _ => rfl, fun _ => rfl, fun _ => rfl⟩

theorem SameBut.trans {k : Option Kind} {w x y : Cluster} (h : SameBut k w x) (h' : SameBut k x y) : SameBut k w y :=
  ⟨fun hk => (h'.apps hk).trans (h.apps hk), fun hk => (h'.executors hk).trans (h.executors hk),
    fun hk => (h'.deployments hk).trans (h.deployments hk), fun hk => (h'.services hk).trans (h.services hk),
    fun hk => (h'.secrets hk).trans (h.secrets hk), fun hk => (h'.configMaps hk).trans (h.configMaps hk)⟩

theorem sameBut_apps (d : Dict ObjectKey App) : SameBut (some .app) w { w with apps := d } :=
  ⟨fun h => absurd rfl h, fun _ => rfl, fun _ => rfl, fun _ => rfl, fun _ => rfl, fun _ => rfl⟩

theorem sameBut_executors (d : Dict ObjectKey Executor) : SameBut (some .executor) w { w with executors := d } :=
  ⟨fun _ => rfl, fun h => absurd rfl h, fun _ => rfl, fun _ => rfl, fun _ => rfl, fun _ => rfl⟩

theorem sameBut_deployments (d : Dict ObjectKey Deployment) :
    SameBut (some .deployment) w { w with deployments := d } :=
  ⟨fun _ => rfl, fun _ => rfl, fun h => absurd rfl h, fun _ => rfl, fun _ => rfl, fun _ => rfl⟩

theorem sameBut_services (d : Dict ObjectKey Service) : SameBut (some .service) w { w with services := d } :=
  ⟨fun _ => rfl, fun _ => rfl, fun _ => rfl, fun h => absurd rfl h, fun _ => rfl, fun _ => rfl⟩

theorem sameBut_secrets (d : Dict ObjectKey Secret) : SameBut (some .secret) w { w with secrets := d } :=
  ⟨fun _ => rfl, fun _ => rfl, fun _ => rfl, fun _ => rfl, fun h => absurd rfl h, fun _ => rfl⟩

/-- **A call changes objects of its own kind only.** -/
theorem perform_sameBut (w : Cluster) (c : Call) : SameBut c.target w (w.perform c).cluster := by
  unfold perform
  cases c with
  | patchAppStatus n ns version status =>
    dsimp only
    split
    · exact .refl _ w
    · split
      · exact sameBut_apps _
      · exact .refl _ w
  | applyDeployment | deleteDeployment => exact sameBut_deployments _
  | applyService => exact sameBut_services _
  | createSecret s =>
    dsimp only
    split
    · exact .refl _ w
    · exact sameBut_secrets _
  | pruneSecrets => exact sameBut_secrets _
  | addFinalizer n ns =>
    dsimp only
    split
    · exact .refl _ w
    · exact sameBut_executors _
  | removeFinalizer n ns =>
    dsimp only
    split
    · exact .refl _ w
    · unfold release
      dsimp only
      split
      · exact sameBut_executors _
      · exact sameBut_executors _
  | getApp | listApps | getExecutor | listExecutors | getDeployment | getSecret | getConfigMap => exact .refl _ w

theorem Fails.sameBut (h : w.Fails c w') : SameBut c.target w w' := by
  cases h with
  | idle => exact .refl _ w
  | pruning => exact sameBut_secrets _

theorem Leaves.sameBut (h : w.Leaves c w') : SameBut c.target w w' := by
  rcases h with rfl | h
  · exact w.perform_sameBut c
  · exact h.sameBut

theorem Stops.sameBut {k : Option Kind} {L : List Call} {made : List (Cluster × Call)}
    (hs : Stops undisturbed w L made w') (hL : ∀ c ∈ L, c.target = k) : SameBut k w w' :=
  hs.keeps (.refl k w) (fun _ _ hx => hx.elim) fun c hc _ _ hl hx => hx.trans (hL c hc ▸ hl.sameBut)

/-! ## `Secret`s -/

theorem createSecret_get?_self (w : Cluster) (s : Secret) :
    (w.perform (.createSecret s)).cluster.secrets.get? s.metadata.key =
      some ((w.secrets.get? s.metadata.key).getD s) := by
  unfold perform
  dsimp only
  cases h : w.secrets.get? s.metadata.key with
  | some s' =>
    rw [if_pos (by simp [Dict.contains, h])]
    exact h
  | none =>
    rw [if_neg (by simp [Dict.contains, h])]
    exact Dict.get?_insert_self ..

theorem createSecret_get?_of_ne (w : Cluster) {s : Secret} {k : ObjectKey} (h : k ≠ s.metadata.key) :
    (w.perform (.createSecret s)).cluster.secrets.get? k = w.secrets.get? k := by
  unfold perform
  dsimp only
  split
  · rfl
  · exact Dict.get?_insert_of_ne _ _ h

theorem Leaves.createSecret_get?_of_ne {s : Secret} {k : ObjectKey} (h : w.Leaves (.createSecret s) w')
    (hk : k ≠ s.metadata.key) : w'.secrets.get? k = w.secrets.get? k := by
  rcases h with rfl | h
  · exact Cluster.createSecret_get?_of_ne w hk
  · cases h
    rfl

theorem createSecret_keeps {s s' : Secret} {k : ObjectKey} (h : w.secrets.get? k = some s') :
    (w.perform (.createSecret s)).cluster.secrets.get? k = some s' := by
  by_cases hk : k = s.metadata.key
  · subst hk
    rw [createSecret_get?_self, h]
    rfl
  · rw [createSecret_get?_of_ne w hk, h]

theorem deleteSecrets_get? (w : Cluster) (ns : String) (names : List String) (k : ObjectKey) :
    (w.deleteSecrets ns names).secrets.get? k =
      if k.ns = ns ∧ k.name ∈ names then none else w.secrets.get? k := by
  unfold deleteSecrets
  rw [Dict.get?_filter]
  by_cases h : k.ns = ns ∧ k.name ∈ names
  · rw [if_pos h]
    cases w.secrets.get? k <;> simp [Option.filter, h.1, h.2]
  · rw [if_neg h]
    cases w.secrets.get? k with
    | none => rfl
    | some s =>
      by_cases hns : k.ns = ns
      · have hn : k.name ∉ names := fun hn => h ⟨hns, hn⟩
        simp [Option.filter, hn]
      · simp [Option.filter, hns]

theorem not_mem_staleSecrets_keep (app n : String) (ss : List Secret) : n ∉ staleSecrets app ss (some n) := by
  intro h
  obtain ⟨s, hs, rfl⟩ := List.mem_map.1 h
  have hs := (List.mem_filter.1 hs).2
  simp [isStale] at hs

theorem Leaves.prune {app ns : String} {keep : Option String} (h : w.Leaves (.pruneSecrets app ns keep) w') :
    ∃ names, names <+: staleSecrets app (w.labelledSecrets app ns) keep ∧ w' = w.deleteSecrets ns names := by
  rcases h with rfl | h
  · exact ⟨_, List.prefix_rfl, rfl⟩
  · cases h with
    | pruning h => exact ⟨_, h, rfl⟩
    | idle =>
      refine ⟨[], List.nil_prefix, ?_⟩
      unfold deleteSecrets
      have hf : w.secrets.filter (fun k _ => !(k.ns == ns && ([] : List String).contains k.name)) = w.secrets := by
        refine Dict.ext_get? fun k => ?_
        rw [Dict.get?_filter]
        cases w.secrets.get? k <;> simp [Option.filter]
      rw [hf]

theorem prune_keeps {app ns n : String} {names : List String}
    (h : names <+: staleSecrets app (w.labelledSecrets app ns) (some n)) :
    (w.deleteSecrets ns names).secrets.get? ⟨ns, n⟩ = w.secrets.get? ⟨ns, n⟩ := by
  rw [deleteSecrets_get?, if_neg]
  exact fun hn => not_mem_staleSecrets_keep app n _ (h.subset hn.2)

/-! ## `Deployment`s -/

theorem applyDeployment_get?_self (w : Cluster) (d : Deployment) :
    (w.perform (.applyDeployment d)).cluster.deployments.get? d.metadata.key =
      some { d with status := w.deployments.get? d.metadata.key >>= Deployment.status } :=
  Dict.get?_insert_self ..

/-! ## Apps -/

theorem patchAppStatus_get? {n ns version : String} {status : AppStatus} {k : ObjectKey} {b : App}
    (h : (w.perform (.patchAppStatus n ns version status)).cluster.apps.get? k = some b) :
    ∃ a, w.apps.get? k = some a ∧ a.Declares b := by
  unfold perform at h
  dsimp only at h
  split at h
  · exact ⟨b, h, rfl, rfl⟩
  · rename_i a ha
    split at h
    · dsimp only at h
      by_cases hk : k = ⟨ns, n⟩
      · subst hk
        rw [Dict.get?_insert_self] at h
        cases h
        exact ⟨a, ha, rfl, rfl⟩
      · rw [Dict.get?_insert_of_ne _ _ hk] at h
        exact ⟨b, h, rfl, rfl⟩
    · exact ⟨b, h, rfl, rfl⟩

theorem patchAppStatus_isSome {n ns version : String} {status : AppStatus} {k : ObjectKey}
    (h : (w.apps.get? k).isSome = true) :
    ((w.perform (.patchAppStatus n ns version status)).cluster.apps.get? k).isSome = true := by
  unfold perform
  dsimp only
  split
  · exact h
  · split
    · dsimp only
      by_cases hk : k = ⟨ns, n⟩
      · rw [hk, Dict.get?_insert_self]
        rfl
      · rw [Dict.get?_insert_of_ne _ _ hk]
        exact h
    · exact h

/-- **No call changes what apps declare**, or makes an app. -/
theorem perform_declares {c : Call} {k : ObjectKey} {b : App} (h : (w.perform c).cluster.apps.get? k = some b) :
    ∃ a, w.apps.get? k = some a ∧ a.Declares b := by
  by_cases ht : c.target = some .app
  · cases c with
    | patchAppStatus => exact patchAppStatus_get? h
    | _ => cases ht
  · rw [(w.perform_sameBut c).apps ht] at h
    exact ⟨b, h, .refl b⟩

theorem Fails.apps_eq (h : w.Fails c w') : w'.apps = w.apps := by
  cases h with
  | idle => rfl
  | pruning => rfl

/-- So whoever writes down statuses leaves the apps that there are and what they declare, wherever he stops. -/
theorem Stops.declares {key : ObjectKey} {L : List Call} {m : List (Cluster × Call)} (hs : Stops undisturbed w L m w')
    (hL : ∀ c ∈ L, c.target = some .app) :
    (∀ b, w'.apps.get? key = some b → ∃ a, w.apps.get? key = some a ∧ a.Declares b) ∧
      ((w.apps.get? key).isSome = true → (w'.apps.get? key).isSome = true) := by
  refine hs.keeps (J := fun x => (∀ b, x.apps.get? key = some b → ∃ a, w.apps.get? key = some a ∧ a.Declares b) ∧
      ((w.apps.get? key).isSome = true → (x.apps.get? key).isSome = true))
    ⟨fun b hb => ⟨b, hb, .refl b⟩, id⟩ (fun _ _ hx => hx.elim) (fun c hc x y hl hx => ?_)
  rcases hl with rfl | hf
  · refine ⟨fun b hb => ?_, fun h => ?_⟩
    · obtain ⟨b', hb', hd⟩ := perform_declares hb
      obtain ⟨a, ha, hd'⟩ := hx.1 b' hb'
      exact ⟨a, ha, hd'.trans hd⟩
    · have ht := hL c hc
      cases c with
      | patchAppStatus => exact patchAppStatus_isSome (hx.2 h)
      | _ => cases ht
  · rw [hf.apps_eq]
    exact hx

end Cluster

end SpinFleet
