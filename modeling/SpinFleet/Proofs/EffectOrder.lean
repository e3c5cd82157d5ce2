import SpinFleet.Proofs.Chronicle
import SpinFleet.Proofs.Keyed
import SpinFleet.Proofs.Precedence
/-!
# EffectOrder — a pass over an app keeps the order of effects

Along a pass the history says which app and which executor are in use (`InUse`), and each part of the pass adds to it
what the next part needs: the `Secret`s that were created, the `Deployment` that was applied.  `App.pass_inOrder` puts
the parts together; with `Simulation.run_timeline` it holds of what every world writes down.
-/
namespace SpinFleet

variable {h h' : List Tick} {key : ObjectKey} {a : App} {e : Executor} {s : Settings}

theorem adds_heard {c : Call} {answer : Except Error c.Answer} (hp : Tick.Plain (.heard c answer)) :
    Adds h (h ++ [.begins c, .heard c answer]) :=
  ⟨_, rfl, List.forall_mem_cons.2 ⟨trivial, List.forall_mem_singleton.2 hp⟩⟩

theorem made_heard {c : Call} {answer : c.Answer} : Made (h ++ [.begins c, .heard c (.ok answer)]) c :=
  ⟨answer, List.mem_append_right _ (List.mem_cons_of_mem _ List.mem_cons_self)⟩

theorem Ongoing.heard {c : Call} {answer : c.Answer} (hg : Ongoing h) (hc : ∀ v, c ≠ .applyService v) :
    Ongoing (h ++ [.begins c, .heard c (.ok answer)]) := by
  refine ⟨fun c' e hm => ?_, fun m hm => ?_, fun v ⟨x, hm⟩ => ?_⟩
  · rcases List.mem_append.1 hm with hm | hm
    · exact hg.calm c' e hm
    · rcases List.mem_cons.1 hm with hm | hm
      · cases hm
      · cases List.mem_singleton.1 hm
  · rcases List.mem_append.1 hm with hm | hm
    · exact hg.unrecorded m hm
    · simp at hm
  · rcases List.mem_append.1 hm with hm | hm
    · exact hg.unserved v ⟨x, hm⟩
    · rcases List.mem_cons.1 hm with hm | hm
      · cases hm
      · cases List.mem_singleton.1 hm
        exact hc v rfl

/-! ## What is in use after a reading -/

section Readings

variable (h : List Tick) (n ns : String)

theorem app_getApp (o : Option App) :
    appInUse (h ++ [.begins (.getApp n ns), .heard (.getApp n ns) (.ok o)]) = o := last_concat rfl

theorem app_getExecutor (o : Option Executor) :
    appInUse (h ++ [.begins (.getExecutor n ns), .heard (.getExecutor n ns) (.ok o)]) = appInUse h := last_append rfl

theorem executor_getExecutor (o : Option Executor) :
    executorInUse (h ++ [.begins (.getExecutor n ns), .heard (.getExecutor n ns) (.ok o)]) = o := last_concat rfl

theorem executor_getApp (o : Option App) :
    executorInUse (h ++ [.begins (.getApp n ns), .heard (.getApp n ns) (.ok o)]) = executorInUse h := last_append rfl

end Readings

structure InUse (a : App) (e : Executor) (h : List Tick) : Prop where
  ongoing : Ongoing h
  app : appInUse h = some a
  executor : executorInUse h = some e

theorem InUse.adds (hu : InUse a e h) (ha : Adds h h') : InUse a e h' :=
  ⟨ha.ongoing hu.ongoing, ha.appInUse_eq.trans hu.app, ha.executorInUse_eq.trans hu.executor⟩

theorem Storage.configSecret_eq {generated config : Option String}
    (hc : Storage.configSecret a generated = .ok config) :
    (∃ n, a.spec.runtimeConfig.verbatimSecret = some n ∧ config = some n) ∨
    a.spec.runtimeConfig.verbatimSecret = none ∧ config = generated := by
  unfold Storage.configSecret at hc
  split at hc
  · cases hc
  · rename_i n hv
    cases hc
    exact .inl ⟨n, hv, rfl⟩
  · rename_i hv
    cases hc
    exact .inr ⟨hv, rfl⟩

namespace App

open Attempt

/-! ## Before the children -/

theorem executorOrWarn_keeps (hg : Ongoing h) (ha : appInUse h = some a) (ns : String) :
    Keeps key h (a.executorOrWarn ns) fun e h' => InUse a e h' := by
  refine keeps_bind (keeps_call hg trivial) fun o h' hh => ?_
  have hg' : Ongoing h' := by
    rw [hh]
    exact hg.heard fun v => nofun
  cases o with
  | none => exact keeps_publish_throw hg'.settled
  | some e =>
    rw [hh] at hg' ⊢
    exact keeps_pure ⟨hg', (app_getExecutor ..).trans ha, executor_getExecutor ..⟩

theorem publishStatus_keeps (hg : Ongoing h) : Keeps key h (a.publishStatus s e) fun _ h' => Adds h h' := by
  refine keeps_bind (keeps_call hg trivial) fun d h₁ h₁' => ?_
  have hadds : Adds h h₁ := h₁' ▸ adds_heard trivial
  refine keeps_bind (keeps_tryCall (hadds.ongoing hg) trivial) fun answer h₂ h₂' => ?_
  refine keeps_pure (hadds.trans ?_)
  rw [h₂']
  refine adds_heard ?_
  cases answer with
  | ok => trivial
  | error => rfl

/-! ## The `Secret`s and the `Deployment` -/

theorem resolveDocument_keeps (hg : Ongoing h) : Keeps key h a.resolveDocument fun d h' =>
    Adds h h' ∧ (d.isSome → a.spec.runtimeConfig.verbatimSecret = none) := by
  refine keeps_bind (References.keeps_fetch _ hg) fun r h' ha => ?_
  cases hv : a.spec.runtimeConfig.verbatimSecret with
  | some n => exact keeps_pure ⟨ha, nofun⟩
  | none =>
    refine keeps_bind (keeps_ofExcept (ha.ongoing hg).settled) fun d h'' hd => ?_
    exact keeps_pure ⟨hd.1 ▸ ha, fun _ => rfl⟩

theorem documentOrWarn_keeps (hg : Ongoing h) : Keeps key h a.documentOrWarn fun d h' =>
    Adds h h' ∧ (d.isSome → a.spec.runtimeConfig.verbatimSecret = none) := by
  refine keeps_tryCatch (resolveDocument_keeps hg) fun e h' hs => ?_
  cases e with
  | missingDependency => exact keeps_publish_throw hs
  | kube | runtimeConfig | construct | dependentsExist | serialization | timeout | internal => exact keeps_throw hs

/-- A configuration that is generated is one that the author has not named, and its `Secret` has been created. -/
theorem ensureConfigSecret_keeps (hg : Ongoing h) (hl : Live h) : Keeps key h a.ensureConfigSecret fun g h' =>
    Adds h h' ∧ ∀ n, g = some n → a.spec.runtimeConfig.verbatimSecret = none ∧ Created h' ⟨a.ns, n⟩ := by
  refine keeps_bind (documentOrWarn_keeps hg) fun o h₁ ⟨hadds, hv⟩ => ?_
  cases o with
  | none => exact keeps_pure ⟨hadds, nofun⟩
  | some d =>
    refine keeps_bind (keeps_ofExcept (hadds.ongoing hg).settled) fun x h₂ ⟨h₂', hx⟩ => ?_
    obtain rfl := h₂'
    refine keeps_bind (keeps_call (hadds.ongoing hg) (hadds.live hl)) fun _ h₃ h₃' => ?_
    refine keeps_pure ⟨hadds.trans (h₃' ▸ adds_heard trivial), fun n hn => ?_⟩
    cases hn
    exact ⟨hv rfl, x, (configSecret_ok hx).2.1, h₃' ▸ made_heard⟩

theorem ensureCaSecret_keeps (hg : Ongoing h) (hl : Live h) (c : DeploymentConfig) :
    Keeps key h (a.ensureCaSecret s c) fun ca h' => Adds h h' ∧ ∀ n, ca = some n →
      c.caSecret = some n ∨ c.caSecret = none ∧ n = defaultCaSecret ∧ Created h' ⟨a.ns, n⟩ := by
  unfold App.ensureCaSecret
  cases c.caSecret with
  | some name => exact keeps_pure ⟨.refl h, fun n hn => .inl hn⟩
  | none =>
    by_cases hi : (!c.installDefaultCACerts) = true
    · simp only [if_pos hi]
      exact keeps_pure ⟨.refl h, nofun⟩
    · simp only [if_neg hi]
      cases s.caBundle with
      | none => exact keeps_throw hg.settled
      | some bundle =>
        refine keeps_bind (keeps_call hg hl) fun _ h' hh => ?_
        refine keeps_pure ⟨hh ▸ adds_heard trivial, fun n hn => ?_⟩
        cases hn
        exact .inr ⟨trivial, rfl, SpinFleet.caSecret a.ns bundle, rfl, hh ▸ made_heard⟩

theorem deploymentOrWarn_keeps (hg : Ongoing h) (c : DeploymentConfig) (generated ca : Option String) :
    Keeps key h (a.deploymentOrWarn c generated ca) fun d h' => h' = h ∧ a.deployment c generated ca = .ok d := by
  unfold App.deploymentOrWarn
  cases a.deployment c generated ca with
  | ok d => exact keeps_pure ⟨rfl, rfl⟩
  | error err => exact keeps_publish_throw hg.settled

/-- **A `Deployment` is applied only after its `Secret`s**, and only after it are others pruned. -/
theorem realize_keeps (hu : InUse a e h) (hd : a.metadata.isDeleting = false) (hc : e.spec.createDeployment = true) :
    Keeps key h (a.realize s e.spec.config) fun _ h' =>
      Adds h h' ∧ ∃ keep, Made h' (.pruneSecrets a.name a.ns keep) := by
  have hl : Live h := ⟨a, hu.app, hd⟩
  refine keeps_bind (ensureConfigSecret_keeps hu.ongoing hl) fun generated h₁ ⟨ha₁, hgen⟩ => ?_
  refine keeps_bind (ensureCaSecret_keeps (ha₁.ongoing hu.ongoing) (ha₁.live hl) _) fun ca h₂ ⟨ha₁₂, hca⟩ => ?_
  have ha₂ : Adds h h₂ := ha₁.trans ha₁₂
  have hu₂ : InUse a e h₂ := hu.adds ha₂
  refine keeps_bind (deploymentOrWarn_keeps hu₂.ongoing _ generated ca) fun d h₃ ⟨h₃', hdep⟩ => ?_
  obtain rfl := h₃'
  obtain ⟨hkey, -, config, hconfig, hvol⟩ := deployment_ok hdep
  have hprov : Provided h₃ a e.spec.config config ca := by
    refine ⟨fun n hn => ?_, hca⟩
    rcases Storage.configSecret_eq hconfig with ⟨m, hv, rfl⟩ | ⟨hv, rfl⟩
    · exact .inl (hn ▸ hv)
    · exact .inr ⟨hv, (hgen n hn).2.mono ha₁₂.subset⟩
  have hmay : MayApply h₃ d := ⟨a, e, config, ca, hu₂.app, hu₂.executor, hc, hkey, hvol, hprov⟩
  refine keeps_bind (keeps_call hu₂.ongoing ⟨ha₂.live hl, hmay⟩) fun _ h₄ h₄' => ?_
  have ha₄ : Adds h h₄ := ha₂.trans (h₄' ▸ adds_heard trivial)
  have happlied : Made h₄ (.applyDeployment d) := h₄' ▸ made_heard
  have hfollows : Call.Follows key h₄ (.pruneSecrets a.name a.ns generated) := ⟨ha₄.live hl, d, hkey, happlied⟩
  refine (keeps_call (ha₄.ongoing hu.ongoing) hfollows).mono fun _ h₅ h₅' => ?_
  exact ⟨ha₄.trans (h₅' ▸ adds_heard trivial), generated, h₅' ▸ made_heard⟩

/-! ## The whole pass -/

theorem serve_keeps (hu : InUse a e h) (hd : a.metadata.isDeleting = false) (hm : MayServe key h) (executor : String) :
    Keeps key h (do
      let service ← Attempt.ofExcept a.service
      Attempt.call (.applyService service)
      Attempt.record (.appInfo key.name key.ns executor)
      return Action.awaitChange) fun _ h' => Settled h' := by
  refine keeps_bind (keeps_ofExcept hu.ongoing.settled) fun v h₁ ⟨h₁', _⟩ => ?_
  obtain rfl := h₁'
  refine keeps_bind (keeps_call hu.ongoing ⟨⟨a, hu.app, hd⟩, hm⟩) fun _ h₂ h₂' => ?_
  have hserved : Made h₂ (.applyService v) := h₂' ▸ made_heard
  refine keeps_bind (keeps_record ⟨v, hserved⟩) fun _ h₃ h₃' => keeps_pure ?_
  subst h₃'
  constructor
  · exact fun _ => ⟨v, hserved.mono (List.subset_append_left ..)⟩
  · exact fun _ => ⟨_, List.mem_append_right _ List.mem_cons_self⟩

theorem converge_keeps (hu : InUse a e h) (executor : String) :
    Keeps key h (a.converge s key executor e) fun _ h' => Settled h' := by
  unfold App.converge
  by_cases hd : a.metadata.isDeleting = true
  · rw [if_pos hd]
    exact keeps_pure hu.ongoing.settled
  rw [if_neg hd]
  have hd : a.metadata.isDeleting = false := Bool.eq_false_iff.2 hd
  by_cases hc : e.spec.createDeployment = true
  · simp only [if_pos hc]
    refine keeps_bind (realize_keeps hu hd hc) fun _ h' ⟨ha, hpruned⟩ => ?_
    have hu' : InUse a e h' := hu.adds ha
    exact serve_keeps hu' hd ⟨a, e, hu'.app, hu'.executor, by rwa [if_pos hc]⟩ executor
  · simp only [if_neg hc]
    refine keeps_bind (keeps_call hu.ongoing ⟨a, hu.app, hd⟩) fun _ h' hh => ?_
    have hu' : InUse a e h' := hu.adds (hh ▸ adds_heard trivial)
    have hdeleted : Made h' (.deleteDeployment key.name key.ns) := hh ▸ made_heard
    exact serve_keeps hu' hd ⟨a, e, hu'.app, hu'.executor, by rwa [if_neg hc]⟩ executor

theorem pass_keeps (s : Settings) (key : ObjectKey) : Keeps key [] (App.pass s key) fun _ h => Settled h := by
  have hg : Ongoing [] := ⟨fun _ _ hm => (List.not_mem_nil hm).elim, fun _ => List.not_mem_nil,
    fun _ ⟨_, hm⟩ => (List.not_mem_nil hm).elim⟩
  refine keeps_bind (keeps_call hg trivial) fun o h₁ h₁' => ?_
  have hg₁ : Ongoing h₁ := by
    rw [h₁']
    exact hg.heard fun v => nofun
  cases o with
  | none => exact keeps_pure hg₁.settled
  | some a =>
    have happ : appInUse h₁ = some a := by
      rw [h₁']
      exact app_getApp ..
    refine keeps_bind (executorOrWarn_keeps hg₁ happ key.ns) fun e h₂ hu => ?_
    by_cases hc : e.spec.createDeployment = true
    · simp only [if_pos hc]
      refine keeps_bind (publishStatus_keeps hu.ongoing) fun _ h₃ ha => ?_
      have hu₃ : InUse a e h₃ := hu.adds ha
      refine keeps_bind (keeps_call hu₃.ongoing trivial) fun o h₄ h₄' => ?_
      have hg₄ : Ongoing h₄ := by
        rw [h₄']
        exact hu₃.ongoing.heard fun v => nofun
      cases o with
      | none => exact keeps_pure hg₄.settled
      | some fresh =>
        rw [h₄'] at hg₄ ⊢
        exact converge_keeps ⟨hg₄, app_getApp .., (executor_getApp ..).trans hu₃.executor⟩ a.spec.executor
    · simp only [if_neg hc]
      exact converge_keeps hu a.spec.executor

/-- **A pass keeps the order of effects**: whatever its calls are answered, and wherever it is dropped. -/
theorem pass_inOrder {t : List Tick} {r : Option (Except Error Action)}
    (ht : Pass.Timeline (App.pass s key).run t r) : InOrder key t := by
  obtain ⟨hfits, hr⟩ := pass_keeps s key t r ht
  refine hfits.inOrder ?_
  rcases r with _ | _ | _ <;> exact hr

end App

def Tick.verb? : Tick → Option String
  | .begins c => some c.verb
  | _ => none

theorem verbs_marked (t : List Tick) :
    (t.filter Simulation.isMarked).filterMap Tick.verb? = t.filterMap Tick.verb? := by
  rw [List.filterMap_filter]
  congr 1
  funext x
  cases x <;> rfl

namespace App

/-- A pass that gets through. -/
theorem pass_inOrder_sample :
    ∃ t, Pass.Timeline (App.pass Sample.settings Sample.key).run t
        (Sample.pass none [] (Sample.cluster (Sample.storeAt "a"))).2 ∧
      t.filterMap Tick.verb? = ["get_app", "get_executor", "get_deployment", "patch_app_status", "get_app",
        "create_secret_if_absent", "apply_deployment", "prune_runtime_config_secrets", "apply_service"] ∧
      InOrder Sample.key t := by
  obtain ⟨t, ht, hsaw⟩ := Simulation.run_timeline none (App.pass Sample.settings Sample.key).run
    (.ofCluster (Sample.cluster (Sample.storeAt "a")) [])
  refine ⟨t, ht, ?_, pass_inOrder ht⟩
  have hmarks : Simulation.marks (Sample.pass none [] (Sample.cluster (Sample.storeAt "a"))).1 =
      t.filter Simulation.isMarked := hsaw
  rw [← verbs_marked, ← hmarks]
  decide +kernel

end App

end SpinFleet
