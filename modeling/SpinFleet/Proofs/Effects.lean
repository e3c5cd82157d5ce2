import SpinFleet.Proofs.Generated
/-!
# Effects — what calls do, seen at one key

Of the children of an app the cluster holds at most one of a kind under a key (`Held`), and what a call does to them
depends on nothing else (`Cluster.held_perform`).  A pass that was cut has therefore had, at every key, the effect of a
first part of its calls (`Cluster.Stops.held`), also if it was cut in the middle of the pruning.

A call that is repeated has no effect, and none of the calls that come after it changes this (`Call.Lasting`).  So a
first part of the calls is absorbed by all of them (`effects_absorb`).
-/
namespace SpinFleet

structure Held where
  secret : Option Secret
  deployment : Option Deployment
  service : Option Service

def Cluster.held (w : Cluster) (k : ObjectKey) : Held := ⟨w.secrets.get? k, w.deployments.get? k, w.services.get? k⟩

def prunes (app ns : String) (keep : Option String) (k : ObjectKey) (s : Secret) : Bool :=
  k.ns == ns && isGeneratedName app k.name && s.isLabelled app && (s.bytes? runtimeConfigKey).isSome
    && keep != some k.name

namespace Call

def effect (k : ObjectKey) : Call → Held → Held
  | .createSecret s, h => if k = s.metadata.key then { h with secret := some (h.secret.getD s) } else h
  | .pruneSecrets app ns keep, h => { h with secret := h.secret.filter fun s => !prunes app ns keep k s }
  | .applyDeployment d, h =>
    if k = d.metadata.key then { h with deployment := some { d with status := h.deployment >>= Deployment.status } }
    else h
  | .deleteDeployment n ns, h => if k = ⟨ns, n⟩ then { h with deployment := none } else h
  | .applyService v, h => if k = v.metadata.key then { h with service := some v } else h
  | _, h => h

/-- What one call has done, another does not undo. -/
def Lasting (c c' : Call) : Prop := ∀ k h, c.effect k h = h → c.effect k (c'.effect k h) = c'.effect k h

theorem effect_effect (c : Call) (k : ObjectKey) (h : Held) : c.effect k (c.effect k h) = c.effect k h := by
  cases c with
  | createSecret s =>
    unfold effect
    by_cases hk : k = s.metadata.key
    · simp [hk]
    · simp [hk]
  | pruneSecrets app ns keep =>
    unfold effect
    simp [Option.filter_filter]
  | applyDeployment d =>
    unfold effect
    by_cases hk : k = d.metadata.key
    · simp [hk]
    · simp [hk]
  | deleteDeployment n ns =>
    unfold effect
    by_cases hk : k = ⟨ns, n⟩
    · simp [hk]
    · simp [hk]
  | applyService v =>
    unfold effect
    by_cases hk : k = v.metadata.key
    · simp [hk]
    · simp [hk]
  | _ => rfl

theorem effect_of_target (c : Call) (k : ObjectKey) :
    (c.target = some .secret ∧ ∃ f : Option Secret → Option Secret,
      ∀ h, c.effect k h = { h with secret := f h.secret }) ∨
    (c.target = some .deployment ∧ ∃ f : Option Deployment → Option Deployment,
      ∀ h, c.effect k h = { h with deployment := f h.deployment }) ∨
    (c.target = some .service ∧ ∃ f : Option Service → Option Service,
      ∀ h, c.effect k h = { h with service := f h.service }) ∨
    ∀ h : Held, c.effect k h = h := by
  cases c with
  | createSecret s =>
    refine .inl ⟨rfl, fun o => if k = s.metadata.key then some (o.getD s) else o, fun h => ?_⟩
    unfold effect
    dsimp only
    split <;> rfl
  | pruneSecrets app ns keep => exact .inl ⟨rfl, _, fun h => rfl⟩
  | applyDeployment d =>
    refine .inr (.inl ⟨rfl,
      fun o => if k = d.metadata.key then some { d with status := o >>= Deployment.status } else o,
      fun h => ?_⟩)
    unfold effect
    dsimp only
    split <;> rfl
  | deleteDeployment n ns =>
    refine .inr (.inl ⟨rfl, fun o => if k = ⟨ns, n⟩ then none else o, fun h => ?_⟩)
    unfold effect
    dsimp only
    split <;> rfl
  | applyService v =>
    refine .inr (.inr (.inl ⟨rfl, fun o => if k = v.metadata.key then some v else o, fun h => ?_⟩))
    unfold effect
    dsimp only
    split <;> rfl
  | _ => exact .inr (.inr (.inr fun _ => rfl))

theorem effect_of_app {c : Call} (hc : c.target = some .app) (k : ObjectKey) (h : Held) : c.effect k h = h := by
  cases c with
  | patchAppStatus => rfl
  | _ => cases hc

theorem effect_deployment {c : Call} (hc : c.target ≠ some .deployment) (k : ObjectKey) (h : Held) :
    (c.effect k h).deployment = h.deployment := by
  rcases c.effect_of_target k with ⟨-, f, hf⟩ | ⟨ht, -⟩ | ⟨-, f, hf⟩ | hf
  · rw [hf]
  · exact (hc ht).elim
  · rw [hf]
  · rw [hf]

theorem lasting_of_target {c c' : Call} (hne : c.target ≠ c'.target) : c.Lasting c' := by
  intro k h hs
  rcases c.effect_of_target k with ⟨ht, f, hf⟩ | ⟨ht, f, hf⟩ | ⟨ht, f, hf⟩ | hf <;>
    rcases c'.effect_of_target k with ⟨ht', g, hg⟩ | ⟨ht', g, hg⟩ | ⟨ht', g, hg⟩ | hg <;>
    first
    | exact (hne (ht.trans ht'.symm)).elim
    | (rw [hf] at hs
       rw [hf, hg]
       obtain ⟨a, b, c⟩ := h
       simp only [Held.mk.injEq, true_and, and_true] at hs ⊢
       exact hs)
    | (rw [hg]; exact hs)
    | rw [hf]

theorem createSecret_lasting_createSecret (a b : Secret) : Lasting (.createSecret a) (.createSecret b) := by
  intro k h hs
  obtain ⟨o, d, v⟩ := h
  unfold effect at hs ⊢
  dsimp only at hs ⊢
  by_cases ha : k = a.metadata.key
  · rw [if_pos ha] at hs ⊢
    cases o with
    | none => cases hs
    | some s => split <;> rfl
  · rw [if_neg ha]

theorem createSecret_lasting_prune {a : Secret} {app ns : String} {keep : Option String}
    (hp : ∀ s, prunes app ns keep a.metadata.key s = false) :
    Lasting (.createSecret a) (.pruneSecrets app ns keep) := by
  intro k h hs
  obtain ⟨o, d, v⟩ := h
  unfold effect at hs ⊢
  dsimp only at hs ⊢
  by_cases ha : k = a.metadata.key
  · rw [if_pos ha] at hs ⊢
    cases o with
    | none => cases hs
    | some s => simp [Option.filter, ha, hp]
  · rw [if_neg ha]

end Call

def effects (k : ObjectKey) (L : List Call) (h : Held) : Held := L.foldl (fun h c => c.effect k h) h

@[simp] theorem effects_nil (k : ObjectKey) (h : Held) : effects k [] h = h := rfl

theorem effects_cons (k : ObjectKey) (c : Call) (L : List Call) (h : Held) :
    effects k (c :: L) h = effects k L (c.effect k h) := rfl

theorem effects_append (k : ObjectKey) (L M : List Call) (h : Held) :
    effects k (L ++ M) h = effects k M (effects k L h) :=
  List.foldl_append ..

theorem effects_settled {c : Call} {k : ObjectKey} : ∀ {L : List Call} {h : Held}, (∀ c' ∈ L, c.Lasting c') →
    c.effect k h = h → c.effect k (effects k L h) = effects k L h
  | [], _, _, hs => hs
  | c' :: L, h, hL, hs => by
    have hL' : ∀ x ∈ L, c.Lasting x := fun x hx => hL x (List.mem_cons_of_mem _ hx)
    show c.effect k (effects k L (c'.effect k h)) = effects k L (c'.effect k h)
    exact effects_settled hL' (hL c' List.mem_cons_self k h hs)

theorem effects_effects {k : ObjectKey} : ∀ {L : List Call} (h : Held), L.Pairwise Call.Lasting →
    effects k L (effects k L h) = effects k L h
  | [], _, _ => rfl
  | c :: L, h, hL => by
    obtain ⟨hc, hL⟩ := List.pairwise_cons.1 hL
    have hs : c.effect k (effects k L (c.effect k h)) = effects k L (c.effect k h) :=
      effects_settled hc (c.effect_effect k h)
    show effects k L (c.effect k (effects k L (c.effect k h))) = effects k L (c.effect k h)
    rw [hs, effects_effects _ hL]

/-- **Calls that do not undo one another absorb a first part of themselves.** -/
theorem effects_absorb {k : ObjectKey} {L M : List Call} (hL : L.Pairwise Call.Lasting) (hM : M <+: L) (h : Held) :
    effects k L (effects k M h) = effects k L h := by
  obtain ⟨N, rfl⟩ := hM
  rw [effects_append, effects_effects h (List.pairwise_append.1 hL).1, ← effects_append]

theorem effects_status {k : ObjectKey} {P : List Call} (hP : ∀ c ∈ P, c.target = some .app) (L : List Call) (h : Held) :
    effects k (P ++ L) h = effects k L h := by
  rw [effects_append]
  induction P with
  | nil => rfl
  | cons c P ih =>
    rw [effects_cons, Call.effect_of_app (hP c List.mem_cons_self)]
    exact ih fun x hx => hP x (List.mem_cons_of_mem _ hx)

/-- Calls that only apply a `Deployment` leave the status that it has, and leave one if there was one, or if one of them
applies it. -/
theorem effects_deployment {k : ObjectKey} : ∀ {M : List Call} {h : Held},
    (∀ c ∈ M, c.target = some .deployment → ∃ d, c = .applyDeployment d ∧ d.metadata.key = k) →
    ((effects k M h).deployment >>= Deployment.status) = (h.deployment >>= Deployment.status) ∧
      ((effects k M h).deployment.isSome = true ↔ h.deployment.isSome = true ∨ ∃ d, .applyDeployment d ∈ M)
  | [], h, _ => ⟨rfl, by simp⟩
  | c :: M, h, hM => by
    obtain ⟨hstatus, hsome⟩ := effects_deployment (M := M) (h := c.effect k h) fun x hx =>
      hM x (List.mem_cons_of_mem _ hx)
    rw [effects_cons, hstatus, hsome]
    by_cases hc : c.target = some .deployment
    · obtain ⟨d, rfl, rfl⟩ := hM c List.mem_cons_self hc
      simp only [Call.effect, if_pos]
      exact ⟨rfl, by simp⟩
    · rw [Call.effect_deployment hc]
      have hne (d : Deployment) : .applyDeployment d ≠ c := fun h => hc (h ▸ rfl)
      simp [hne]

/-! ## Clusters -/

namespace Cluster

variable {w w' : Cluster} {c : Call}

/-- A `Secret` is pruned because of what it is, not because of the others. -/
theorem mem_stale_iff (hk : w.Keyed) {app ns : String} {keep : Option String} {k : ObjectKey} :
    k.ns = ns ∧ k.name ∈ staleSecrets app (w.labelledSecrets app ns) keep ↔
      ∃ s, w.secrets.get? k = some s ∧ prunes app ns keep k s = true := by
  rw [mem_staleSecrets hk]
  unfold prunes LooksGenerated
  constructor
  · rintro ⟨rfl, ⟨hn, s, hs, hl, hb⟩, hkeep⟩
    exact ⟨s, hs, by simp [hn, hl, hb, hkeep]⟩
  · rintro ⟨s, hs, hp⟩
    simp only [Bool.and_eq_true, beq_iff_eq, bne_iff_ne] at hp
    obtain ⟨⟨⟨⟨rfl, hn⟩, hl⟩, hb⟩, hkeep⟩ := hp
    exact ⟨rfl, ⟨hn, s, hs, hl, hb⟩, hkeep⟩

theorem pruned_get? (hk : w.Keyed) {app ns : String} {keep : Option String} {names : List String}
    (h : names ⊆ staleSecrets app (w.labelledSecrets app ns) keep) (k : ObjectKey) :
    (w.deleteSecrets ns names).secrets.get? k = w.secrets.get? k ∨
      (w.deleteSecrets ns names).secrets.get? k = (w.secrets.get? k).filter fun s => !prunes app ns keep k s := by
  rw [deleteSecrets_get?]
  by_cases hn : k.ns = ns ∧ k.name ∈ names
  · obtain ⟨s, hs, hp⟩ := (mem_stale_iff hk).1 ⟨hn.1, h hn.2⟩
    rw [if_pos hn, hs]
    simp [Option.filter, hp]
  · rw [if_neg hn]
    exact .inl rfl

theorem pruned_whole (hk : w.Keyed) (app ns : String) (keep : Option String) (k : ObjectKey) :
    (w.deleteSecrets ns (staleSecrets app (w.labelledSecrets app ns) keep)).secrets.get? k =
      (w.secrets.get? k).filter fun s => !prunes app ns keep k s := by
  rw [deleteSecrets_get?]
  by_cases hn : k.ns = ns ∧ k.name ∈ staleSecrets app (w.labelledSecrets app ns) keep
  · obtain ⟨s, hs, hp⟩ := (mem_stale_iff hk).1 hn
    rw [if_pos hn, hs]
    simp [Option.filter, hp]
  · rw [if_neg hn]
    rw [mem_stale_iff hk] at hn
    cases hs : w.secrets.get? k with
    | none => rfl
    | some s =>
      have hp : prunes app ns keep k s = false := by
        rw [Bool.eq_false_iff]
        exact fun hp => hn ⟨s, hs, hp⟩
      simp [Option.filter, hp]

/-- **What a call does to the children under a key** depends on nothing else. -/
theorem held_perform (hk : w.Keyed) (c : Call) (k : ObjectKey) :
    (w.perform c).cluster.held k = c.effect k (w.held k) := by
  have hs := w.perform_sameBut c
  cases c with
  | createSecret s =>
    unfold held Call.effect
    dsimp only
    rw [hs.deployments nofun, hs.services nofun]
    by_cases hks : k = s.metadata.key
    · rw [if_pos hks, hks, createSecret_get?_self]
    · rw [if_neg hks, createSecret_get?_of_ne w hks]
  | pruneSecrets app ns keep =>
    unfold held Call.effect
    rw [hs.deployments nofun, hs.services nofun]
    exact congrArg (Held.mk · _ _) (pruned_whole hk app ns keep k)
  | applyDeployment d =>
    unfold held Call.effect
    dsimp only
    rw [hs.secrets nofun, hs.services nofun]
    by_cases hkd : k = d.metadata.key
    · rw [if_pos hkd, hkd, applyDeployment_get?_self]
    · rw [if_neg hkd]
      exact congrArg (Held.mk _ · _) (Dict.get?_insert_of_ne _ _ hkd)
  | deleteDeployment n ns =>
    unfold held Call.effect
    dsimp only
    rw [hs.secrets nofun, hs.services nofun]
    by_cases hkd : k = ⟨ns, n⟩
    · rw [if_pos hkd, hkd]
      exact congrArg (Held.mk _ · _) (Dict.get?_erase_self ..)
    · rw [if_neg hkd]
      exact congrArg (Held.mk _ · _) (Dict.get?_erase_of_ne _ hkd)
  | applyService v =>
    unfold held Call.effect
    dsimp only
    rw [hs.secrets nofun, hs.deployments nofun]
    by_cases hkv : k = v.metadata.key
    · rw [if_pos hkv, hkv]
      exact congrArg (Held.mk _ _) (Dict.get?_insert_self ..)
    · rw [if_neg hkv]
      exact congrArg (Held.mk _ _) (Dict.get?_insert_of_ne _ _ hkv)
  | _ =>
    unfold held
    rw [hs.secrets nofun, hs.deployments nofun, hs.services nofun]
    rfl

/-- A call that fails has done to the children under a key all of what it does, or nothing. -/
theorem held_leaves (hk : w.Keyed) (h : w.Leaves c w') (k : ObjectKey) :
    w'.held k = w.held k ∨ w'.held k = c.effect k (w.held k) := by
  rcases h with rfl | h
  · exact .inr (held_perform hk c k)
  · cases h with
    | idle => exact .inl rfl
    | pruning h =>
      rcases pruned_get? hk h.subset k with h | h
      · exact .inl (congrArg (Held.mk · _ _) h)
      · exact .inr (congrArg (Held.mk · _ _) h)

/-- **Whoever stops has done the effect of a first part of his calls**, at every key: of those that acted, and perhaps
of a pruning that failed. -/
theorem Stops.held {L : List Call} {made : List (Cluster × Call)} (hs : Stops undisturbed w L made w') (hk : w.Keyed)
    (k : ObjectKey) : ∃ M, M <+: L ∧ w'.held k = effects k M (w.held k) ∧
      ∀ c, c.target ≠ some .secret → (c ∈ M ↔ c ∈ made.map Prod.snd) := by
  induction hs with
  | here h => exact ⟨[], List.nil_prefix, by rw [h.eq_of_undisturbed]; rfl, fun _ _ => .rfl⟩
  | @fail w x c y L w' h hf h' =>
    obtain rfl := h.eq_of_undisturbed
    rw [h'.eq_of_undisturbed]
    cases hf with
    | idle => exact ⟨[], List.nil_prefix, rfl, fun _ _ => .rfl⟩
    | @pruning app ns keep names hn =>
      rcases held_leaves hk (.inr (.pruning hn)) k with h | h
      · exact ⟨[], List.nil_prefix, h, fun _ _ => .rfl⟩
      · refine ⟨[.pruneSecrets app ns keep], ⟨L, rfl⟩, h, fun c hc => ⟨fun hm => ?_, nofun⟩⟩
        obtain rfl := List.mem_singleton.1 hm
        exact (hc rfl).elim
  | @act w x c L made w' h _ ih =>
    obtain rfl := h.eq_of_undisturbed
    obtain ⟨M, hM, hheld, hmem⟩ := ih (hk.perform c)
    refine ⟨c :: M, (List.prefix_cons_inj c).2 hM, ?_, fun c' hc' => ?_⟩
    · rw [hheld, held_perform hk]
      rfl
    · rw [List.mem_cons, List.map_cons, List.mem_cons, hmem c' hc']

theorem Stops.held_whole {L : List Call} {m : List (Cluster × Call)} (hs : Stops undisturbed w L m w')
    (hm : m.map Prod.snd = L) (hk : w.Keyed) (k : ObjectKey) : w'.held k = effects k L (w.held k) := by
  induction hs with
  | here h =>
    cases hm
    rw [h.eq_of_undisturbed]
    rfl
  | fail => cases hm
  | @act w x c L made w' h _ ih =>
    obtain rfl := h.eq_of_undisturbed
    rw [ih (List.cons.inj hm).2 (hk.perform c), held_perform hk]
    rfl

theorem eq_of_held (h : ∀ k, w.held k = w'.held k) :
    w.deployments = w'.deployments ∧ w.services = w'.services ∧ w.secrets = w'.secrets :=
  ⟨Dict.ext_get? fun k => congrArg Held.deployment (h k), Dict.ext_get? fun k => congrArg Held.service (h k),
    Dict.ext_get? fun k => congrArg Held.secret (h k)⟩

end Cluster

end SpinFleet
