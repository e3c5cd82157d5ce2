import Mathlib.Data.List.Basic
import SpinFleet.Proofs.Agreement
import SpinFleet.Proofs.Effects
import SpinFleet.Proofs.Undisturbed
/-!
# Work — what a whole pass does to the children of an app

A whole plan for the children creates `Secret`s, applies the `Deployment`, prunes and applies the `Service`, or deletes
the `Deployment` and applies the `Service` (`App.Work`).  Nothing in it undoes what came before, so whoever carries it
out leaves the same children, whatever part of it was done already (`App.Work.absorbs`).

Every pass that nobody disturbs follows the whole plan of a pass that comes to its end, after it has written the status
of the app or not (`App.Parts.run`).
-/
namespace SpinFleet

open Cluster (Edited Stops SameBut Agree)

namespace App

variable {w x w' : Cluster} {t u : List Move} {s s' : Settings} {a b : App} {c : DeploymentConfig} {e : Executor}
  {key : ObjectKey} {executor : String} {f : Bool} {L M P R : List Call}

/-! ## Whole plans -/

/-- The calls of a whole plan for the children of an app. -/
inductive Work (a : App) (key : ObjectKey) (e : Executor) : List Call → Prop
  | nothing : Work a key e []
  | external {v} (he : e.spec.createDeployment = false) :
      Work a key e [.deleteDeployment key.name key.ns, .applyService v]
  | managed {created : List Secret} {d keep v} (he : e.spec.createDeployment = true)
      (hd : d.metadata.key = a.metadata.key)
      (spared : ∀ x ∈ created, ∀ y, prunes a.name a.ns keep x.metadata.key y = false) :
      Work a key e (created.map .createSecret ++
        [.applyDeployment d, .pruneSecrets a.name a.ns keep, .applyService v])

theorem ConvergePlan.work (h : ConvergePlan undisturbed w t s a key e true L) : Work a key e L := by
  cases h with
  | deleting => exact .nothing
  | whole _ h =>
    cases h with
    | external he => exact .external he
    | managed he h =>
      cases h with
      | @whole g ca n d hg hca hd =>
        -- the pruning spares the one that it is told to keep, and the other does not look generated
        have spared : ∀ x ∈ g.toList ++ ca.toList, ∀ y,
            prunes a.name a.ns (generatedName g) x.metadata.key y = false := by
          intro x hx y
          rcases List.mem_append.1 hx with hx | hx
          · obtain rfl := Option.mem_toList.1 hx
            cases hg with
            | generated _ _ _ hx =>
              obtain ⟨hn, hkey, -⟩ := configSecret_ok hx
              simp [prunes, generatedName, ObjectMeta.anyName, hn, hkey]
          · obtain rfl := Option.mem_toList.1 hx
            rw [certificates_key hca]
            simp [prunes, not_isGeneratedName_defaultCa]
        rw [creates_eq_map, creates_eq_map, ← List.map_append, List.append_assoc]
        exact .managed he (deployment_ok hd).1 spared

namespace Work

variable (h : Work a key e L)

include h

theorem target : ∀ c ∈ L, c.target = some .secret ∨ c.target = some .deployment ∨ c.target = some .service := by
  intro c hc
  cases h with
  | nothing => cases hc
  | external => rcases List.mem_pair.1 hc with rfl | rfl <;> simp [Call.target]
  | managed =>
    simp only [List.mem_append, List.mem_map, List.mem_cons, List.not_mem_nil, or_false] at hc
    rcases hc with ⟨x, -, rfl⟩ | rfl | rfl | rfl <;> simp [Call.target]

theorem target_ne_app : ∀ c ∈ L, c.target ≠ some .app := fun c hc => by
  rcases h.target c hc with h | h | h <;> rw [h] <;> exact nofun

theorem apply_of_target (he : e.spec.createDeployment = true) :
    ∀ c ∈ L, c.target = some .deployment → ∃ d, c = .applyDeployment d ∧ d.metadata.key = a.metadata.key := by
  intro c hc ht
  cases h with
  | nothing => cases hc
  | external he' => cases he.symm.trans he'
  | @managed _ d _ _ _ hd =>
    simp only [List.mem_append, List.mem_map, List.mem_cons, List.not_mem_nil, or_false] at hc
    rcases hc with ⟨x, -, rfl⟩ | rfl | rfl | rfl
    · cases ht
    · exact ⟨d, rfl, hd⟩
    · cases ht
    · cases ht

theorem creating_of_apply {d : Deployment} (hd : .applyDeployment d ∈ L) : e.spec.createDeployment = true := by
  cases h with
  | nothing => cases hd
  | external => simp at hd
  | managed he => exact he

/-- **Nothing in a plan undoes what came before it.** -/
theorem lasting : L.Pairwise Call.Lasting := by
  cases h with
  | nothing => exact .nil
  | external => exact List.pairwise_pair.2 (Call.lasting_of_target nofun)
  | @managed created d keep v _ _ spared =>
    refine List.pairwise_append.2 ⟨?_, ?_, fun c hc c' hc' => ?_⟩
    · refine List.pairwise_of_forall_mem_list fun c hc c' hc' => ?_
      obtain ⟨x, -, rfl⟩ := List.mem_map.1 hc
      obtain ⟨y, -, rfl⟩ := List.mem_map.1 hc'
      exact Call.createSecret_lasting_createSecret x y
    · refine .cons (fun c hc => ?_) (List.pairwise_pair.2 (Call.lasting_of_target nofun))
      rcases List.mem_pair.1 hc with rfl | rfl
      · exact Call.lasting_of_target nofun
      · exact Call.lasting_of_target nofun
    · obtain ⟨x, hx, rfl⟩ := List.mem_map.1 hc
      simp only [List.mem_cons, List.not_mem_nil, or_false] at hc'
      rcases hc' with rfl | rfl | rfl
      · exact Call.lasting_of_target nofun
      · exact Call.createSecret_lasting_prune (spared x hx)
      · exact Call.lasting_of_target nofun

theorem creates_first : ∃ (created : List Secret) (R : List Call),
    L = created.map .createSecret ++ R ∧ ∀ c ∈ R, ∀ x, c ≠ .createSecret x := by
  cases h with
  | nothing => exact ⟨[], [], rfl, List.forall_mem_nil _⟩
  | external => exact ⟨[], _, rfl, by simp⟩
  | managed => exact ⟨_, _, rfl, by simp⟩

end Work

/-! ## Runs that follow a whole plan -/

/-- **Every run follows the whole plan** for the children, if the cluster agrees with the one that this was made
for. -/
theorem Parts.run (p : Parts w t s key a e true P L) (hx : w.Agree x) (hk : x.Keyed) (hb : x.apps.get? key = some b)
    (hd : a.Declares b) {r : Option (Except Error Action)} (h : Pass.Run undisturbed (App.pass s' key).run x u w' r)
    (hs : s'.caBundle = s.caBundle) :
    ∃ Q, (Q = [] ∨ Q = [b.statusPatch s' e (x.deployments.get? key)] ∧ e.spec.createDeployment = true) ∧
      Stops undisturbed x (Q ++ L) (writes u) w' ∧
      ∀ v, r = some (.ok v) → (∀ c err, .failed c err ∉ u) →
        (writes u).map Prod.snd = Q ++ L ∧ (e.spec.createDeployment = true → Q ≠ []) := by
  obtain ⟨f, M, hplan, o, hf⟩ := pass_run h
  rcases hplan.parts hk hb with ⟨rfl, rfl⟩ | ⟨e', Q, R, rfl, q⟩
  · exact ⟨[], .inl rfl, o.stops.weaken L, fun v hv => by cases hf v hv⟩
  have he := q.found
  rw [hx.executors, hd.spec, p.found] at he
  cases he
  have hQ := q.status.imp_left And.left
  rcases q.rest with ⟨rfl, rfl⟩ | ⟨y', b', hsame', hd', hR⟩
  · refine ⟨Q, hQ, ?_, fun v hv => by cases hf v hv⟩
    rw [List.append_nil] at o
    exact o.stops.weaken L
  obtain ⟨-, hf'⟩ | ⟨y, a', hsame, hda, hL⟩ := p.rest
  · cases hf'
  have hpart := hL.part hR ((hda.symm.trans hd).trans hd') hs (hx.congr hsame hsame')
  obtain ⟨N, hN⟩ := hpart.part
  refine ⟨Q, hQ, ?_, fun v hv hfail => ?_⟩
  · rw [← hN, ← List.append_assoc]
    exact o.stops.weaken N
  · rw [← hpart.eq (hf v hv)]
    refine ⟨o.whole v hv, fun hc hnil => ?_⟩
    rcases q.status with ⟨-, h⟩ | ⟨h, -⟩
    · obtain ⟨d, err, hm⟩ := h hc (hf v hv)
      exact hfail _ _ hm
    · rw [hnil] at h
      cases h

end App

namespace Cluster

variable {w w' : Cluster} {a : App} {key : ObjectKey} {P L : List Call} {made : List (Cluster × Call)}

/-- Whoever creates some `Secret`s and then none any more, changes none. -/
theorem Stops.agree {created : List Secret} {R : List Call}
    (hs : Stops undisturbed w (P ++ (created.map .createSecret ++ R)) made w') (hP : ∀ c ∈ P, c.target = some .app)
    (hR : ∀ c ∈ R, ∀ x, c ≠ .createSecret x)
    (hkinds : ∀ c ∈ P ++ (created.map .createSecret ++ R), c.target ≠ some .executor ∧ c.target ≠ some .configMap) :
    w.Agree w' := by
  refine ⟨?_, ?_, fun k x y hx hy => ?_⟩
  · exact hs.keeps (J := fun y => y.executors = w.executors) rfl (fun _ _ hx => hx.elim)
      fun c hc _ _ hl hx => (hl.sameBut.executors (hkinds c hc).1).trans hx
  · exact hs.keeps (J := fun y => y.configMaps = w.configMaps) rfl (fun _ _ hx => hx.elim)
      fun c hc _ _ hl hx => (hl.sameBut.configMaps (hkinds c hc).2).trans hx
  -- a `Secret` that is there stays as it is up to the last one that is created, and after that it can only go
  have stays {m z} (hs : Stops undisturbed w (P ++ created.map .createSecret) m z) : z.secrets.get? k = some x := by
    refine hs.keeps (J := fun z => z.secrets.get? k = some x) hx (fun _ _ hx => hx.elim) fun c hc z z' hl hz => ?_
    rcases List.mem_append.1 hc with hc | hc
    · rw [hl.sameBut.secrets (by rw [hP c hc]; exact nofun)]
      exact hz
    · obtain ⟨g, -, rfl⟩ := List.mem_map.1 hc
      rcases hl with rfl | hf
      · exact createSecret_keeps hz
      · cases hf
        exact hz
  have goes {m z} (hs : Stops undisturbed z R m w') (hz : z.secrets.get? k = some x) :
      ∀ y, w'.secrets.get? k = some y → x = y := by
    refine hs.keeps (J := fun z => ∀ y, z.secrets.get? k = some y → x = y)
      (fun y hy => Option.some.inj (hz.symm.trans hy)) (fun _ _ hx => hx.elim) fun c hc z z' hl hz y hy => ?_
    by_cases ht : c.target = some .secret
    · cases c with
      | createSecret g => exact (hR _ hc g rfl).elim
      | pruneSecrets =>
        obtain ⟨names, -, rfl⟩ := hl.prune
        rw [deleteSecrets_get?] at hy
        split at hy
        · cases hy
        · exact hz y hy
      | _ => cases ht
    · exact hz y (hl.sameBut.secrets ht ▸ hy)
  rw [← List.append_assoc] at hs
  rcases hs.split with hs | ⟨z, m₁, m₂, -, -, h₁, h₂⟩
  · exact Option.some.inj ((stays hs).symm.trans hy)
  · exact goes h₂ (stays h₁) y hy

end Cluster

namespace App

variable {w w₁ w₂ w₃ : Cluster} {a : App} {e : Executor} {key : ObjectKey} {P₁ P₂ P₃ L : List Call}
  {m₁ m₂ m₃ : List (Cluster × Call)}

/-- **A plan changes no `Secret`**, wherever one stops, so that the next pass plans the same. -/
theorem Work.agree (h : Work a key e L) (hP₁ : ∀ c ∈ P₁, c.target = some .app)
    (h₁ : Stops undisturbed w (P₁ ++ L) m₁ w₁) : w.Agree w₁ := by
  have hkinds : ∀ c ∈ P₁ ++ L, c.target ≠ some .executor ∧ c.target ≠ some .configMap := by
    intro c hc
    rcases List.mem_append.1 hc with hc | hc
    · rw [hP₁ c hc]
      exact ⟨nofun, nofun⟩
    · rcases h.target c hc with h | h | h <;> rw [h] <;> exact ⟨nofun, nofun⟩
  obtain ⟨created, R, rfl, hR⟩ := h.creates_first
  exact h₁.agree hP₁ hR hkinds

/-- **A whole plan absorbs what was done of it before**: the children are those that it would have left at once. -/
theorem Work.absorbs (h : Work a key e L) (hk : w.Keyed) (hP₁ : ∀ c ∈ P₁, c.target = some .app)
    (hP₂ : ∀ c ∈ P₂, c.target = some .app) (hP₃ : ∀ c ∈ P₃, c.target = some .app)
    (h₁ : Stops undisturbed w (P₁ ++ L) m₁ w₁) (h₂ : Stops undisturbed w₁ (P₂ ++ L) m₂ w₂)
    (hm₂ : m₂.map Prod.snd = P₂ ++ L) (h₃ : Stops undisturbed w (P₃ ++ L) m₃ w₃) (hm₃ : m₃.map Prod.snd = P₃ ++ L)
    (k : ObjectKey) : w₂.held k = w₃.held k := by
  obtain ⟨M, hM, hheld, -⟩ := h₁.held hk k
  have lasting : (P₁ ++ L).Pairwise Call.Lasting := by
    refine List.pairwise_append.2 ⟨?_, h.lasting, fun c hc c' hc' => Call.lasting_of_target ?_⟩
    · refine List.pairwise_of_forall_mem_list fun c hc c' hc' k x _ => ?_
      rw [Call.effect_of_app (hP₁ c hc)]
    · rw [hP₁ c hc]
      rcases h.target c' hc' with h | h | h <;> rw [h] <;> exact nofun
  calc w₂.held k
      = effects k (P₂ ++ L) (w₁.held k) := h₂.held_whole hm₂ (h₁.keyed hk) k
    _ = effects k L (effects k M (w.held k)) := by rw [effects_status hP₂, hheld]
    _ = effects k (P₁ ++ L) (effects k M (w.held k)) := (effects_status hP₁ _ _).symm
    _ = effects k (P₁ ++ L) (w.held k) := effects_absorb lasting hM _
    _ = effects k (P₃ ++ L) (w.held k) := by rw [effects_status hP₁, effects_status hP₃]
    _ = w₃.held k := (h₃.held_whole hm₃ hk k).symm

end App

end SpinFleet
