import SpinFleet.Proofs.Agreement
import SpinFleet.Proofs.Asking
import SpinFleet.Proofs.Effects
import SpinFleet.Proofs.Naming
import SpinFleet.Proofs.Selection
/-!
# Ownership — what belongs to a pass over one app

All that a pass asks for belongs to it (`App.pass_owns`): the app and its `Deployment`, the executors of the namespace,
what the options of the app select, the children that carry the app's name, and the one `Secret` that the apps of a
namespace share.  Generated names tell their app (`isGeneratedName_inj`), and whoever creates the shared `Secret` puts
the same into it.  So calls that belong to different apps have their effects in either order (`Owns.effect_comm`).
-/
namespace SpinFleet

open Simulation (lookup)

/-! ## What an app selects -/

/-- What the options of the app under a key select, if there is one. -/
def Cluster.selected (w : Cluster) (key : ObjectKey) : List Reference :=
  match w.apps.get? key with
  | some a => (References.ofApp a).toList
  | none => []

theorem Cluster.selected_eq {w : Cluster} {key : ObjectKey} {a : App} (ha : w.apps.get? key = some a) :
    w.selected key = (References.ofApp a).toList := by
  unfold selected
  rw [ha]

theorem Cluster.selected_eq_nil {w : Cluster} {key : ObjectKey} (ha : w.apps.get? key = none) :
    w.selected key = [] := by
  unfold selected
  rw [ha]

/-! ## Effects on one key -/

namespace Call

variable {c c' : Call} {k : ObjectKey} {h h' : Held}

theorem effect_secret_congr (hs : h.secret = h'.secret) : (c.effect k h).secret = (c.effect k h').secret := by
  rcases c.effect_of_target k with ⟨-, f, hf⟩ | ⟨-, f, hf⟩ | ⟨-, f, hf⟩ | hf
  · rw [hf, hf, hs]
  · rwa [hf, hf]
  · rwa [hf, hf]
  · rwa [hf, hf]

theorem effect_deployment_congr (hd : h.deployment = h'.deployment) :
    (c.effect k h).deployment = (c.effect k h').deployment := by
  rcases c.effect_of_target k with ⟨-, f, hf⟩ | ⟨-, f, hf⟩ | ⟨-, f, hf⟩ | hf
  · rwa [hf, hf]
  · rw [hf, hf, hd]
  · rwa [hf, hf]
  · rwa [hf, hf]

theorem effect_secret (hc : c.target ≠ some .secret) : (c.effect k h).secret = h.secret := by
  rcases c.effect_of_target k with ⟨ht, -⟩ | ⟨-, f, hf⟩ | ⟨-, f, hf⟩ | hf
  · exact (hc ht).elim
  · rw [hf]
  · rw [hf]
  · rw [hf]

theorem effect_comm_of_target (hne : c.target ≠ c'.target) :
    c.effect k (c'.effect k h) = c'.effect k (c.effect k h) := by
  rcases c.effect_of_target k with ⟨ht, f, hf⟩ | ⟨ht, f, hf⟩ | ⟨ht, f, hf⟩ | hf <;>
    rcases c'.effect_of_target k with ⟨ht', g, hg⟩ | ⟨ht', g, hg⟩ | ⟨ht', g, hg⟩ | hg <;>
    first
    | exact (hne (ht.trans ht'.symm)).elim
    | simp only [hf, hg]

end Call

/-! ## What belongs to a pass -/

/-- What a pass over the app with a key asks for, if the options of the app select `refs`. -/
inductive Owns (s : Settings) (key : ObjectKey) (refs : List Reference) : Call → Prop
  | app : Owns s key refs (.getApp key.name key.ns)
  | executor (n : String) : Owns s key refs (.getExecutor n key.ns)
  | deployment : Owns s key refs (.getDeployment key.name key.ns)
  | status (version : String) (status : AppStatus) : Owns s key refs (.patchAppStatus key.name key.ns version status)
  | look {ref} (h : ref ∈ refs) : Owns s key refs (lookup ref)
  | configure {x n} (hx : x.metadata.key = ⟨key.ns, n⟩) (hn : isGeneratedName key.name n = true) :
      Owns s key refs (.createSecret x)
  | certify {b} (hb : s.caBundle = some b) : Owns s key refs (.createSecret (caSecret key.ns b))
  | apply {d} (hd : d.metadata.key = key) : Owns s key refs (.applyDeployment d)
  | prune (keep : Option String) : Owns s key refs (.pruneSecrets key.name key.ns keep)
  | delete : Owns s key refs (.deleteDeployment key.name key.ns)
  | serve {v} (hv : v.metadata.key = key) : Owns s key refs (.applyService v)

inductive Bearing (s : Settings) (key k : ObjectKey) (c : Call) : Prop
  | nothing (h : ∀ h, c.effect k h = h)
  | own (hk : k = key) (ht : c.target = some .deployment ∨ c.target = some .service)
  | generated (ht : c.target = some .secret) (hns : k.ns = key.ns) (hn : isGeneratedName key.name k.name = true)
  | certificates {b} (hb : s.caBundle = some b) (hk : k = ⟨key.ns, defaultCaSecret⟩)
      (hc : c = .createSecret (caSecret key.ns b))

variable {s s' : Settings} {key key' k : ObjectKey} {refs refs' : List Reference} {c c' : Call}

theorem Owns.bearing (h : Owns s key refs c) (k : ObjectKey) : Bearing s key k c := by
  cases h with
  | app | executor | deployment | status => exact .nothing fun _ => rfl
  | @look ref => cases ref <;> exact .nothing fun _ => rfl
  | @configure x n hx hn =>
    by_cases hk : k = x.metadata.key
    · have hk := hk.trans hx
      exact .generated rfl (by rw [hk]) (by rw [hk]; exact hn)
    · exact .nothing fun _ => if_neg hk
  | @certify b hb =>
    by_cases hk : k = (caSecret key.ns b).metadata.key
    · exact .certificates hb hk rfl
    · exact .nothing fun _ => if_neg hk
  | @apply d hd =>
    by_cases hk : k = d.metadata.key
    · exact .own (hk.trans hd) (.inl rfl)
    · exact .nothing fun _ => if_neg hk
  | prune keep =>
    by_cases hk : k.ns = key.ns ∧ isGeneratedName key.name k.name = true
    · exact .generated rfl hk.1 hk.2
    · refine .nothing fun h => ?_
      have hp (x : Secret) : prunes key.name key.ns keep k x = false := by
        unfold prunes
        rw [Bool.eq_false_iff]
        intro hp
        simp only [Bool.and_eq_true, beq_iff_eq] at hp
        exact hk ⟨hp.1.1.1.1, hp.1.1.1.2⟩
      unfold Call.effect
      obtain ⟨o, d, v⟩ := h
      cases o <;> simp [hp]
  | delete =>
    by_cases hk : k = ⟨key.ns, key.name⟩
    · exact .own hk (.inl rfl)
    · exact .nothing fun _ => if_neg hk
  | @serve v hv =>
    by_cases hk : k = v.metadata.key
    · exact .own (hk.trans hv) (.inr rfl)
    · exact .nothing fun _ => if_neg hk

/-- A name is generated for one app at most. -/
theorem isGeneratedName_inj {app app' n : String} (h : isGeneratedName app n = true)
    (h' : isGeneratedName app' n = true) : app = app' := by
  obtain ⟨cs, hn, hcs⟩ := isGeneratedName_iff.1 h
  obtain ⟨cs', hn', hcs'⟩ := isGeneratedName_iff.1 h'
  -- what stands behind either app's name is of one length
  have hlen : ('-' :: cs).length = ('-' :: cs').length := by simp [length_of_isChecksum hcs, length_of_isChecksum hcs']
  exact String.toList_inj.1 (List.append_inj_left' (hn.symm.trans hn') hlen)

/-- **Of two calls that belong to different apps, one leaves the children under a key**, or they write to different
kinds, or they create the same `Secret`. -/
theorem Owns.apart (h : Owns s key refs c) (h' : Owns s' key' refs' c') (hne : key ≠ key')
    (hs : s'.caBundle = s.caBundle) (k : ObjectKey) :
    (∀ x, c.effect k x = x) ∨ (∀ x, c'.effect k x = x) ∨ c.target ≠ c'.target ∨ ∃ v, c = .createSecret v ∧ c' = c := by
  have kinds {t t' : Kind} (ht : c.target = some t) (ht' : c'.target = some t') (hne : t ≠ t') : c.target ≠ c'.target :=
    fun h => hne (Option.some.inj (ht.symm.trans (h.trans ht')))
  cases h.bearing k with
  | nothing h => exact .inl h
  | own hk ht =>
    cases h'.bearing k with
    | nothing h' => exact .inr (.inl h')
    | own hk' => exact (hne (hk.symm.trans hk')).elim
    | generated ht' => rcases ht with ht | ht <;> exact .inr (.inr (.inl (kinds ht ht' (by decide))))
    | certificates _ _ hc =>
      have ht' : c'.target = some .secret := by rw [hc]; rfl
      rcases ht with ht | ht <;> exact .inr (.inr (.inl (kinds ht ht' (by decide))))
  | generated ht hns hn =>
    cases h'.bearing k with
    | nothing h' => exact .inr (.inl h')
    | own _ ht' => rcases ht' with ht' | ht' <;> exact .inr (.inr (.inl (kinds ht ht' (by decide))))
    | generated _ hns' hn' =>
      have hname := isGeneratedName_inj hn hn'
      have hns := hns.symm.trans hns'
      cases key
      cases key'
      cases hname
      cases hns
      exact (hne rfl).elim
    | certificates _ hk =>
      rw [hk, not_isGeneratedName_defaultCa] at hn
      cases hn
  | @certificates b hb hk hc =>
    cases h'.bearing k with
    | nothing h' => exact .inr (.inl h')
    | own _ ht' =>
      have ht : c.target = some .secret := by rw [hc]; rfl
      rcases ht' with ht' | ht' <;> exact .inr (.inr (.inl (kinds ht ht' (by decide))))
    | generated _ hns' hn' =>
      rw [hk, not_isGeneratedName_defaultCa] at hn'
      cases hn'
    | @certificates b' hb' hk' hc' =>
      obtain rfl : b = b' := Option.some.inj (hb.symm.trans (hs.symm.trans hb'))
      have hns : key.ns = key'.ns := (ObjectKey.mk.inj (hk.symm.trans hk')).1
      exact .inr (.inr (.inr ⟨_, hc, by rw [hc, hc', hns]⟩))

/-- **The calls of passes over different apps have their effects in either order.** -/
theorem Owns.effect_comm (h : Owns s key refs c) (h' : Owns s' key' refs' c') (hne : key ≠ key')
    (hs : s'.caBundle = s.caBundle) (k : ObjectKey) (x : Held) :
    c.effect k (c'.effect k x) = c'.effect k (c.effect k x) := by
  rcases h.apart h' hne hs k with h | h | h | ⟨v, -, rfl⟩
  · rw [h, h]
  · rw [h, h]
  · exact Call.effect_comm_of_target h
  · rfl

/-! ## A pass owns its calls -/

namespace Cluster

structure Continues (w x : Cluster) : Prop where
  keyed : x.Keyed
  apps : ∀ k b, x.apps.get? k = some b → ∃ a, w.apps.get? k = some a ∧ a.Declares b

theorem Keyed.continues {w : Cluster} (hk : w.Keyed) : w.Continues w := ⟨hk, fun _ b hb => ⟨b, hb, .refl b⟩⟩

theorem Continues.perform {w x : Cluster} (h : w.Continues x) (c : Call) : w.Continues (x.perform c).cluster := by
  refine ⟨h.keyed.perform c, fun k b hb => ?_⟩
  obtain ⟨b', hb', hd'⟩ := perform_declares hb
  obtain ⟨a, ha, hd⟩ := h.apps k b' hb'
  exact ⟨a, ha, hd.trans hd'⟩

/-- What a cluster may answer in which apps declare what they did before. -/
def Recalls (w : Cluster) : (c : Call) → Except Error c.Answer → Prop
  | .getApp n ns, r => ∀ b : App, r = .ok (some b) → ∃ a, w.apps.get? ⟨ns, n⟩ = some a ∧ a.Declares b
  | _, _ => True

theorem Continues.recalls {w x : Cluster} (h : w.Continues x) (c : Call) : w.Recalls c (x.perform c).answer := by
  cases c with
  | getApp n ns =>
    intro b hb
    exact h.apps _ b (by injection hb)
  | _ => trivial

end Cluster

theorem App.Declares.references {a b : App} (h : a.Declares b) : References.ofApp b = References.ofApp a := by
  obtain ⟨v, st, rfl⟩ := h.exists_eq
  rfl

/-- **What a pass asks for belongs to it.** -/
theorem App.pass_owns {w : Cluster} (hk : w.Keyed) (s : Settings) (key : ObjectKey) :
    (App.pass s key).AsksIf w.Recalls (Owns s key (w.selected key)) fun _ => True := by
  refine pass_asks_if (G := fun b => ∃ a, w.apps.get? key = some a ∧ a.Declares b) (fun b hb => hb b rfl) ?_ .app
    .executor .deployment .status ?_
  · rintro b ⟨a, ha, hd⟩
    exact hd.key.trans (hk.apps key a ha)
  rintro b e c ⟨a, ha, hd⟩ hc
  obtain rfl : b.metadata.key = key := hd.key.trans (hk.apps key a ha)
  cases hc with
  | look hm =>
    refine .look ?_
    rw [Cluster.selected_eq ha, ← hd.references]
    exact hm
  | configure hx =>
    obtain ⟨-, hkey, -⟩ := configSecret_ok hx
    exact .configure hkey (isGeneratedName_secretName ..)
  | certify hb => exact .certify hb
  | apply _ hd => exact .apply (deployment_ok hd).1
  | prune keep => exact .prune keep
  | delete => exact .delete
  | serve hv => exact .serve (service_ok hv).1

end SpinFleet
