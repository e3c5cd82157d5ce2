import SpinFleet.Proofs.AppPlan
/-!
# Undisturbed — what a pass writes that nobody disturbs

If nobody else edits, all reads of a pass see the one cluster there is.  Its plan has then two parts, the status of the
app and the children, and the children are made for the app that was there at the beginning, but for what was observed
of it (`App.PassPlan.parts`).
-/
namespace SpinFleet.App

open Cluster (SameBut)

variable {w w' : Cluster} {t : List Move} {s : Settings} {a : App} {e : Executor} {key : ObjectKey} {f : Bool}
  {L P : List Call}

/-- What an undisturbed pass over an app writes: the status `P`, if it was written, and then what is planned for the
children. -/
structure Parts (w : Cluster) (t : List Move) (s : Settings) (key : ObjectKey) (a : App) (e : Executor) (f : Bool)
    (P R : List Call) : Prop where
  found : w.executors.get? ⟨key.ns, a.spec.executor⟩ = some e
  status : P = [] ∧ (e.spec.createDeployment = true → f = true → ∃ d err, .failed (a.statusPatch s e d) err ∈ t) ∨
    P = [a.statusPatch s e (w.deployments.get? key)] ∧ e.spec.createDeployment = true
  rest : R = [] ∧ f = false ∨
    ∃ x b, SameBut (some .app) w x ∧ a.Declares b ∧ ConvergePlan undisturbed x t s b key e f R

theorem StatusPlan.eq (hP : StatusPlan undisturbed w t s a e f P) (ha : a.metadata.key = key) :
    P = [] ∧ (f = true → ∃ d err, .failed (a.statusPatch s e d) err ∈ t) ∨
      P = [a.statusPatch s e (w.deployments.get? key)] := by
  cases hP with
  | nothing => exact .inl ⟨rfl, nofun⟩
  | failed d err h => exact .inl ⟨rfl, fun _ => ⟨d, err, h⟩⟩
  | written hx =>
    rw [hx.eq_of_undisturbed, show (⟨a.ns, a.name⟩ : ObjectKey) = key from ha]
    exact .inr rfl

theorem PassPlan.parts (h : PassPlan undisturbed w t s key f L) (hk : w.Keyed) (ha : w.apps.get? key = some a) :
    (L = [] ∧ f = false) ∨ ∃ e P R, L = P ++ R ∧ Parts w t s key a e f P R := by
  have hkey := hk.apps _ _ ha
  have seen {x a'} (hs : Sees undisturbed w t key x a') : x = w ∧ a' = a :=
    hs.undisturbed.imp_right fun h => Option.some.inj (h.symm.trans ha)
  cases h with
  | nothing => exact .inl ⟨rfl, rfl⟩
  | absent hx hn =>
    rw [hx.eq_of_undisturbed, ha] at hn
    cases hn
  | external hs hy he hc hL =>
    obtain ⟨rfl, rfl⟩ := seen hs
    rw [hy.eq_of_undisturbed] at he hL
    refine .inr ⟨_, [], L, rfl, he, .inl ⟨rfl, fun hc' => ?_⟩, .inr ⟨_, _, .refl _ _, .refl _, hL⟩⟩
    cases hc.symm.trans hc'
  | observed hs hy he hc hP =>
    obtain ⟨rfl, rfl⟩ := seen hs
    rw [hy.eq_of_undisturbed] at he hP
    refine .inr ⟨_, L, [], (List.append_nil L).symm, he, ?_, .inl ⟨rfl, rfl⟩⟩
    exact (hP.eq hkey).imp (fun h => ⟨h.1, fun _ => nofun⟩) fun h => ⟨h, hc⟩
  | vanished hs hy _ _ hP hz _ hf =>
    obtain ⟨rfl, rfl⟩ := seen hs
    rw [hy.eq_of_undisturbed] at hz
    have hsome := (hz.declares hP.target).2 (Option.isSome_iff_exists.2 ⟨_, ha⟩)
    rw [hf] at hsome
    cases hsome
  | managed hs hy he hc hP hz _ hf hL =>
    obtain ⟨rfl, rfl⟩ := seen hs
    rw [hy.eq_of_undisturbed] at he hP hz
    obtain ⟨rfl, hf⟩ := hf.undisturbed
    obtain ⟨a', ha', hd⟩ := (hz.declares hP.target).1 _ hf
    cases ha.symm.trans ha'
    have hsame := hz.sameBut hP.target
    refine .inr ⟨_, _, _, rfl, he, ?_, .inr ⟨_, _, hsame, hd, hL⟩⟩
    exact (hP.eq hkey).imp (fun h => ⟨h.1, fun _ _ => h.2 rfl⟩) fun h => ⟨h, hc⟩

/-- **A pass over a managed app that comes to its end** has applied a `Deployment` and pruned. -/
theorem pass_applies {v : Action} (hk : w.Keyed) (h : Pass.Run undisturbed (App.pass s key).run w t w' (some (.ok v)))
    (ha : w.apps.get? key = some a) (hdel : a.metadata.isDeleting = false)
    (he : w.executors.get? ⟨key.ns, a.spec.executor⟩ = some e) (hc : e.spec.createDeployment = true) :
    ∃ d x y keep, .acted x (.applyDeployment d) ∈ t ∧ .acted y (.pruneSecrets key.name key.ns keep) ∈ t := by
  obtain ⟨b, L, hplan, o, hb⟩ := pass_run h
  obtain rfl := hb v rfl
  have hmade := o.whole v rfl
  obtain ⟨-, hb⟩ | ⟨e', P, R, rfl, p⟩ := hplan.parts hk ha
  · cases hb
  obtain rfl : e = e' := Option.some.inj (he.symm.trans p.found)
  obtain ⟨-, hb⟩ | ⟨x, f, -, hd, hR⟩ := p.rest
  · cases hb
  have acts {c : Call} (hw : c.isWrite = true) (hR : c ∈ R) : ∃ x, .acted x c ∈ t :=
    (acts_iff hw).1 (hmade ▸ List.mem_append_right P hR)
  cases hR with
  | deleting hdel' =>
    rw [hd.isDeleting, hdel] at hdel'
    cases hdel'
  | whole _ hR =>
    cases hR with
    | external hc' =>
      rw [hc] at hc'
      cases hc'
    | managed _ hR =>
      cases hR with
      | @whole g ca n d =>
        obtain ⟨x, hx⟩ := acts rfl (c := .applyDeployment d) (by simp)
        obtain ⟨y, hy⟩ := acts rfl (c := .pruneSecrets f.name f.ns (generatedName g)) (by simp)
        have hkey := hd.key.trans (hk.apps _ _ ha)
        have hname : f.name = key.name := congrArg ObjectKey.name hkey
        have hns : f.ns = key.ns := congrArg ObjectKey.ns hkey
        rw [hname, hns] at hy
        exact ⟨d, x, y, generatedName g, hx, hy⟩

end SpinFleet.App
