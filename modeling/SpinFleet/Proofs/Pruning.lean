import SpinFleet.Proofs.Generated
import SpinFleet.Proofs.Undisturbed
/-!
# Pruning — which `Secret`s a pass deletes

A pass deletes the generated `Secret`s that its `Deployment` no longer mounts.  It tells them by how they look, and
only the `Secret` that the pass has generated itself is spared (`App.pass_loses_iff`).

So a pass can delete what its own `Deployment` mounts: nothing spares a `Secret` with a ready-made configuration, or
one with an executor's certificates, that looks generated.  `App.pinned_secret_lost` is an app that was told to stay
with a configuration that had been generated for it.
-/
namespace SpinFleet

namespace App

open Cluster (Edited Stops)

variable {w w' x y : Cluster} {t : List Move} {s : Settings} {key : ObjectKey} {d : Deployment}

/-- If nobody else edits, the app that the children are made for is the one that was there at the beginning, but for
what was observed of it. -/
theorem Applying.declares (p : Applying undisturbed w t s key d) :
    ∃ a, w.apps.get? key = some a ∧ a.Declares p.app := by
  have ha := p.sees_app.undisturbed.2
  have hw := p.edited.eq_of_undisturbed.trans p.sees.edited.eq_of_undisturbed
  obtain ⟨a, ha, hd⟩ := (p.stops.declares p.statusPlan.target).1 _ ha
  exact ⟨a, hw ▸ ha, hd⟩

def Applying.before (p : Applying undisturbed w t s key d) : List Call :=
  p.status ++ (creates p.config ++ creates p.ca) ++ [.applyDeployment d]

theorem Applying.mem_before (p : Applying undisturbed w t s key d) {c : Call} : c ∈ p.before ↔
    c ∈ p.status ∨ c ∈ creates p.config ∨ c ∈ creates p.ca ∨ c = .applyDeployment d := by
  simp [before]

theorem Applying.stops_at_prune (p : Applying undisturbed w t s key d) {made : List (Cluster × Call)}
    (hs : Stops undisturbed w p.calls made w')
    (hy : (y, .pruneSecrets p.app.name p.app.ns (generatedName p.config)) ∈ made) :
    ∃ m, Stops undisturbed w p.before m y := by
  have hcalls : p.calls = p.before ++ .pruneSecrets p.app.name p.app.ns (generatedName p.config) :: p.rest := by
    simp [calls, before]
  rw [hcalls] at hs
  have once : .pruneSecrets p.app.name p.app.ns (generatedName p.config) ∉ p.before := by
    intro hm
    rcases p.mem_before.1 hm with h | h | h | h
    · cases p.statusPlan.target _ h
    · obtain ⟨g, -, h⟩ := mem_creates.1 h
      cases h
    · obtain ⟨g, -, h⟩ := mem_creates.1 h
      cases h
    · cases h
  obtain ⟨m, -, -, -, h, -⟩ := hs.at_call once (fun hm => by cases p.rest_target hm) hy
  exact ⟨m, h⟩

theorem Applying.secrets_before (p : Applying undisturbed w t s key d) {m : List (Cluster × Call)}
    (hs : Stops undisturbed w p.before m y) {k : ObjectKey} (hconfig : ∀ g, p.config = some g → k ≠ g.metadata.key)
    (hca : ∀ g, p.ca = some g → k ≠ g.metadata.key) : y.secrets.get? k = w.secrets.get? k := by
  refine hs.keeps (J := fun x => x.secrets.get? k = w.secrets.get? k) rfl (fun _ _ hx => hx.elim) ?_
  intro c hc x z hl hx
  refine .trans ?_ hx
  have same (ht : c.target ≠ some .secret) : z.secrets.get? k = x.secrets.get? k := by rw [hl.sameBut.secrets ht]
  rcases p.mem_before.1 hc with h | h | h | rfl
  · exact same (by rw [p.statusPlan.target c h]; exact nofun)
  · obtain ⟨g, hg, rfl⟩ := mem_creates.1 h
    exact hl.createSecret_get?_of_ne (hconfig g hg)
  · obtain ⟨g, hg, rfl⟩ := mem_creates.1 h
    exact hl.createSecret_get?_of_ne (hca g hg)
  · exact same nofun

/-- The `Secret` to keep is the one that the pass has generated, if it has. -/
theorem Applying.keeps_iff (p : Applying undisturbed w t s key d) {n : String} : generatedName p.config ≠ some n ↔
    ∀ a ∈ w.apps.get? key, a.spec.runtimeConfig.verbatimSecret = none → d.configSecret? ≠ some n := by
  obtain ⟨a, ha, hdecl⟩ := p.declares
  have hg := p.configures
  have hd := p.deployment_eq
  cases hc : p.config with
  | none =>
    rw [hc] at hg
    cases hg with
    | verbatim hv =>
      refine ⟨fun _ a' ha' hno => ?_, fun _ => nofun⟩
      obtain rfl : a = a' := Option.some.inj (ha.symm.trans ha')
      rw [hdecl.spec, hno] at hv
      cases hv
  | some g =>
    rw [hc] at hg hd
    cases hg with
    | generated hv =>
      have hmount : d.configSecret? = generatedName (some g) := deployment_generated hd
      rw [← hmount]
      exact ⟨fun h _ _ _ => h, fun h => h a ha (hdecl.spec ▸ hv)⟩

/-- **What a pass deletes**: what looked generated before it, but for the `Secret` that it has generated itself.
Nothing else that its `Deployment` mounts is spared. -/
theorem pass_loses_iff {r : Option (Except Error Action)} {app ns : String} {keep : Option String} (hk : w.Keyed)
    (h : Pass.Run undisturbed (App.pass s key).run w t w' r) (hd : .acted x (.applyDeployment d) ∈ t)
    (hp : .acted y (.pruneSecrets app ns keep) ∈ t) (n : String) :
    y.Loses (.pruneSecrets app ns keep) ⟨ns, n⟩ ↔ w.LooksGenerated key.name ⟨key.ns, n⟩ ∧
      ∀ a ∈ w.apps.get? key, a.spec.runtimeConfig.verbatimSecret = none → d.configSecret? ≠ some n := by
  obtain ⟨b, L, hplan, o, -⟩ := pass_run h
  have hd := o.stops.planned rfl hd
  obtain ⟨p, rfl⟩ := hplan.applying hd
  obtain ⟨rfl, rfl, rfl⟩ := p.prune_eq (o.stops.planned rfl hp)
  obtain ⟨m, hs⟩ := p.stops_at_prune o.stops ((mem_writes rfl).2 hp)
  have hkey := p.key_eq hk
  rw [Cluster.prune_loses_iff (hs.keyed hk), ← p.keeps_iff,
    show p.app.name = key.name from congrArg ObjectKey.name hkey,
    show p.app.ns = key.ns from congrArg ObjectKey.ns hkey]
  refine and_congr_left fun hkeep => and_congr_right fun hn => ?_
  -- what looks generated is neither of the two that the pass may have created
  rw [p.secrets_before hs]
  · intro g hg he
    obtain ⟨text, hgk, hname⟩ := p.configures_key hg
    rw [hgk] at he
    exact hkeep (hname.trans (congrArg (some ∘ ObjectKey.name) he).symm)
  · intro g hg he
    rw [p.ca_key hg] at he
    have hname : n = defaultCaSecret := congrArg ObjectKey.name he
    rw [hname, not_isGeneratedName_defaultCa] at hn
    cases hn

theorem applied_verbatim {r : Option (Except Error Action)} {n : String} {a : App}
    (h : Pass.Run undisturbed (App.pass s key).run w t w' r) (hd : .acted x (.applyDeployment d) ∈ t)
    (ha : w.apps.get? key = some a) (hv : a.spec.runtimeConfig.verbatimSecret = some n) : d.configSecret? = some n := by
  obtain ⟨b, L, hplan, o, -⟩ := pass_run h
  have hd := o.stops.planned rfl hd
  obtain ⟨p, rfl⟩ := hplan.applying hd
  obtain ⟨a', ha', hdecl⟩ := p.declares
  obtain rfl : a = a' := Option.some.inj (ha.symm.trans ha')
  exact deployment_verbatim p.deployment_eq (hdecl.spec ▸ hv)

/-- An app that was told to stay with the configuration that had been generated for it, and a pass that applies a
`Deployment` with this configuration and deletes it. -/
theorem pinned_secret_lost : ∃ t w' v d x y keep,
    Pass.Run undisturbed (App.pass Sample.settings Sample.key).run
      (Sample.changed (Sample.storeAt "a") (Sample.readyMade "hello-4edd247b")) t w' (some (.ok v)) ∧
    .acted x (.applyDeployment d) ∈ t ∧ d.configSecret? = some "hello-4edd247b" ∧
    .acted y (.pruneSecrets "hello" "default" keep) ∈ t ∧
    y.Loses (.pruneSecrets "hello" "default" keep) ⟨"default", "hello-4edd247b"⟩ := by
  obtain ⟨t, -, h⟩ := Sample.pass_run none [] (Sample.changed (Sample.storeAt "a") (Sample.readyMade "hello-4edd247b"))
    (List.forall_mem_nil _)
  obtain ⟨v, hv⟩ := Sample.eq_of_succeeds (r := (Sample.pass none []
    (Sample.changed (Sample.storeAt "a") (Sample.readyMade "hello-4edd247b"))).2) (by decide +kernel)
  rw [hv] at h
  have hk := Sample.keyed_changed (Sample.storeAt "a") (Sample.readyMade "hello-4edd247b")
  have ha := Sample.changed_app (Sample.storeAt "a") (Sample.readyMade "hello-4edd247b")
  obtain ⟨e, he, hc⟩ : ∃ e ∈ (Sample.changed (Sample.storeAt "a") (Sample.readyMade "hello-4edd247b")).executors.get?
      ⟨"default", "shim"⟩, e.spec.createDeployment = true := by decide +kernel
  obtain ⟨d, x, y, keep, hd, hp⟩ := pass_applies hk h ha rfl he hc
  refine ⟨t, _, v, d, x, y, keep, h, hd, applied_verbatim h hd ha rfl, hp, ?_⟩
  refine (pass_loses_iff hk h hd hp "hello-4edd247b").2 ⟨by decide +kernel, fun a' ha' hno => ?_⟩
  cases ha.symm.trans ha'
  cases hno

end App

end SpinFleet
