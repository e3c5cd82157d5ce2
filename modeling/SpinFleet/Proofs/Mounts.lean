import SpinFleet.Proofs.AppPlan
import SpinFleet.Proofs.Interpreter
import SpinFleet.Proofs.Keyed
/-!
# Mounts — pods are never told to mount a configuration that is not there

The `Secret` with the configuration is optional to the pods that mount it: if it is missing they start without it, and
nobody is told.  So it must be there at every moment at which the stored `Deployment` mounts it (`MountsExisting`), and
a pass keeps it so wherever it is cut, whichever of its calls fail (`App.pass_keeps_mount`).

The order of the calls is the reason.  Up to the `Deployment`, nothing that is mounted is lost; the `Deployment` comes
after the `Secret` that it mounts; and after the `Deployment` only others are deleted.
-/
namespace SpinFleet

open Cluster (Stops Edited)

/-- If there is a `Deployment` with a key, its first volume is the configuration, from a `Secret` that exists. -/
def Cluster.MountsExisting (key : ObjectKey) (w : Cluster) : Prop :=
  ∀ d ∈ w.deployments.get? key, ∃ n ∈ d.configSecret?, w.secrets.contains ⟨key.ns, n⟩ = true

instance (key : ObjectKey) (w : Cluster) : Decidable (w.MountsExisting key) :=
  inferInstanceAs (Decidable (∀ d ∈ w.deployments.get? key, _))

namespace App

/-- Whether a call leaves `Deployment`s alone and deletes no `Secret`. -/
def adds : Call → Bool
  | .patchAppStatus .. | .createSecret _ | .applyService _ => true
  | _ => false

/-- What a list of calls keeps wherever one stops. -/
def Safe (J : Cluster → Prop) (L : List Call) : Prop :=
  ∀ w m w', Stops undisturbed w L m w' → J w → J w'

variable {J : Cluster → Prop} {key : ObjectKey} {n : String} {L M : List Call}

theorem Safe.append (h : Safe J L) (h' : Safe J M) : Safe J (L ++ M) := by
  intro w m w' hs hw
  rcases hs.split with hs | ⟨x, m₁, m₂, -, -, h₁, h₂⟩
  · exact h _ _ _ hs hw
  · exact h' _ _ _ h₂ (h _ _ _ h₁ hw)

theorem adds_frame {w w' : Cluster} {c : Call} (hc : adds c = true) (h : w.Leaves c w') :
    w'.deployments = w.deployments ∧ ∀ k, w.secrets.contains k = true → w'.secrets.contains k = true := by
  have hs := h.sameBut
  cases c with
  | patchAppStatus | applyService =>
    rw [hs.deployments nofun, hs.secrets nofun]
    exact ⟨rfl, fun _ h => h⟩
  | createSecret s =>
    refine ⟨hs.deployments nofun, fun k hk => ?_⟩
    rcases h with rfl | h
    · obtain ⟨s', hs'⟩ := Option.isSome_iff_exists.1 hk
      exact Option.isSome_iff_exists.2 ⟨s', Cluster.createSecret_keeps hs'⟩
    · cases h
      exact hk
  | _ => cases hc

theorem safe_of_adds (hL : ∀ c ∈ L, adds c = true)
    (hJ : ∀ w w', w'.deployments = w.deployments →
      (∀ k, w.secrets.contains k = true → w'.secrets.contains k = true) → J w → J w') : Safe J L := by
  intro w m w' hs hw
  refine hs.keeps hw (fun _ _ hx => hx.elim) fun c hc x y hl hx => ?_
  obtain ⟨hd, hsec⟩ := adds_frame (hL c hc) hl
  exact hJ x y hd hsec hx

structure Mounts (key : ObjectKey) (n : String) (w : Cluster) : Prop where
  mounted : ∀ d, w.deployments.get? key = some d → d.configSecret? = some n
  present : w.secrets.contains ⟨key.ns, n⟩ = true

theorem Mounts.existing {w : Cluster} (h : Mounts key n w) : w.MountsExisting key :=
  fun d hd => ⟨n, h.mounted d hd, h.present⟩

theorem mountsExisting_of_adds (hL : ∀ c ∈ L, adds c = true) : Safe (Cluster.MountsExisting key) L :=
  safe_of_adds hL fun w w' hd hs hw d h => by
    obtain ⟨n, hn, hsec⟩ := hw d (hd ▸ h)
    exact ⟨n, hn, hs _ hsec⟩

theorem adds_creates (g : Option Secret) : ∀ c ∈ creates g, adds c = true := by
  intro c hc
  cases g with
  | none => cases hc
  | some x =>
    obtain rfl := List.mem_singleton.1 hc
    rfl

/-- After the `Deployment` with the configuration `n`, all but `n` may go. -/
theorem safe_apply_prune {d : Deployment} {app : String} (hd : d.metadata.key = key) (hn : d.configSecret? = some n)
    {w w' : Cluster} {m : List (Cluster × Call)}
    (hs : Stops undisturbed w [.applyDeployment d, .pruneSecrets app key.ns (some n)] m w')
    (hw : w.MountsExisting key) (hp : w.secrets.contains ⟨key.ns, n⟩ = true) : w'.MountsExisting key := by
  have fails_apply {x y : Cluster} (h : x.Fails (.applyDeployment d) y) : y = x := by
    cases h
    rfl
  have prunes {x y : Cluster} (h : x.Leaves (.pruneSecrets app key.ns (some n)) y) (hx : Mounts key n x) :
      Mounts key n y := by
    obtain ⟨names, hnames, rfl⟩ := h.prune
    refine ⟨hx.mounted, ?_⟩
    rw [Dict.contains, Cluster.prune_keeps hnames]
    exact hx.present
  cases hs with
  | here h => exact h.eq_of_undisturbed ▸ hw
  | fail h hf h' =>
    rw [h'.eq_of_undisturbed, fails_apply hf, h.eq_of_undisturbed]
    exact hw
  | act h hs =>
    rw [h.eq_of_undisturbed] at hs
    -- from here on the pods mount `n`
    have hx : Mounts key n (w.perform (.applyDeployment d)).cluster := by
      refine ⟨fun d' hd' => ?_, hp⟩
      rw [← hd, Cluster.applyDeployment_get?_self] at hd'
      cases hd'
      exact hn
    refine (hs.keeps hx (fun _ _ hx => hx.elim) fun c hc x y => ?_).existing
    obtain rfl := List.mem_singleton.1 hc
    exact prunes

theorem created_present {g : Secret} {w w' : Cluster} {m : List (Cluster × Call)}
    (hs : Stops undisturbed w (.createSecret g :: L) m w') (hm : m.map Prod.snd = .createSecret g :: L)
    (hL : ∀ c ∈ L, adds c = true) : w'.secrets.contains g.metadata.key = true := by
  cases hs with
  | here => cases hm
  | fail => cases hm
  | act h hs =>
    refine hs.keeps (J := fun x => x.secrets.contains g.metadata.key = true) ?_ (fun _ _ hx => hx.elim) ?_
    · rw [Dict.contains, Cluster.createSecret_get?_self]
      rfl
    · exact fun c hc x y hl => (adds_frame (hL c hc) hl).2 _

variable {A : Edit → Prop} {v : Cluster} {t : List Move} {s : Settings} {a : App} {c : DeploymentConfig}
  {e : Executor} {b : Bool}

/-- Whatever a pass writes to realize an app without a ready-made configuration, it keeps what is mounted. -/
theorem realize_safe (ha : a.metadata.key = key) (hv : a.spec.runtimeConfig.verbatimSecret = none)
    (hL : RealizePlan A v t s a c b L) : Safe (Cluster.MountsExisting key) L := by
  have adds_both (g ca : Option Secret) : ∀ c ∈ creates g ++ creates ca, adds c = true := fun c hc =>
    (List.mem_append.1 hc).elim (adds_creates g c) (adds_creates ca c)
  cases hL with
  | nothing => exact mountsExisting_of_adds (List.forall_mem_nil _)
  | config => exact mountsExisting_of_adds (adds_creates _)
  | certificates => exact mountsExisting_of_adds (adds_both _ _)
  | @whole g ca name d hg _ hd =>
    cases hg with
    | verbatim h => rw [hv] at h; cases h
    | @generated _ _ x _ _ _ hx =>
      intro w m w' hs hw
      rcases hs.split with hs | ⟨y, m₁, m₂, -, hm, h₁, h₂⟩
      · exact mountsExisting_of_adds (adds_both _ _) _ _ _ hs hw
      · have hy := mountsExisting_of_adds (adds_both (some x) ca) _ _ _ h₁ hw
        have hx := configSecret_ok hx
        obtain ⟨hkey, -, -⟩ := deployment_ok hd
        have hname : generatedName (some x) = x.metadata.name := by simp [generatedName, ObjectMeta.anyName, hx.1]
        rw [hname, hx.1] at hd h₂
        have hkey : d.metadata.key = key := hkey.trans ha
        have hns : a.ns = key.ns := congrArg ObjectKey.ns ha
        rw [hns] at h₂
        refine safe_apply_prune hkey (deployment_generated hd) h₂ hy ?_
        rw [← hns, ← hx.2.1]
        exact created_present h₁ hm (adds_creates ca)

theorem children_safe (ha : a.metadata.key = key) (hv : a.spec.runtimeConfig.verbatimSecret = none)
    (hL : ChildrenPlan A v t s a key e b L) : Safe (Cluster.MountsExisting key) L := by
  cases hL with
  | managed _ hL => exact realize_safe ha hv hL
  | external =>
    intro w m w' hs hw
    refine hs.keeps hw (fun _ _ hx => hx.elim) fun c hc x y hl hx => ?_
    obtain rfl := List.mem_singleton.1 hc
    rcases hl with rfl | hf
    · intro d hd
      cases (Dict.get?_erase_self x.deployments key).symm.trans hd
    · cases hf
      exact hx

theorem converge_safe (ha : a.metadata.key = key) (hv : a.spec.runtimeConfig.verbatimSecret = none)
    (hL : ConvergePlan A v t s a key e b L) : Safe (Cluster.MountsExisting key) L := by
  cases hL with
  | deleting => exact mountsExisting_of_adds (List.forall_mem_nil _)
  | children _ hL => exact children_safe ha hv hL
  | whole _ hL =>
    refine (children_safe ha hv hL).append (mountsExisting_of_adds fun c hc => ?_)
    obtain rfl := List.mem_singleton.1 hc
    rfl

theorem status_safe {P : List Call} (hP : StatusPlan A v t s a e b P) : Safe (Cluster.MountsExisting key) P := by
  refine mountsExisting_of_adds fun c hc => ?_
  have ht := hP.target c hc
  cases c with
  | patchAppStatus => rfl
  | _ => cases ht

/-- **A pass leaves pods that mount an existing configuration**, wherever it ends. -/
theorem pass_keeps_mount {w w' : Cluster} {t : List Move} {r : Option (Except Error Action)}
    (hk : w.Keyed) (hv : ∀ a ∈ w.apps.get? key, a.spec.runtimeConfig.verbatimSecret = none)
    (h : Pass.Run undisturbed (App.pass s key).run w t w' r) (hw : w.MountsExisting key) : w'.MountsExisting key := by
  obtain ⟨b, L, hplan, o, -⟩ := pass_run h
  refine (?_ : Safe (Cluster.MountsExisting key) L) _ _ _ o.stops hw
  cases hplan with
  | nothing | absent => exact mountsExisting_of_adds (List.forall_mem_nil _)
  | observed _ _ _ _ hP => exact status_safe hP
  | vanished _ _ _ _ hP => exact status_safe hP
  | external ha _ _ _ hL =>
    have ha' := ha.undisturbed.2
    exact converge_safe (hk.apps _ _ ha') (hv _ ha') hL
  | managed ha hy _ _ hP hz hm hf hL =>
    -- the app that the children are made for is the one that was there at the beginning, but for its status
    have hy := hy.eq_of_undisturbed.trans ha.edited.eq_of_undisturbed
    obtain ⟨a, ha, hd⟩ := (hz.declares hP.target).1 _ hf.undisturbed.2
    rw [hy] at ha
    refine (status_safe hP).append (converge_safe (hd.key.trans (hk.apps _ _ ha)) ?_ hL)
    rw [hd.spec]
    exact hv _ ha

/-- A pass over a changed app that is cut when it has applied the new `Deployment` and not yet deleted the old
`Secret`. -/
theorem cut_pass_keeps_mount :
    (Sample.changed (Sample.storeAt "a") (Sample.storeAt "b")).MountsExisting Sample.key ∧
      (Sample.pass (some 5) [⟨"prune_runtime_config_secrets", none, none, 10, none, []⟩]
        (Sample.changed (Sample.storeAt "a") (Sample.storeAt "b"))).1.cluster.MountsExisting Sample.key := by
  have hw : (Sample.changed (Sample.storeAt "a") (Sample.storeAt "b")).MountsExisting Sample.key := by decide +kernel
  have hv : ∀ a ∈ (Sample.changed (Sample.storeAt "a") (Sample.storeAt "b")).apps.get? Sample.key,
      a.spec.runtimeConfig.verbatimSecret = none := by decide +kernel
  obtain ⟨t, -, h⟩ := Sample.pass_run (some 5) [⟨"prune_runtime_config_secrets", none, none, 10, none, []⟩]
    (Sample.changed (Sample.storeAt "a") (Sample.storeAt "b")) (by decide)
  exact ⟨hw, pass_keeps_mount (Sample.keyed_changed _ _) hv h hw⟩

end App

end SpinFleet
