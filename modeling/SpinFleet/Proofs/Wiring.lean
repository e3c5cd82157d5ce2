import SpinFleet.Proofs.Agreement
import SpinFleet.Proofs.Undisturbed
/-!
# Wiring — how the configuration and the certificates reach the container

Between a configuration and the runtime that reads it stand a `Secret`, a volume, a mount and an argument, and they are
chosen in different places: the argument is there if something is mounted where the runtime looks, whoever mounts it.
They fit together in each `Deployment` that a pass applies (`App.pass_wires`): the `Secret` is the author's or the one
that is named after the text which the pass has made, it is mounted first, and a container that takes arguments is told
of it.  What the app's author mounts stands between this and the certificates.
-/
namespace SpinFleet

/-! ## What is asked for -/

def Given (o : Option String) (n : String) : Prop := o = some n ∧ n ≠ ""

theorem nonEmpty_eq_some {o : Option String} {n : String} : nonEmpty o = some n ↔ Given o n := by
  unfold nonEmpty Given
  rw [Option.filter_eq_some_iff]
  simp

theorem nonEmpty_eq_none {o : Option String} : nonEmpty o = none ↔ ∀ n, ¬ Given o n := by
  constructor
  · intro h n hn
    cases (nonEmpty_eq_some.2 hn).symm.trans h
  · intro h
    cases ho : nonEmpty o with
    | none => rfl
    | some n => exact (h n (nonEmpty_eq_some.1 ho)).elim

/-- Where the certificates of an executor's pods come from: the executor's own `Secret`, or the default one if that is
asked for instead. -/
inductive DeploymentConfig.Certifies (c : DeploymentConfig) : String → Prop
  | own {n} (h : Given c.caCertSecret n) : Certifies c n
  | default (h : ∀ n, ¬ Given c.caCertSecret n) (hd : c.installDefaultCACerts = true) : Certifies c "spin-ca"

/-- Where the configuration of an app comes from: a `Secret` of its author's, or one that is named after the app and
the text of the document that the objects which were read give. -/
inductive App.ConfiguredBy (A : Edit → Prop) (w : Cluster) (t : List Move) (a : App) : String → Prop
  | loaded {n} (h : Given a.spec.runtimeConfig.loadFromSecret n) : ConfiguredBy A w t a n
  | rendered {resolved d} (h : ∀ n, ¬ Given a.spec.runtimeConfig.loadFromSecret n)
      (hr : Reads A w t (References.ofApp a).toList .empty resolved) (hd : Document.build a resolved = .ok d) :
      ConfiguredBy A w t a (Document.secretName a.name d.toToml)

/-! ## What a pod looks like -/

structure Volume.Holds (v : Volume) (name secret file : String) : Prop where
  name_eq : v.name = name
  source : ∃ s, v.secret = some s ∧ s.secretName = some secret ∧ s.items = some [⟨file, file, none⟩]

theorem Volume.holds_ofSecretFile (name secret file : String) :
    (Volume.ofSecretFile name secret file).Holds name secret file :=
  ⟨rfl, _, rfl, rfl, rfl⟩

structure VolumeMount.Shows (m : VolumeMount) (volume path file : String) : Prop where
  name_eq : m.name = volume
  mountPath_eq : m.mountPath = path
  subPath_eq : m.subPath = some file
  readOnly_eq : m.readOnly = some true

theorem VolumeMount.shows_ofFile (volume path file : String) :
    (VolumeMount.ofFile volume path file).Shows volume path file :=
  ⟨rfl, rfl, rfl, rfl⟩

/-- The last volumes and mounts of a pod: those of the certificates, if there are any. -/
inductive DeploymentConfig.Appends (c : DeploymentConfig) : List Volume → List VolumeMount → Prop
  | certificates {n v m} (h : c.Certifies n) (hv : v.Holds "spin-ca" n "ca-certificates.crt")
      (hm : m.Shows "spin-ca" "/etc/ssl/certs/ca-certificates.crt" "ca-certificates.crt") : Appends c [v] [m]
  | nothing (h : ∀ n, ¬ c.Certifies n) : Appends c [] []

/-- The two ways of running a container, of which an executor's configuration names one: arguments for an image, or a
command that stands for what the runtime class does. -/
inductive DeploymentConfig.Starts (c : DeploymentConfig) (image : String) (x : Container) : Prop
  | image {i} (h : Given c.spinImage i) (hno : ∀ r, ¬ Given c.runtimeClassName r)
      (hargs : x.args = some ["up", "--listen", "0.0.0.0:80", "-f", image,
        "--runtime-config-file", "/runtime-config.toml"])
      (hcommand : x.command = none)
  | runtimeClass {r} (h : Given c.runtimeClassName r) (hno : ∀ i, ¬ Given c.spinImage i) (hargs : x.args = none)
      (hcommand : x.command = some ["/"])

theorem DeploymentConfig.profile_ok {c : DeploymentConfig} {p : Profile} (h : c.profile = .ok p) :
    (∃ i, p = .image i ∧ Given c.spinImage i ∧ ∀ r, ¬ Given c.runtimeClassName r) ∨
    ∃ r, p = .runtimeClass r ∧ Given c.runtimeClassName r ∧ ∀ i, ¬ Given c.spinImage i := by
  unfold profile at h
  cases hr : c.runtimeClass with
  | none =>
    cases hi : c.image with
    | none => rw [hr, hi] at h; cases h
    | some i =>
      rw [hr, hi] at h
      cases h
      exact .inl ⟨i, rfl, nonEmpty_eq_some.1 hi, nonEmpty_eq_none.1 hr⟩
  | some r =>
    cases hi : c.image with
    | some i => rw [hr, hi] at h; cases h
    | none =>
      rw [hr, hi] at h
      cases h
      exact .inr ⟨r, rfl, nonEmpty_eq_some.1 hr, nonEmpty_eq_none.1 hi⟩

/-- **A `Deployment` whose container is told of its configuration**, which is in the `Secret` named `secret`. -/
structure Deployment.Wired (d : Deployment) (a : App) (c : DeploymentConfig) (secret : String) (pod : PodSpec)
    (x : Container) : Prop where
  pod_eq : d.spec.bind (fun s => s.template.spec) = some pod
  containers_eq : pod.containers = [x]
  volumes : ∃ v m vs ms, v.Holds "spin-runtime-config" secret "runtime-config.toml" ∧
    m.Shows "spin-runtime-config" "/runtime-config.toml" "runtime-config.toml" ∧ c.Appends vs ms ∧
    pod.volumes = some (v :: a.spec.volumes ++ vs) ∧ x.volumeMounts = some (m :: a.spec.volumeMounts ++ ms)
  starts : c.Starts a.spec.image x

namespace App

open Cluster (Edited)

variable {A : Edit → Prop} {w w' y : Cluster} {t : List Move} {s : Settings} {key : ObjectKey} {a : App}
  {c : DeploymentConfig} {d : Deployment}

theorem certificates_appends {ca : Option Secret} {n : Option String} (h : a.certificates s c = some (ca, n)) :
    c.Appends ((n.map Storage.caFile).map Storage.File.toVolume).toList
      ((n.map Storage.caFile).map Storage.File.toMount).toList := by
  have appended {m : String} (h : c.Certifies m) :
      c.Appends [(Storage.caFile m).toVolume] [(Storage.caFile m).toMount] :=
    .certificates h (Volume.holds_ofSecretFile ..) (VolumeMount.shows_ofFile ..)
  unfold certificates at h
  cases hc : c.caSecret with
  | some m =>
    rw [hc] at h
    cases h
    exact appended (.own (nonEmpty_eq_some.1 hc))
  | none =>
    rw [hc] at h
    have hno := nonEmpty_eq_none.1 hc
    cases hi : c.installDefaultCACerts with
    | false =>
      rw [hi] at h
      cases h
      refine .nothing fun m hm => ?_
      cases hm with
      | own h => exact hno m h
      | default _ hd => cases hi.symm.trans hd
    | true =>
      rw [hi] at h
      obtain ⟨b, -, hb⟩ := Option.map_eq_some_iff.1 h
      cases hb
      exact appended (.default hno hi)

theorem Configures.configuredBy {g : Option Secret} {config : Option String} (h : Configures A w t a g)
    (hc : Storage.configSecret a (generatedName g) = .ok config) : ∃ n, config = some n ∧ ConfiguredBy A w t a n := by
  unfold Storage.configSecret at hc
  cases h with
  | verbatim h =>
    obtain ⟨n, hn⟩ := Option.isSome_iff_exists.1 h
    rw [hn] at hc
    cases hc
    exact ⟨n, rfl, .loaded (nonEmpty_eq_some.1 hn)⟩
  | @generated resolved doc x hv hr hd hx =>
    rw [hv] at hc
    cases hc
    have hname : x.metadata.anyName = Document.secretName a.name doc.toToml := by
      simp [ObjectMeta.anyName, (configSecret_ok hx).1]
    exact ⟨_, congrArg some hname, .rendered (nonEmpty_eq_none.1 hv) hr hd⟩

/-- **What is built for an app is wired**, with the configuration from either place. -/
theorem deployment_wired {g ca : Option Secret} {n : Option String} (hg : Configures A w t a g)
    (hca : a.certificates s c = some (ca, n)) (hd : a.deployment c (generatedName g) n = .ok d) :
    ∃ secret pod x, ConfiguredBy A w t a secret ∧ d.Wired a c secret pod x := by
  obtain ⟨profile, config, probes, owner, hprofile, hconfig, -, rfl⟩ := deployment_parts hd
  obtain ⟨secret, rfl, hsecret⟩ := hg.configuredBy hconfig
  refine ⟨secret, _, _, hsecret, rfl, rfl, ?_, ?_⟩
  · exact ⟨_, _, _, _, Volume.holds_ofSecretFile .., VolumeMount.shows_ofFile .., certificates_appends hca, rfl, rfl⟩
  · -- the configuration is mounted first, so it is found among the mounts
    have hargs (i : String) : (Profile.image i).args a.spec.image
        ((Storage.plan a (some (Storage.configFile secret)) (n.map Storage.caFile)).mounts.any fun m =>
          m.mountPath == Storage.configPath) = some ["up", "--listen", "0.0.0.0:80", "-f", a.spec.image,
            "--runtime-config-file", "/runtime-config.toml"] := rfl
    rcases c.profile_ok hprofile with ⟨i, rfl, hi, hno⟩ | ⟨r, rfl, hr, hno⟩
    · exact .image hi hno (hargs i) rfl
    · exact .runtimeClass hr hno rfl rfl

/-- **A configuration reaches the container**, whenever a pass applies a `Deployment`: it is wired for the app that the
pass has found and the configuration of the executor that the app names. -/
theorem pass_wires {r : Option (Except Error Action)} (h : Pass.Run A (App.pass s key).run w t w' r)
    (hd : .acted y (.applyDeployment d) ∈ t) :
    ∃ first seen e asked a fresh secret pod x, Sees A w t key seen first ∧
      Edited A seen asked ∧ asked.executors.get? ⟨key.ns, first.spec.executor⟩ = some e ∧
      e.spec.createDeployment = true ∧ .acted fresh (.getApp key.name key.ns) ∈ t ∧ fresh.apps.get? key = some a ∧
      ConfiguredBy A fresh t a secret ∧ d.Wired a e.spec.config secret pod x := by
  obtain ⟨b, L, hplan, o, -⟩ := pass_run h
  obtain ⟨p, rfl⟩ := hplan.applying (o.stops.planned rfl hd)
  obtain ⟨secret, pod, x, hsecret, hwired⟩ := deployment_wired p.configures p.certificates_eq p.deployment_eq
  exact ⟨_, _, _, _, _, _, secret, pod, x, p.sees, p.edited, p.found, p.creating, p.sees_app.asked, p.sees_app.found,
    hsecret, hwired⟩

/-- A pod of an app with a configuration of its author's, which a runtime class runs. -/
theorem ready_made_wired : ∃ t w' v d y pod x f fs,
    Pass.Run undisturbed (App.pass Sample.settings Sample.key).run (Sample.cluster (Sample.readyMade "own")) t w'
      (some (.ok v)) ∧ .acted y (.applyDeployment d) ∈ t ∧
    d.spec.bind (fun s => s.template.spec) = some pod ∧ pod.containers = [x] ∧ x.args = none ∧ x.command = some ["/"] ∧
    pod.volumes = some (f :: fs) ∧ f.Holds "spin-runtime-config" "own" "runtime-config.toml" := by
  have hk : (Sample.cluster (Sample.readyMade "own")).Keyed := Cluster.keyed_ofEdits _
  have ha : (Sample.cluster (Sample.readyMade "own")).apps.get? Sample.key =
      some (Sample.app (Sample.readyMade "own")) := Dict.get?_insert_self ..
  have he : (Sample.cluster (Sample.readyMade "own")).executors.get? ⟨"default", "shim"⟩ =
      some (Sample.executor .empty) := Dict.get?_insert_self ..
  obtain ⟨t, -, h⟩ := Sample.pass_undisturbed (Sample.cluster (Sample.readyMade "own"))
  obtain ⟨v, hv⟩ := Sample.eq_of_succeeds (r := (Sample.pass none [] (Sample.cluster (Sample.readyMade "own"))).2)
    (by decide +kernel)
  rw [hv] at h
  obtain ⟨d, y, -, -, hd, -⟩ := pass_applies hk h ha rfl he rfl
  obtain ⟨first, seen, e, asked, a, fresh, secret, pod, x, hsees, hedited, hfound, -, hm, hfresh, hsecret, hwired⟩ :=
    pass_wires h hd
  -- the executor and the app are those of the cluster
  obtain ⟨rfl, hfirst⟩ := hsees.undisturbed
  cases ha.symm.trans hfirst
  rw [hedited.eq_of_undisturbed] at hfound
  cases he.symm.trans hfound
  obtain ⟨a', ha', hdecl⟩ := h.declares hm hfresh
  cases ha.symm.trans ha'
  have hload : a.spec.runtimeConfig.loadFromSecret = some "own" := by rw [hdecl.spec]; rfl
  obtain rfl : secret = "own" := by
    cases hsecret with
    | loaded h => exact Option.some.inj (h.1.symm.trans hload)
    | rendered h => exact (h "own" ⟨hload, by decide⟩).elim
  obtain ⟨f, -, vs, -, hf, -, -, hvolumes, -⟩ := hwired.volumes
  cases hwired.starts with
  | image h hno => exact (hno "wasm" ⟨rfl, by decide⟩).elim
  | runtimeClass _ _ hargs hcommand =>
    exact ⟨t, _, v, d, y, pod, x, f, _, h, hd, hwired.pod_eq, hwired.containers_eq, hargs, hcommand, hvolumes, hf⟩

end App

end SpinFleet
