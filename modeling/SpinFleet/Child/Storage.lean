import SpinFleet.Child.Identity
import SpinFleet.RuntimeConfig.Document
/-!
# Volumes of an app's pods

Three groups in this order: the configuration, the volumes of the app's author, and the
certificates.  The configuration comes from a `Secret` of the author's or from a generated one,
never from both.
-/
namespace SpinFleet.Storage

def configVolume : String := "spin-runtime-config"

def configPath : String := "/runtime-config.toml"

def caVolume : String := "spin-ca"

def caKey : String := "ca-certificates.crt"

def caPath : String := "/etc/ssl/certs/ca-certificates.crt"

structure File where
  volume : String
  secret : String
  key : String
  path : String
deriving DecidableEq, Repr

def File.toVolume (f : File) : Volume := .ofSecretFile f.volume f.secret f.key

def File.toMount (f : File) : VolumeMount := .ofFile f.volume f.path f.key

def configFile (secret : String) : File := ⟨configVolume, secret, runtimeConfigKey, configPath⟩

def caFile (secret : String) : File := ⟨caVolume, secret, caKey, caPath⟩

/-- The `Secret` with the configuration: the author's or the generated one. -/
def configSecret (a : App) (generated : Option String) : Except Error (Option String) :=
  match a.spec.runtimeConfig.verbatimSecret, generated with
  | some _, some _ => .error (.construct "volumes"
      "cannot specify both a user-provided runtime secret and a generated one")
  | some s, none => .ok (some s)
  | none, g => .ok g

structure Plan where
  volumes : List Volume
  mounts : List VolumeMount

/-- The volumes between the operator's own files. -/
def plan (a : App) (config ca : Option File) : Plan where
  volumes := (config.map File.toVolume).toList ++ a.spec.volumes ++ (ca.map File.toVolume).toList
  mounts := (config.map File.toMount).toList ++ a.spec.volumeMounts ++ (ca.map File.toMount).toList

def ofApp (a : App) (generated ca : Option String) : Except Error Plan := do
  let config ← configSecret a generated
  return plan a (config.map configFile) (ca.map caFile)

end SpinFleet.Storage
