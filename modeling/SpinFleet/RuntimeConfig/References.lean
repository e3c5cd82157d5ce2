import SpinFleet.App.Basic
import SpinFleet.Kube.Config
/-!
# What a configuration refers to

Options may take their values from `Secret`s and `ConfigMap`s of the app's namespace.  Several
options often select different keys of one object, so the references of an app are a set of
objects, and every object is looked up once.
-/
namespace SpinFleet

abbrev KeySet := Dict ObjectKey Unit

def KeySet.ofKeys (ks : List ObjectKey) : KeySet := Dict.ofList (ks.map fun k => (k, ()))

theorem KeySet.contains_ofKeys {ks : List ObjectKey} {k : ObjectKey} : (KeySet.ofKeys ks).contains k ↔ k ∈ ks := by
  have hempty : ¬ (Dict.empty : KeySet).contains k := nofun
  rw [KeySet.ofKeys, Dict.ofList, Dict.contains_insertMany, or_iff_left hempty, List.map_map]
  simp

inductive Reference
  | secret (key : ObjectKey)
  | configMap (key : ObjectKey)
deriving DecidableEq, Repr

structure References where
  secrets : KeySet
  configMaps : KeySet

namespace References

def empty : References := ⟨.empty, .empty⟩

def isEmpty (r : References) : Bool := r.secrets.isEmpty && r.configMaps.isEmpty

/-- The references in the order in which they are looked up. -/
def toList (r : References) : List Reference :=
  r.secrets.keys.map .secret ++ r.configMaps.keys.map .configMap

def ofSources (ns : String) (sources : List OptionSource) : References where
  secrets := .ofKeys (sources.filterMap fun s => s.secretKeyRef.map fun k => ⟨ns, k.name⟩)
  configMaps := .ofKeys (sources.filterMap fun s => s.configMapKeyRef.map fun k => ⟨ns, k.name⟩)

def options (c : RuntimeConfig) : List BindingOption :=
  (c.llmCompute.map ComputeBinding.options).getD []
    ++ c.keyValueStores.flatMap RuntimeBinding.options
    ++ c.sqliteDatabases.flatMap RuntimeBinding.options

/-- The references of an app; none if its configuration is ready made. -/
def ofApp (a : App) : References :=
  if a.spec.runtimeConfig.verbatimSecret.isSome then empty
  else ofSources a.ns ((options a.spec.runtimeConfig).filterMap BindingOption.valueFrom)

end References

structure Resolved where
  secrets : Dict ObjectKey Secret
  configMaps : Dict ObjectKey ConfigMap

namespace Resolved

def empty : Resolved := ⟨.empty, .empty⟩

def addSecret (k : ObjectKey) (s : Secret) (r : Resolved) : Resolved :=
  { r with secrets := r.secrets.insert k s }

def addConfigMap (k : ObjectKey) (c : ConfigMap) (r : Resolved) : Resolved :=
  { r with configMaps := r.configMaps.insert k c }

end Resolved

end SpinFleet
