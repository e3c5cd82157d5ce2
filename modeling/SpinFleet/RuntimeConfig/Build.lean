import SpinFleet.RuntimeConfig.Document
import SpinFleet.RuntimeConfig.References
/-!
# Building a document

The bindings of an app become a document once the objects that they refer to have been found.
The value of an option is the one written in the app; failing that a key of a `ConfigMap`, then a
key of a `Secret`; and the empty text where nothing is found.
-/
namespace SpinFleet.Document

def unmet (kind : String) (k : ObjectKey) : Error :=
  .internal "runtime_config"
    ("unmet dependency while building config: " ++ kind ++ " (" ++ k.text ++ ") not found")

def configMapValue (r : Resolved) (ns : String) (s : KeySelector) : Except Error Sensitive :=
  match r.configMaps.get? ⟨ns, s.name⟩ with
  | some c => .ok ⟨(c.text? s.key).getD ""⟩
  | none => .error (unmet "configmap" ⟨ns, s.name⟩)

def secretValue (r : Resolved) (ns : String) (s : KeySelector) : Except Error Sensitive :=
  match r.secrets.get? ⟨ns, s.name⟩ with
  | some c => .ok ⟨(c.text? s.key).getD ""⟩
  | none => .error (unmet "secret" ⟨ns, s.name⟩)

def sourceValue (r : Resolved) (ns : String) (s : OptionSource) : Except Error Sensitive :=
  match s.configMapKeyRef, s.secretKeyRef with
  | some k, _ => configMapValue r ns k
  | none, some k => secretValue r ns k
  | none, none => .ok .empty

def optionValue (r : Resolved) (ns : String) (o : BindingOption) : Except Error Sensitive :=
  match nonEmpty o.value, o.valueFrom with
  | some v, _ => .ok ⟨v⟩
  | none, some s => sourceValue r ns s
  | none, none => .ok .empty

def optionValues (r : Resolved) (ns : String) : List BindingOption →
    Except Error (List (String × Sensitive))
  | [] => .ok []
  | o :: os => do
    let v ← optionValue r ns o
    let rest ← optionValues r ns os
    return (o.name, v) :: rest

/-- The options of a binding.  The last of several options of a name stays, and the type of the
binding wins over an option with that name. -/
def resolveOptions (r : Resolved) (ns type : String) (os : List BindingOption) :
    Except Error OptionMap := do
  let entries ← optionValues r ns os
  return (Dict.ofList entries).insert "type" ⟨type⟩

def addBindings (r : Resolved) (ns : String) (category : Category) :
    List RuntimeBinding → Document → Except Error Document
  | [], d => .ok d
  | b :: bs, d => do
    let options ← resolveOptions r ns b.type b.options
    let d ← d.add category b.name options
    addBindings r ns category bs d

def addCompute (r : Resolved) (ns : String) (c : Option ComputeBinding) (d : Document) :
    Except Error Document :=
  match c with
  | none => .ok d
  | some c => do
    let options ← resolveOptions r ns c.type c.options
    d.add .llmCompute "" options

def build (a : App) (r : Resolved) : Except Error Document := do
  let c := a.spec.runtimeConfig
  let d ← addBindings r a.ns .keyValueStore c.keyValueStores withEnvProvider
  let d ← addBindings r a.ns .sqliteDatabase c.sqliteDatabases d
  addCompute r a.ns c.llmCompute d

end SpinFleet.Document
