import SpinFleet.Kube.Meta
/-!
# Selecting a value

A configuration option, or a variable of a container, may take its value from a key of a
`Secret` or of a `ConfigMap`, from a field of the pod, or from a resource of the container.
-/
namespace SpinFleet

structure KeySelector where
  name : String
  key : String
  /-- Whether the pod may start without it. -/
  isOptional : Option Bool
deriving DecidableEq, Repr

namespace KeySelector

def record (what : String) : Record KeySelector where
  name := what
  start := ⟨"", "", none⟩
  fields := [
    .plain "key" .string "" key fun a x => { x with key := a },
    .free (.plain "name" .string "" name fun a x => { x with name := a }),
    .optional "optional" .boolean isOptional fun a x => { x with isOptional := a }]

def configMapCodec : Codec KeySelector := (record "ConfigMapKeySelector").lenient

def secretCodec : Codec KeySelector := (record "SecretKeySelector").lenient

end KeySelector

structure EnvVarSource where
  configMapKeyRef : Option KeySelector
  secretKeyRef : Option KeySelector
  carried : Carried

namespace EnvVarSource

def fieldSelector : Shape := .record "ObjectFieldSelector"
  [("fieldPath", .text)] [("apiVersion", .text)]

def resourceFieldSelector : Shape := .record "ResourceFieldSelector"
  [("resource", .text)] [("containerName", .text), ("divisor", .quantity)]

def record : Record EnvVarSource where
  name := "EnvVarSource"
  start := ⟨none, none, .empty⟩
  fields := [
    .optional "configMapKeyRef" KeySelector.configMapCodec configMapKeyRef
      fun a x => { x with configMapKeyRef := a },
    .optional "secretKeyRef" KeySelector.secretCodec secretKeyRef
      fun a x => { x with secretKeyRef := a }]
    ++ Field.carriedAll carried (fun a x => { x with carried := a })
      [("fieldRef", fieldSelector), ("resourceFieldRef", resourceFieldSelector)]

def codec : Codec EnvVarSource := record.lenient

end EnvVarSource

structure EnvVar where
  name : String
  value : Option String
  valueFrom : Option EnvVarSource

namespace EnvVar

def record : Record EnvVar where
  name := "EnvVar"
  start := ⟨"", none, none⟩
  fields := [
    .plain "name" .string "" name fun a x => { x with name := a },
    .optional "value" .string value fun a x => { x with value := a },
    .optional "valueFrom" EnvVarSource.codec valueFrom fun a x => { x with valueFrom := a }]

def codec : Codec EnvVar := record.lenient

def ofValue (name value : String) : EnvVar := ⟨name, some value, none⟩

end EnvVar

end SpinFleet
