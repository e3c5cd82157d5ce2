import SpinFleet.Executor
/-!
# Manifests of the operator's kinds

The cluster learns the operator's two kinds from manifests: how they are called, what their objects
look like, and which columns a list of them has.  What the objects look like is what their codecs
say, so a manifest describes exactly the fields that are read.
-/
namespace SpinFleet

structure Column where
  name : String
  type : String
  /-- Where an object holds the value of the column. -/
  path : String
deriving DecidableEq, Repr

structure KindDefinition where
  kind : String
  plural : String
  shortNames : List String
  columns : List Column
  spec : Schema
  status : Schema
  /-- The name of the specification's type, which the description names. -/
  specName : String

namespace KindDefinition

def group : String := "core.spinoperator.dev"

def name (d : KindDefinition) : String := d.plural ++ "." ++ group

def schema (d : KindDefinition) : Schema :=
  ((Schema.record [("spec", d.spec), ("status", d.status.nullable)] ["spec"]).described
    ("Auto-generated derived type for " ++ d.specName ++ " via `CustomResource`")).put
    "title" (.string d.kind)

def columnJson (c : Column) : Json := .object [
  ("jsonPath", .string c.path), ("name", .string c.name), ("type", .string c.type)]

def names (d : KindDefinition) : Json := .object [
  ("categories", .array []), ("kind", .string d.kind), ("plural", .string d.plural),
  ("shortNames", .array (d.shortNames.map .string)), ("singular", .string d.kind.toLower)]

def version (d : KindDefinition) : Json := .object [
  ("additionalPrinterColumns", .array (d.columns.map columnJson)),
  ("name", .string "v1alpha1"),
  ("schema", .object [("openAPIV3Schema", d.schema.json)]),
  ("served", .bool true), ("storage", .bool true),
  ("subresources", .object [("status", .object [])])]

def manifest (d : KindDefinition) : Json := .object [
  ("apiVersion", .string "apiextensions.k8s.io/v1"),
  ("kind", .string "CustomResourceDefinition"),
  ("metadata", .object [("name", .string d.name)]),
  ("spec", .object [
    ("group", .string group), ("names", d.names), ("scope", .string "Namespaced"),
    ("versions", .array [d.version])])]

end KindDefinition

def App.definition : KindDefinition where
  kind := App.kind
  plural := "spinapps"
  shortNames := ["spinapp"]
  columns := [
    ⟨"Ready", "integer", ".status.readyReplicas"⟩, ⟨"Desired", "integer", ".spec.replicas"⟩,
    ⟨"Executor", "string", ".spec.executor"⟩]
  spec := AppSpec.codec.schema
  status := AppStatus.codec.schema
  specName := AppSpec.record.name

def Executor.definition : KindDefinition where
  kind := Executor.kind
  plural := "spinappexecutors"
  shortNames := []
  columns := [
    ⟨"Deployment", "boolean", ".spec.createDeployment"⟩,
    ⟨"RuntimeClass", "string", ".spec.deploymentConfig.runtimeClassName"⟩]
  spec := ExecutorSpec.codec.schema
  status := ExecutorStatus.codec.schema
  specName := ExecutorSpec.record.name

end SpinFleet
