import SpinFleet.App.Basic
/-!
# Executors

An executor is a policy of a namespace: whether the operator makes `Deployment`s for the apps
that name it, and how their pods run.
-/
namespace SpinFleet

structure OtelConfig where
  endpoint : String
  tracesEndpoint : String
  metricsEndpoint : String
  logsEndpoint : String
deriving DecidableEq, Repr

namespace OtelConfig

def record : Record OtelConfig where
  name := "OtelConfig"
  doc := "OpenTelemetry exporter endpoints. Field names follow the OTEL env vars."
  start := ⟨"", "", "", ""⟩
  fields := [
    .doc "Combined OTLP endpoint" <|
      .unlessEmpty "exporter_otlp_endpoint" .string String.isEmpty endpoint
        fun a x => { x with endpoint := a },
    .doc "Trace-specific OTLP endpoint" <|
      .unlessEmpty "exporter_otlp_traces_endpoint" .string String.isEmpty tracesEndpoint
        fun a x => { x with tracesEndpoint := a },
    .doc "Metrics-specific OTLP endpoint" <|
      .unlessEmpty "exporter_otlp_metrics_endpoint" .string String.isEmpty metricsEndpoint
        fun a x => { x with metricsEndpoint := a },
    .doc "Logs-specific OTLP endpoint" <|
      .unlessEmpty "exporter_otlp_logs_endpoint" .string String.isEmpty logsEndpoint
        fun a x => { x with logsEndpoint := a }]

def codec : Codec OtelConfig := record.strict

end OtelConfig

structure DeploymentConfig where
  runtimeClassName : Option String
  spinImage : Option String
  caCertSecret : Option String
  installDefaultCACerts : Bool
  otel : Option OtelConfig
deriving DecidableEq, Repr

namespace DeploymentConfig

def empty : DeploymentConfig := ⟨none, none, none, false, none⟩

def record : Record DeploymentConfig where
  name := "ExecutorDeploymentConfig"
  doc := "How Deployments for this executor are configured"
  start := empty
  fields := [
    .doc "Runtime class for app pods (shim execution). Mutually exclusive with `spinImage`." <|
      .optional "runtimeClassName" .string runtimeClassName
        fun a x => { x with runtimeClassName := a },
    .doc ("Image running Spin in a regular container. Mutually exclusive with " ++
          "`runtimeClassName`; app images must be pullable without auth.") <|
      .optional "spinImage" .string spinImage fun a x => { x with spinImage := a },
    .doc "Secret holding `ca-certificates.crt` mounted into app pods" <|
      .optional "caCertSecret" .string caCertSecret fun a x => { x with caCertSecret := a },
    .doc "Create a default CA bundle secret (`spin-ca`) when no `caCertSecret` is given" <|
      .defaulted "installDefaultCACerts" .boolean installDefaultCACerts
        fun a x => { x with installDefaultCACerts := a },
    .doc "OpenTelemetry exporter settings passed to app pods" <|
      .optional "otel" OtelConfig.codec otel fun a x => { x with otel := a }]

def codec : Codec DeploymentConfig := record.strict

def runtimeClass (c : DeploymentConfig) : Option String := nonEmpty c.runtimeClassName

def image (c : DeploymentConfig) : Option String := nonEmpty c.spinImage

def caSecret (c : DeploymentConfig) : Option String := nonEmpty c.caCertSecret

end DeploymentConfig

structure ExecutorSpec where
  createDeployment : Bool
  deploymentConfig : Option DeploymentConfig
deriving DecidableEq, Repr

namespace ExecutorSpec

def record : Record ExecutorSpec where
  name := "SpinAppExecutorSpec"
  doc := ("SpinAppExecutor defines how SpinApps that reference it are executed.\n\nExample: " ++
          "```yaml apiVersion: core.spinoperator.dev/v1alpha1 kind: SpinAppExecutor " ++
          "metadata: name: containerd-shim-spin spec: createDeployment: true " ++
          "deploymentConfig: runtimeClassName: wasmtime-spin-v2 installDefaultCACerts: true " ++
          "```")
  start := ⟨false, none⟩
  fields := [
    .doc "Whether the operator creates a Deployment for apps, or the app is realized externally" <|
      .required "createDeployment" .boolean createDeployment
        fun a x => { x with createDeployment := a },
    .doc "Deployment settings, used when `createDeployment` is true" <|
      .optional "deploymentConfig" DeploymentConfig.codec deploymentConfig
        fun a x => { x with deploymentConfig := a }]

def codec : Codec ExecutorSpec := record.strict

/-- The configuration, all defaults when there is none. -/
def config (s : ExecutorSpec) : DeploymentConfig := s.deploymentConfig.getD .empty

end ExecutorSpec

structure ExecutorStatus where
deriving DecidableEq, Repr

def ExecutorStatus.record : Record ExecutorStatus where
  name := "SpinAppExecutorStatus"
  doc := "Observed state of a SpinAppExecutor (currently empty)"
  start := ⟨⟩
  fields := []

def ExecutorStatus.codec : Codec ExecutorStatus := record.strict

structure Executor where
  metadata : ObjectMeta
  spec : ExecutorSpec
  status : Option ExecutorStatus

namespace Executor

def kind : String := "SpinAppExecutor"

def finalizer : String := "core.spinoperator.dev/finalizer"

def record : Record Executor where
  name := kind
  start := ⟨.empty, ⟨false, none⟩, none⟩
  fields := [
    .required "metadata" ObjectMeta.codec metadata fun a x => { x with metadata := a },
    .required "spec" ExecutorSpec.codec spec fun a x => { x with spec := a },
    { Field.optional "status" ExecutorStatus.codec status (fun a x => { x with status := a }) with
      presence := .named }]

/-- An executor is written with its version and kind, which are not looked at when it is read. -/
def codec : Codec Executor where
  decode := record.decodeStrict
  encode x := .object
    (("apiVersion", .string groupVersion) :: ("kind", .string kind) :: (record.encode x).members)

def name (e : Executor) : String := e.metadata.anyName

def ns (e : Executor) : String := e.metadata.nsOrEmpty

/-- Whether the operator holds the executor's deletion back. -/
def hasFinalizer (e : Executor) : Bool := e.metadata.finalizerList.contains finalizer

def reference (e : Executor) : ObjectReference where
  apiVersion := some groupVersion
  kind := some kind
  name := e.metadata.name
  ns := e.metadata.ns
  uid := e.metadata.uid
  resourceVersion := none
  fieldPath := none

end Executor

end SpinFleet
