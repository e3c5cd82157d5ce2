import SpinFleet.Kube.Pod
/-!
# What an app declares

The specification of an app: the image to run, how many replicas, the values of its variables,
its bindings to stores and databases, and the executor that is to run it.
-/
namespace SpinFleet

/-! ## Health checks -/

structure HttpProbe where
  path : String
  headers : List HttpHeader
deriving DecidableEq, Repr

namespace HttpProbe

def headerRecord : Record HttpHeader where
  name := "HttpHealthProbeHeader"
  doc := "A header sent with an HTTP health probe"
  start := ⟨"", ""⟩
  fields := [
    .doc "Header name" <|
      .required "name" .string HttpHeader.name fun a x => { x with name := a },
    .doc "Header value" <|
      .required "value" .string HttpHeader.value fun a x => { x with value := a }]

def record : Record HttpProbe where
  name := "HttpHealthProbe"
  doc := "HTTP transport of a health probe"
  start := ⟨"", []⟩
  fields := [
    .doc "Request path, e.g. /healthz" <|
      .required "path" .string path fun a x => { x with path := a },
    .doc "Extra request headers" <|
      .unlessEmpty "httpHeaders" (.list headerRecord.strict) List.isEmpty headers
        fun a x => { x with headers := a }]

def codec : Codec HttpProbe := record.strict

end HttpProbe

structure HealthProbe where
  httpGet : Option HttpProbe
  initialDelaySeconds : Int
  timeoutSeconds : Int
  periodSeconds : Int
  successThreshold : Int
  failureThreshold : Int
deriving DecidableEq, Repr

namespace HealthProbe

def record : Record HealthProbe where
  name := "HealthProbe"
  doc := "A single health probe"
  start := ⟨none, 10, 1, 10, 1, 3⟩
  fields := [
    .doc "HTTP GET transport. Required; a probe without it is rejected at reconcile time." <|
      .optional "httpGet" HttpProbe.codec httpGet fun a x => { x with httpGet := a },
    .doc "Seconds after start before the first probe" <|
      .defaulted "initialDelaySeconds" .int32 initialDelaySeconds
        fun a x => { x with initialDelaySeconds := a },
    .doc "Seconds after which the probe times out" <|
      .defaulted "timeoutSeconds" .int32 timeoutSeconds fun a x => { x with timeoutSeconds := a },
    .doc "Probe interval in seconds" <|
      .defaulted "periodSeconds" .int32 periodSeconds fun a x => { x with periodSeconds := a },
    .doc "Consecutive successes to be considered healthy" <|
      .defaulted "successThreshold" .int32 successThreshold
        fun a x => { x with successThreshold := a },
    .doc "Consecutive failures to be considered unhealthy" <|
      .defaulted "failureThreshold" .int32 failureThreshold
        fun a x => { x with failureThreshold := a }]

def codec : Codec HealthProbe := record.strict

end HealthProbe

structure HealthChecks where
  readiness : Option HealthProbe
  liveness : Option HealthProbe
deriving DecidableEq, Repr

namespace HealthChecks

def record : Record HealthChecks where
  name := "HealthChecks"
  doc := "Readiness and liveness probes"
  start := ⟨none, none⟩
  fields := [
    .doc "Readiness probe" <|
      .optional "readiness" HealthProbe.codec readiness fun a x => { x with readiness := a },
    .doc "Liveness probe" <|
      .optional "liveness" HealthProbe.codec liveness fun a x => { x with liveness := a }]

def codec : Codec HealthChecks := record.strict

end HealthChecks

/-! ## Runtime configuration -/

structure OptionSource where
  configMapKeyRef : Option KeySelector
  secretKeyRef : Option KeySelector
deriving DecidableEq, Repr

namespace OptionSource

def record : Record OptionSource where
  name := "RuntimeConfigVarSource"
  doc := "Source of a runtime config option value"
  start := ⟨none, none⟩
  fields := [
    .doc "Selects a key of a ConfigMap" <|
      .optional "configMapKeyRef" KeySelector.configMapCodec configMapKeyRef
        fun a x => { x with configMapKeyRef := a },
    .doc "Selects a key of a Secret" <|
      .optional "secretKeyRef" KeySelector.secretCodec secretKeyRef
        fun a x => { x with secretKeyRef := a }]

def codec : Codec OptionSource := record.strict

end OptionSource

structure BindingOption where
  name : String
  value : Option String
  valueFrom : Option OptionSource
deriving DecidableEq, Repr

namespace BindingOption

def record : Record BindingOption where
  name := "RuntimeConfigOption"
  doc := "One option of a binding"
  start := ⟨"", none, none⟩
  fields := [
    .doc "Option key" <|
      .required "name" .string name fun a x => { x with name := a },
    .doc "Static value" <|
      .optional "value" .string value fun a x => { x with value := a },
    .doc "Reference to a key in a Secret or ConfigMap of the app's namespace" <|
      .optional "valueFrom" OptionSource.codec valueFrom fun a x => { x with valueFrom := a }]

def codec : Codec BindingOption := record.strict

end BindingOption

structure RuntimeBinding where
  name : String
  type : String
  options : List BindingOption
deriving DecidableEq, Repr

namespace RuntimeBinding

def record : Record RuntimeBinding where
  name := "RuntimeBinding"
  doc := "A named store or database binding: a free-form type tag plus options"
  start := ⟨"", "", []⟩
  fields := [
    .doc "Name the app refers to the binding by" <|
      .required "name" .string name fun a x => { x with name := a },
    .doc "Backend type (e.g. redis, spin, libsql). Not validated." <|
      .required "type" .string type fun a x => { x with type := a },
    .doc "Backend options" <|
      .unlessEmpty "options" (.list BindingOption.codec) List.isEmpty options
        fun a x => { x with options := a }]

def codec : Codec RuntimeBinding := record.strict

end RuntimeBinding

/-- What computes the answers of language models.  There is at most one, so it has no name. -/
structure ComputeBinding where
  type : String
  options : List BindingOption
deriving DecidableEq, Repr

namespace ComputeBinding

def record : Record ComputeBinding where
  name := "LlmComputeBinding"
  doc := "The LLM compute binding. There is at most one per app, so it has no name."
  start := ⟨"", []⟩
  fields := [
    .doc "Backend type (e.g. spin, remote_http)" <|
      .required "type" .string type fun a x => { x with type := a },
    .doc "Backend options" <|
      .unlessEmpty "options" (.list BindingOption.codec) List.isEmpty options
        fun a x => { x with options := a }]

def codec : Codec ComputeBinding := record.strict

end ComputeBinding

/-- What an app's configuration is made from: a `Secret` that holds it ready made, or bindings. -/
structure RuntimeConfig where
  loadFromSecret : Option String
  sqliteDatabases : List RuntimeBinding
  keyValueStores : List RuntimeBinding
  llmCompute : Option ComputeBinding
deriving DecidableEq, Repr

/-- A text that counts as absent when it is empty. -/
def nonEmpty (s : Option String) : Option String := s.filter (fun t => !t.isEmpty)

namespace RuntimeConfig

def empty : RuntimeConfig := ⟨none, [], [], none⟩

def record : Record RuntimeConfig where
  name := "RuntimeConfig"
  doc := ("Runtime configuration for an app.\n\nEither `loadFromSecret` names a secret that " ++
          "already holds a complete `runtime-config.toml`, or the binding lists are " ++
          "rendered into one.")
  start := empty
  fields := [
    .doc "Secret holding a verbatim runtime config; all other fields are ignored" <|
      .optional "loadFromSecret" .string loadFromSecret fun a x => { x with loadFromSecret := a },
    .doc "SQLite database bindings (e.g. on-disk, libsql)" <|
      .unlessEmpty "sqliteDatabases" (.list RuntimeBinding.codec) List.isEmpty sqliteDatabases
        fun a x => { x with sqliteDatabases := a },
    .doc "Key-value store bindings" <|
      .unlessEmpty "keyValueStores" (.list RuntimeBinding.codec) List.isEmpty keyValueStores
        fun a x => { x with keyValueStores := a },
    .doc "LLM compute binding" <|
      .optional "llmCompute" ComputeBinding.codec llmCompute fun a x => { x with llmCompute := a }]

def codec : Codec RuntimeConfig := record.strict

def verbatimSecret (r : RuntimeConfig) : Option String := nonEmpty r.loadFromSecret

end RuntimeConfig

/-! ## Variables and resources -/

structure Variable where
  name : String
  value : Option String
  valueFrom : Option EnvVarSource

namespace Variable

def record : Record Variable where
  name := "SpinVar"
  doc := "Binding between a Spin variable and a static or referenced value"
  start := ⟨"", none, none⟩
  fields := [
    .doc "Spin variable name (lowercase, digits and `_`)" <|
      .required "name" .string name fun a x => { x with name := a },
    .doc "Static value" <|
      .optional "value" .string value fun a x => { x with value := a },
    .doc "Value sourced from the pod environment (secret, config map, field)" <|
      .optional "valueFrom" EnvVarSource.codec valueFrom fun a x => { x with valueFrom := a }]

def codec : Codec Variable := record.strict

end Variable

structure Resources where
  limits : Option Quantities
  requests : Option Quantities

namespace Resources

def record : Record Resources where
  name := "Resources"
  doc := "Compute resources for the app container"
  start := ⟨none, none⟩
  fields := [
    .doc "Maximum resources" <|
      .optional "limits" (.dict .string) limits fun a x => { x with limits := a },
    .doc "Requested resources" <|
      .optional "requests" (.dict .string) requests fun a x => { x with requests := a }]

def codec : Codec Resources := record.strict

end Resources

/-! ## The specification -/

structure AppSpec where
  executor : String
  image : String
  imagePullSecrets : List LocalObjectReference
  imagePullPolicy : Option String
  checks : HealthChecks
  replicas : Option Int
  enableAutoscaling : Bool
  runtimeConfig : RuntimeConfig
  volumes : List Volume
  volumeMounts : List VolumeMount
  vars : List Variable
  serviceAnnotations : Labels
  deploymentAnnotations : Labels
  podAnnotations : Labels
  podLabels : Labels
  resources : Resources

namespace AppSpec

/-- The specification that an image is run by when nothing else is said. -/
def ofImage (image : String) : AppSpec where
  executor := ""
  image := image
  imagePullSecrets := []
  imagePullPolicy := none
  checks := ⟨none, none⟩
  replicas := none
  enableAutoscaling := false
  runtimeConfig := .empty
  volumes := []
  volumeMounts := []
  vars := []
  serviceAnnotations := .empty
  deploymentAnnotations := .empty
  podAnnotations := .empty
  podLabels := .empty
  resources := ⟨none, none⟩

def record : Record AppSpec where
  name := "SpinAppSpec"
  doc := ("SpinApp declares the desired state of a Spin application.\n\nExample: ```yaml " ++
          "apiVersion: core.spinoperator.dev/v1alpha1 kind: SpinApp metadata: name: hello " ++
          "spec: image: ghcr.io/spinkube/spin-operator/hello-world:20240708-130250-gfefd2b1 " ++
          "executor: containerd-shim-spin replicas: 2 variables: - name: greeting value: hi " ++
          "runtimeConfig: keyValueStores: - name: default type: redis options: - name: url " ++
          "valueFrom: secretKeyRef: name: redis key: url ```")
  start := ofImage ""
  fields := [
    .doc ("Executor controlling how this app is run.\n\nDefaulted at admission to the " ++
          "alphabetically first executor in the namespace when left empty.") <|
      .defaulted "executor" .string executor fun a x => { x with executor := a },
    .doc "OCI reference of the Spin application" <|
      .required "image" .string image fun a x => { x with image := a },
    .doc "Secrets in the same namespace used to pull the image" <|
      .unlessEmpty "imagePullSecrets" (.list LocalObjectReference.codec) List.isEmpty
        imagePullSecrets fun a x => { x with imagePullSecrets := a },
    .doc "Pull policy for the image (Always, IfNotPresent, Never)" <|
      .optional "imagePullPolicy" .string imagePullPolicy
        fun a x => { x with imagePullPolicy := a },
    .doc "Readiness and liveness checks" <|
      .defaulted "checks" HealthChecks.codec checks fun a x => { x with checks := a },
    .doc "Number of replicas. Must be unset when autoscaling is enabled." <|
      .optional "replicas" .int32 replicas fun a x => { x with replicas := a },
    .doc "Leave the replica count to an external autoscaler (HPA/KEDA)" <|
      .defaulted "enableAutoscaling" .boolean enableAutoscaling
        fun a x => { x with enableAutoscaling := a },
    .doc "Runtime configuration bindings" <|
      .defaulted "runtimeConfig" RuntimeConfig.codec runtimeConfig
        fun a x => { x with runtimeConfig := a },
    .doc "Volumes added to the pod" <|
      .unlessEmpty "volumes" (.list Volume.codec) List.isEmpty volumes
        fun a x => { x with volumes := a },
    .doc "Volume mounts added to the app container" <|
      .unlessEmpty "volumeMounts" (.list VolumeMount.codec) List.isEmpty volumeMounts
        fun a x => { x with volumeMounts := a },
    .doc "Bindings from Kubernetes values to Spin variables" <|
      .unlessEmpty "variables" (.list Variable.codec) List.isEmpty vars
        fun a x => { x with vars := a },
    .doc "Annotations applied to the generated Service" <|
      .unlessEmpty "serviceAnnotations" (.dict .string) Dict.isEmpty serviceAnnotations
        fun a x => { x with serviceAnnotations := a },
    .doc "Annotations applied to the generated Deployment" <|
      .unlessEmpty "deploymentAnnotations" (.dict .string) Dict.isEmpty deploymentAnnotations
        fun a x => { x with deploymentAnnotations := a },
    .doc "Annotations applied to the pod template" <|
      .unlessEmpty "podAnnotations" (.dict .string) Dict.isEmpty podAnnotations
        fun a x => { x with podAnnotations := a },
    .doc "Labels applied to the pod template. Operator-managed labels win on collision." <|
      .unlessEmpty "podLabels" (.dict .string) Dict.isEmpty podLabels
        fun a x => { x with podLabels := a },
    .doc "Compute resources for the app container" <|
      .defaulted "resources" Resources.codec resources fun a x => { x with resources := a }]

def codec : Codec AppSpec := record.strict

/-- The number of replicas that the `Deployment` is to have; none when an autoscaler decides. -/
def desiredReplicas (s : AppSpec) : Option Int :=
  if s.enableAutoscaling then none else some (s.replicas.getD 1)

end AppSpec

end SpinFleet
