import SpinFleet.Kube.Volume
/-!
# Pods

The template that a `Deployment` makes pods from.  The operator decides on one container: its
image and command, its port, its environment, its mounts and its probes.
-/
namespace SpinFleet

/-! ## Probes and ports -/

structure HttpHeader where
  name : String
  value : String
deriving DecidableEq, Repr

namespace HttpHeader

def record : Record HttpHeader where
  name := "HTTPHeader"
  start := ⟨"", ""⟩
  fields := [
    .plain "name" .string "" name fun a x => { x with name := a },
    .plain "value" .string "" value fun a x => { x with value := a }]

def codec : Codec HttpHeader := record.lenient

end HttpHeader

structure HttpGetAction where
  path : Option String
  port : IntOrString
  headers : Option (List HttpHeader)
  carried : Carried

namespace HttpGetAction

def record : Record HttpGetAction where
  name := "HTTPGetAction"
  start := ⟨none, .int 0, none, .empty⟩
  fields := [
    .optional "httpHeaders" (.list HttpHeader.codec) headers fun a x => { x with headers := a },
    .optional "path" .string path fun a x => { x with path := a },
    .plain "port" IntOrString.codec (.int 0) port fun a x => { x with port := a }]
    ++ Field.carriedAll carried (fun a x => { x with carried := a })
      [("host", .text), ("scheme", .text)]

def codec : Codec HttpGetAction := record.lenient

def shape : Shape := .ofCodec .null codec

end HttpGetAction

structure Probe where
  httpGet : Option HttpGetAction
  initialDelaySeconds : Option Int
  timeoutSeconds : Option Int
  periodSeconds : Option Int
  successThreshold : Option Int
  failureThreshold : Option Int
  carried : Carried

namespace Probe

def execAction : Shape := .record "ExecAction" [] [("command", .texts)]

def tcpSocketAction : Shape := .record "TCPSocketAction" [("port", .intOrString)] [("host", .text)]

def grpcAction : Shape := .record "GRPCAction" [("port", .int32)] [("service", .text)]

def record : Record Probe where
  name := "Probe"
  start := ⟨none, none, none, none, none, none, .empty⟩
  fields := [
    .optional "failureThreshold" .int32 failureThreshold
      fun a x => { x with failureThreshold := a },
    .optional "httpGet" HttpGetAction.codec httpGet fun a x => { x with httpGet := a },
    .optional "initialDelaySeconds" .int32 initialDelaySeconds
      fun a x => { x with initialDelaySeconds := a },
    .optional "periodSeconds" .int32 periodSeconds fun a x => { x with periodSeconds := a },
    .optional "successThreshold" .int32 successThreshold
      fun a x => { x with successThreshold := a },
    .optional "timeoutSeconds" .int32 timeoutSeconds fun a x => { x with timeoutSeconds := a }]
    ++ Field.carriedAll carried (fun a x => { x with carried := a })
      [("exec", execAction), ("grpc", grpcAction), ("tcpSocket", tcpSocketAction),
       ("terminationGracePeriodSeconds", .int64)]

def codec : Codec Probe := record.lenient

def shape : Shape := .ofCodec .null codec

end Probe

structure ContainerPort where
  name : Option String
  containerPort : Int
  protocol : Option String
  carried : Carried

namespace ContainerPort

def record : Record ContainerPort where
  name := "ContainerPort"
  start := ⟨none, 0, none, .empty⟩
  fields := [
    .plain "containerPort" .int32 0 containerPort fun a x => { x with containerPort := a },
    .optional "name" .string name fun a x => { x with name := a },
    .optional "protocol" .string protocol fun a x => { x with protocol := a }]
    ++ Field.carriedAll carried (fun a x => { x with carried := a })
      [("hostIP", .text), ("hostPort", .int32)]

def codec : Codec ContainerPort := record.lenient

end ContainerPort

/-! ## Containers -/

abbrev Quantities := Dict String String

structure ResourceRequirements where
  limits : Option Quantities
  requests : Option Quantities
  carried : Carried

namespace ResourceRequirements

def record : Record ResourceRequirements where
  name := "ResourceRequirements"
  start := ⟨none, none, .empty⟩
  fields := [
    .optional "limits" (.dict .string) limits fun a x => { x with limits := a },
    .optional "requests" (.dict .string) requests fun a x => { x with requests := a }]
    ++ Field.carriedAll carried (fun a x => { x with carried := a })
      [("claims", .list (.record "ResourceClaim" [("name", .text)] [("request", .text)]))]

def codec : Codec ResourceRequirements := record.lenient

end ResourceRequirements

structure Container where
  name : String
  image : Option String
  imagePullPolicy : Option String
  command : Option (List String)
  args : Option (List String)
  ports : Option (List ContainerPort)
  env : Option (List EnvVar)
  volumeMounts : Option (List VolumeMount)
  resources : Option ResourceRequirements
  readinessProbe : Option Probe
  livenessProbe : Option Probe
  carried : Carried

namespace Container

def named (name : String) : Container :=
  ⟨name, none, none, none, none, none, none, none, none, none, none, .empty⟩

def seLinuxOptions : Shape := .record "SELinuxOptions" []
  [("level", .text), ("role", .text), ("type", .text), ("user", .text)]

def profile (what : String) : Shape := .record what [("type", .text)] [("localhostProfile", .text)]

def windowsOptions : Shape := .record "WindowsSecurityContextOptions" []
  [("gmsaCredentialSpec", .text), ("gmsaCredentialSpecName", .text), ("hostProcess", .boolean),
   ("runAsUserName", .text)]

def securityContext : Shape := .record "SecurityContext" []
  [("allowPrivilegeEscalation", .boolean), ("appArmorProfile", profile "AppArmorProfile"),
   ("capabilities", .record "Capabilities" [] [("add", .texts), ("drop", .texts)]),
   ("privileged", .boolean), ("procMount", .text), ("readOnlyRootFilesystem", .boolean),
   ("runAsGroup", .int64), ("runAsNonRoot", .boolean), ("runAsUser", .int64),
   ("seLinuxOptions", seLinuxOptions), ("seccompProfile", profile "SeccompProfile"),
   ("windowsOptions", windowsOptions)]

def lifecycleHandler : Shape := .record "LifecycleHandler" []
  [("exec", Probe.execAction), ("httpGet", HttpGetAction.shape),
   ("sleep", .record "SleepAction" [("seconds", .int64)] []), ("tcpSocket", Probe.tcpSocketAction)]

def lifecycle : Shape := .record "Lifecycle" []
  [("postStart", lifecycleHandler), ("preStop", lifecycleHandler)]

def envFromSource : Shape := .record "EnvFromSource" []
  [("configMapRef", .record "ConfigMapEnvSource" [("name", .text)] [("optional", .boolean)]),
   ("prefix", .text),
   ("secretRef", .record "SecretEnvSource" [("name", .text)] [("optional", .boolean)])]

def carriedParts : List (String × Shape) := [
  ("envFrom", .list envFromSource), ("lifecycle", lifecycle),
  ("resizePolicy", .list (.record "ContainerResizePolicy"
    [("resourceName", .text), ("restartPolicy", .text)] [])),
  ("restartPolicy", .text), ("securityContext", securityContext), ("startupProbe", Probe.shape),
  ("stdin", .boolean), ("stdinOnce", .boolean), ("terminationMessagePath", .text),
  ("terminationMessagePolicy", .text), ("tty", .boolean),
  ("volumeDevices", .list (.record "VolumeDevice" [("devicePath", .text), ("name", .text)] [])),
  ("workingDir", .text)]

/-- The shape of a container; an ephemeral one has one member more. -/
def recordWith (what : String) (more : List (String × Shape)) : Record Container where
  name := what
  start := named ""
  fields := [
    .optional "args" (.list .string) args fun a x => { x with args := a },
    .optional "command" (.list .string) command fun a x => { x with command := a },
    .optional "env" (.list EnvVar.codec) env fun a x => { x with env := a },
    .optional "image" .string image fun a x => { x with image := a },
    .optional "imagePullPolicy" .string imagePullPolicy fun a x => { x with imagePullPolicy := a },
    .optional "livenessProbe" Probe.codec livenessProbe fun a x => { x with livenessProbe := a },
    .plain "name" .string "" name fun a x => { x with name := a },
    .optional "ports" (.list ContainerPort.codec) ports fun a x => { x with ports := a },
    .optional "readinessProbe" Probe.codec readinessProbe fun a x => { x with readinessProbe := a },
    .optional "resources" ResourceRequirements.codec resources fun a x => { x with resources := a },
    .optional "volumeMounts" (.list VolumeMount.codec) volumeMounts
      fun a x => { x with volumeMounts := a }]
    ++ Field.carriedAll carried (fun a x => { x with carried := a }) (carriedParts ++ more)

def codec : Codec Container := (recordWith "Container" []).lenient

def shape : Shape := .ofCodec .null codec

def ephemeralShape : Shape :=
  .ofCodec .null (recordWith "EphemeralContainer" [("targetContainerName", .text)]).lenient

end Container

/-! ## Pods -/

structure PodSpec where
  runtimeClassName : Option String
  containers : List Container
  imagePullSecrets : Option (List LocalObjectReference)
  volumes : Option (List Volume)
  carried : Carried

namespace PodSpec

def nodeSelectorTerm : Shape :=
  let requirements := Shape.list (.record "NodeSelectorRequirement"
    [("key", .text), ("operator", .text)] [("values", .texts)])
  .record "NodeSelectorTerm" [] [("matchExpressions", requirements), ("matchFields", requirements)]

def nodeAffinity : Shape := .record "NodeAffinity" []
  [("preferredDuringSchedulingIgnoredDuringExecution", .list (.record "PreferredSchedulingTerm"
     [("preference", nodeSelectorTerm), ("weight", .int32)] [])),
   ("requiredDuringSchedulingIgnoredDuringExecution", .record "NodeSelector"
     [("nodeSelectorTerms", .list nodeSelectorTerm)] [])]

def podAffinityTerm : Shape := .record "PodAffinityTerm" [("topologyKey", .text)]
  [("labelSelector", LabelSelector.shape), ("matchLabelKeys", .texts),
   ("mismatchLabelKeys", .texts), ("namespaceSelector", LabelSelector.shape),
   ("namespaces", .texts)]

def podAffinity (what : String) : Shape := .record what []
  [("preferredDuringSchedulingIgnoredDuringExecution", .list (.record "WeightedPodAffinityTerm"
     [("podAffinityTerm", podAffinityTerm), ("weight", .int32)] [])),
   ("requiredDuringSchedulingIgnoredDuringExecution", .list podAffinityTerm)]

def affinity : Shape := .record "Affinity" []
  [("nodeAffinity", nodeAffinity), ("podAffinity", podAffinity "PodAffinity"),
   ("podAntiAffinity", podAffinity "PodAntiAffinity")]

def dnsConfig : Shape := .record "PodDNSConfig" []
  [("nameservers", .texts),
   ("options", .list (.record "PodDNSConfigOption" [] [("name", .text), ("value", .text)])),
   ("searches", .texts)]

def securityContext : Shape := .record "PodSecurityContext" []
  [("appArmorProfile", Container.profile "AppArmorProfile"), ("fsGroup", .int64),
   ("fsGroupChangePolicy", .text), ("runAsGroup", .int64), ("runAsNonRoot", .boolean),
   ("runAsUser", .int64), ("seLinuxOptions", Container.seLinuxOptions),
   ("seccompProfile", Container.profile "SeccompProfile"), ("supplementalGroups", .list .int64),
   ("supplementalGroupsPolicy", .text),
   ("sysctls", .list (.record "Sysctl" [("name", .text), ("value", .text)] [])),
   ("windowsOptions", Container.windowsOptions)]

def toleration : Shape := .record "Toleration" []
  [("effect", .text), ("key", .text), ("operator", .text), ("tolerationSeconds", .int64),
   ("value", .text)]

def topologySpreadConstraint : Shape := .record "TopologySpreadConstraint"
  [("maxSkew", .int32), ("topologyKey", .text), ("whenUnsatisfiable", .text)]
  [("labelSelector", LabelSelector.shape), ("matchLabelKeys", .texts), ("minDomains", .int32),
   ("nodeAffinityPolicy", .text), ("nodeTaintsPolicy", .text)]

def carriedParts : List (String × Shape) := [
  ("activeDeadlineSeconds", .int64), ("affinity", affinity),
  ("automountServiceAccountToken", .boolean), ("dnsConfig", dnsConfig), ("dnsPolicy", .text),
  ("enableServiceLinks", .boolean), ("ephemeralContainers", .list Container.ephemeralShape),
  ("hostAliases", .list (.record "HostAlias" [("ip", .text)] [("hostnames", .texts)])),
  ("hostIPC", .boolean), ("hostNetwork", .boolean), ("hostPID", .boolean), ("hostUsers", .boolean),
  ("hostname", .text), ("initContainers", .list Container.shape), ("nodeName", .text),
  ("nodeSelector", .textDict), ("os", .record "PodOS" [("name", .text)] []),
  ("overhead", .quantities), ("preemptionPolicy", .text), ("priority", .int32),
  ("priorityClassName", .text),
  ("readinessGates", .list (.record "PodReadinessGate" [("conditionType", .text)] [])),
  ("resourceClaims", .list (.record "PodResourceClaim" [("name", .text)]
    [("resourceClaimName", .text), ("resourceClaimTemplateName", .text)])),
  ("restartPolicy", .text), ("schedulerName", .text),
  ("schedulingGates", .list (.record "PodSchedulingGate" [("name", .text)] [])),
  ("securityContext", securityContext), ("serviceAccount", .text), ("serviceAccountName", .text),
  ("setHostnameAsFQDN", .boolean), ("shareProcessNamespace", .boolean), ("subdomain", .text),
  ("terminationGracePeriodSeconds", .int64), ("tolerations", .list toleration),
  ("topologySpreadConstraints", .list topologySpreadConstraint)]

def record : Record PodSpec where
  name := "PodSpec"
  start := ⟨none, [], none, none, .empty⟩
  fields := [
    .plain "containers" (.list Container.codec) [] containers fun a x => { x with containers := a },
    .optional "imagePullSecrets" (.list LocalObjectReference.codec) imagePullSecrets
      fun a x => { x with imagePullSecrets := a },
    .optional "runtimeClassName" .string runtimeClassName
      fun a x => { x with runtimeClassName := a },
    .optional "volumes" (.list Volume.codec) volumes fun a x => { x with volumes := a }]
    ++ Field.carriedAll carried (fun a x => { x with carried := a }) carriedParts

def codec : Codec PodSpec := record.lenient

end PodSpec

structure PodTemplate where
  metadata : Option ObjectMeta
  spec : Option PodSpec

namespace PodTemplate

def empty : PodTemplate := ⟨none, none⟩

def record : Record PodTemplate where
  name := "PodTemplateSpec"
  start := empty
  fields := [
    .optional "metadata" ObjectMeta.codec metadata fun a x => { x with metadata := a },
    .optional "spec" PodSpec.codec spec fun a x => { x with spec := a }]

def codec : Codec PodTemplate := record.lenient

end PodTemplate

end SpinFleet
