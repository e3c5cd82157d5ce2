import SpinFleet.Kube.Meta
/-!
# Services

The address under which the ready pods of an app are reached.
-/
namespace SpinFleet

structure ServicePort where
  name : Option String
  port : Int
  protocol : Option String
  targetPort : Option IntOrString
  carried : Carried

namespace ServicePort

def record : Record ServicePort where
  name := "ServicePort"
  start := ⟨none, 0, none, none, .empty⟩
  fields := [
    .optional "name" .string name fun a x => { x with name := a },
    .plain "port" .int32 0 port fun a x => { x with port := a },
    .optional "protocol" .string protocol fun a x => { x with protocol := a },
    .optional "targetPort" IntOrString.codec targetPort fun a x => { x with targetPort := a }]
    ++ Field.carriedAll carried (fun a x => { x with carried := a })
      [("appProtocol", .text), ("nodePort", .int32)]

def codec : Codec ServicePort := record.lenient

end ServicePort

structure ServiceSpec where
  type : Option String
  ports : Option (List ServicePort)
  selector : Option Labels
  carried : Carried

namespace ServiceSpec

def carriedParts : List (String × Shape) := [
  ("allocateLoadBalancerNodePorts", .boolean), ("clusterIP", .text), ("clusterIPs", .texts),
  ("externalIPs", .texts), ("externalName", .text), ("externalTrafficPolicy", .text),
  ("healthCheckNodePort", .int32), ("internalTrafficPolicy", .text), ("ipFamilies", .texts),
  ("ipFamilyPolicy", .text), ("loadBalancerClass", .text), ("loadBalancerIP", .text),
  ("loadBalancerSourceRanges", .texts), ("publishNotReadyAddresses", .boolean),
  ("sessionAffinity", .text),
  ("sessionAffinityConfig", .record "SessionAffinityConfig" []
    [("clientIP", .record "ClientIPConfig" [] [("timeoutSeconds", .int32)])]),
  ("trafficDistribution", .text)]

def record : Record ServiceSpec where
  name := "ServiceSpec"
  start := ⟨none, none, none, .empty⟩
  fields := [
    .optional "ports" (.list ServicePort.codec) ports fun a x => { x with ports := a },
    .optional "selector" (.dict .string) selector fun a x => { x with selector := a },
    .optional "type" .string type fun a x => { x with type := a }]
    ++ Field.carriedAll carried (fun a x => { x with carried := a }) carriedParts

def codec : Codec ServiceSpec := record.lenient

end ServiceSpec

structure Service where
  metadata : ObjectMeta
  spec : Option ServiceSpec
  carried : Carried

namespace Service

def status : Shape := .record "ServiceStatus" []
  [("conditions", .list (.record "Condition"
     [("lastTransitionTime", .time), ("message", .text), ("reason", .text), ("status", .text),
      ("type", .text)] [("observedGeneration", .int64)])),
   ("loadBalancer", .record "LoadBalancerStatus" []
     [("ingress", .list (.record "LoadBalancerIngress" []
       [("hostname", .text), ("ip", .text), ("ipMode", .text),
        ("ports", .list (.record "PortStatus" [("port", .int32), ("protocol", .text)]
          [("error", .text)]))]))])]

def record : Record Service where
  name := "Service"
  start := ⟨.empty, none, .empty⟩
  fields := [
    .fixed "apiVersion" "v1",
    .fixed "kind" "Service",
    .plain "metadata" ObjectMeta.codec .empty metadata fun a x => { x with metadata := a },
    .optional "spec" ServiceSpec.codec spec fun a x => { x with spec := a }]
    ++ Field.carriedAll carried (fun a x => { x with carried := a }) [("status", status)]

def codec : Codec Service := record.lenient

end Service

end SpinFleet
