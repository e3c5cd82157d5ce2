import SpinFleet.Child.Storage
import SpinFleet.Text.Uppercase
/-!
# The container of an app

What runs in a pod: the environment with the app's variables, the probes, and the command of one
of two ways of running an app.  Either the node's runtime class runs the app's image itself, or a
regular container is told to fetch it.
-/
namespace SpinFleet

def portName : String := "http-app"

def portNumber : Int := 80

def listenAddress : String := "0.0.0.0:80"

/-! ## Environment -/

def Variable.toEnv (v : Variable) : EnvVar :=
  ⟨variablePrefix ++ Text.upper v.name, v.value, v.valueFrom⟩

def OtelConfig.endpoints (o : OtelConfig) : List (String × String) := [
  ("OTEL_EXPORTER_OTLP_ENDPOINT", o.endpoint),
  ("OTEL_EXPORTER_OTLP_TRACES_ENDPOINT", o.tracesEndpoint),
  ("OTEL_EXPORTER_OTLP_METRICS_ENDPOINT", o.metricsEndpoint),
  ("OTEL_EXPORTER_OTLP_LOGS_ENDPOINT", o.logsEndpoint)]

/-- The environment of an app: its variables, the address, and the endpoints that are set. -/
def App.environment (a : App) (otel : Option OtelConfig) : List EnvVar :=
  a.spec.vars.map Variable.toEnv
    ++ [.ofValue "SPIN_HTTP_LISTEN_ADDR" listenAddress]
    ++ (((otel.map OtelConfig.endpoints).getD []).filter fun e => !e.2.isEmpty).map
        fun e => .ofValue e.1 e.2

/-! ## Probes -/

/-- The probe of a check; only requests are known. -/
def HealthProbe.toProbe (p : HealthProbe) (what : String) : Except Error Probe :=
  match p.httpGet with
  | none => .error (.construct (what ++ " probe")
      "probe exists but with unknown configuration, expected httpGet")
  | some http => .ok {
      httpGet := some ⟨some http.path, .int portNumber, some http.headers, .empty⟩
      initialDelaySeconds := some p.initialDelaySeconds
      timeoutSeconds := some p.timeoutSeconds
      periodSeconds := some p.periodSeconds
      successThreshold := some p.successThreshold
      failureThreshold := some p.failureThreshold
      carried := .empty }

def HealthProbe.toProbe? (p : Option HealthProbe) (what : String) : Except Error (Option Probe) :=
  match p with
  | none => .ok none
  | some p => some <$> p.toProbe what

structure Probes where
  readiness : Option Probe
  liveness : Option Probe

def HealthChecks.toProbes (c : HealthChecks) : Except Error Probes := do
  let readiness ← HealthProbe.toProbe? c.readiness "readiness"
  let liveness ← HealthProbe.toProbe? c.liveness "liveness"
  return ⟨readiness, liveness⟩

/-! ## Ways of running -/

inductive Profile
  /-- The runtime class of the node runs the app's image. -/
  | runtimeClass (name : String)
  /-- A container with this image fetches the app's image. -/
  | image (name : String)
deriving DecidableEq, Repr

def DeploymentConfig.profile (c : DeploymentConfig) : Except Error Profile :=
  match c.runtimeClass, c.image with
  | some _, some _ => .error (.construct "deployment"
      "runtimeClassName and spinImage are mutually exclusive")
  | some n, none => .ok (.runtimeClass n)
  | none, some n => .ok (.image n)
  | none, none => .error (.construct "deployment"
      "either runtimeClassName or spinImage must be set")

namespace Profile

def className : Profile → Option String
  | .runtimeClass n => some n
  | .image _ => none

def containerImage (appImage : String) : Profile → String
  | .runtimeClass _ => appImage
  | .image n => n

/-- The command, which a runtime class needs to be there but does not run. -/
def command : Profile → Option (List String)
  | .runtimeClass _ => some ["/"]
  | .image _ => none

def args (appImage : String) (hasConfig : Bool) : Profile → Option (List String)
  | .runtimeClass _ => none
  | .image _ => some (["up", "--listen", listenAddress, "-f", appImage]
      ++ if hasConfig then ["--runtime-config-file", Storage.configPath] else [])

end Profile

end SpinFleet
