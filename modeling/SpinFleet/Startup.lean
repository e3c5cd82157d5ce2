import SpinFleet.Admission.Certificate
import SpinFleet.CommandLine.Mode
import SpinFleet.Manifest
import SpinFleet.Telemetry
/-!
# Starting the operator

A run begins with a row of steps of which each can fail: telemetry is set up, the settings are read
if there were none on the command line, the cluster is found, the manifests are applied, and the
admission server starts.  The first failure ends the run.
-/
namespace SpinFleet

open CommandLine (RunSettings UsageError)

inductive Reach
  /-- Nothing says where it is. -/
  | unconfigured
  /-- It is known, and does not answer. -/
  | silent
  | open
deriving DecidableEq, Repr

inductive StartFault
  | usage (e : UsageError)
  | telemetry (f : Telemetry.Fault)
  | noCluster
  | manifest (name : String)
  | webhook (e : Error)
deriving DecidableEq, Repr

namespace StartFault

def message : StartFault → String
  | usage e => e.message
  | telemetry f => f.message
  | noCluster => "failed to create Kubernetes client: Failed to infer configuration"
  | manifest name => "failed to install CRD " ++ name ++ ": ServiceError"
  | webhook e => "webhook server failed: " ++ e.message

def line (f : StartFault) : String :=
  match f with
  | usage e => "error: " ++ e.message
  | f => "Error: " ++ f.message

def code : StartFault → Nat
  | usage _ => 2
  | _ => 1

end StartFault

structure Machine where
  environment : String → Option String
  reach : Reach
  /-- The files of the serving certificate in a directory. -/
  certificate : String → Admission.CertificateFiles
  /-- What comes of taking the address of the admission server. -/
  address : Except HostFault Unit

namespace Machine

def telemetry (m : Machine) : Telemetry.Settings :=
  .ofVariable Telemetry.meter (m.environment Telemetry.endpointVariable)

def setUpTelemetry (m : Machine) : Except StartFault Unit :=
  match m.telemetry.fault with
  | some f => .error (.telemetry f)
  | none => .ok ()

def untold (m : Machine) : Except StartFault RunSettings :=
  match CommandLine.runSettings m.environment [] with
  | .ok s => .ok s
  | .error (.usage e) => .error (.usage e)
  | .error _ => .ok .default

def start (m : Machine) (s : RunSettings) : Except StartFault Unit := do
  if m.reach = .unconfigured then throw .noCluster
  if s.installManifests ∧ m.reach = .silent then throw (.manifest App.definition.name)
  if s.enableWebhooks then
    match Admission.start s.certificateDir (m.certificate s.certificateDir) m.address with
    | .error e => throw (.webhook e)
    | .ok () => return ()

/-- Starts what a command line asks for, if that is a run. -/
def run (m : Machine) : CommandLine.Mode → Except StartFault Unit
  | .run s => do
    m.setUpTelemetry
    m.start s
  | .runUntold => do
    m.setUpTelemetry
    m.start (← m.untold)
  | _ => .ok ()

end Machine

end SpinFleet
