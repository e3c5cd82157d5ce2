import SpinFleet.Api.Uri
import SpinFleet.Json.Printer
import SpinFleet.Pass
/-!
# Telemetry

What the operator tells about itself: where it sends its traces and measurements, and which gauges
a collector sees.  A gauge says nothing but that there is an object with some attributes, so its
value is always one, and telling it twice is telling it once.
-/
namespace SpinFleet.Telemetry

/-! ## Settings -/

/-- Who sends telemetry, and where to.  Without an endpoint nothing is sent. -/
structure Settings where
  serviceName : String
  endpoint : Option String
deriving DecidableEq, Repr

def endpointVariable : String := "OTEL_EXPORTER_OTLP_ENDPOINT"

/-- The settings of a service, given the variable's value.  An empty one counts as none. -/
def Settings.ofVariable (serviceName : String) (endpoint : Option String) : Settings :=
  ⟨serviceName, endpoint.filter fun e => !e.isEmpty⟩

inductive Fault
  /-- A signal cannot be sent. -/
  | exporter (signal detail : String)
  | subscriber (detail : String)
deriving DecidableEq, Repr

def Fault.message : Fault → String
  | .exporter signal detail => "failed to build " ++ signal ++ " exporter: " ++ detail
  | .subscriber detail => "failed to install tracing subscriber: " ++ detail

/-- Why the settings cannot be used: measurements come first, and need an endpoint that is an
address. -/
def Settings.fault (s : Settings) : Option Fault :=
  match s.endpoint.map Uri.check with
  | some (.error f) =>
    some (.exporter "metrics" ("Metrics exporter otlp failed with invalid URI " ++ f.message))
  | _ => none

/-! ## Gauges -/

def meter : String := "spin-operator"

structure Gauge where
  metric : String
  description : String
  attributes : Dict String String

def Gauge.ofMeasurement : Measurement → Gauge
  | .appInfo n ns executor => {
      metric := "spin_operator_spinapp_info"
      description := "Info metric for SpinApps"
      attributes := .ofList [("name", n), ("namespace", ns), ("executor", executor)] }
  | .executorInfo n ns create runtimeClass => {
      metric := "spin_operator_spinapp_executor_info"
      description := "Info metric for SpinAppExecutors"
      attributes := .ofList [
        ("name", n), ("namespace", ns), ("create_deployment", if create then "true" else "false"),
        ("runtime_class_name", runtimeClass)] }

def Gauge.json (g : Gauge) : Json := .object [
  ("attributes", Json.ofDict .string g.attributes), ("description", .string g.description),
  ("meter", .string meter), ("metric", .string g.metric), ("value", .int 1)]

/-- What one collection sees of some measurements: each gauge once, in the order of their texts. -/
def collect (ms : List Measurement) : List Json :=
  let gauges := ms.map fun m => (Gauge.ofMeasurement m).json
  (Dict.ofList (gauges.map fun g => (g.compact, g))).values

end SpinFleet.Telemetry
