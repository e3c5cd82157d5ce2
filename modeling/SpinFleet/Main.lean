import SpinFleet.Startup
import SpinFleet.Json.Printer
/-!
# The program

Reads the command line and the environment and carries out what they ask for.  There is no network
here, so a run ends where it would connect to its cluster.
-/
namespace SpinFleet.Program

open CommandLine

def variableNames : List String :=
  Telemetry.endpointVariable :: runCommand.options.filterMap Switch.envName

def environment : IO (String → Option String) := do
  let values ← variableNames.filterMapM fun n => do
    return (← IO.getEnv n).map fun v => (n, v)
  return fun n => (Dict.ofList values).get? n

def readFile (path : String) : IO (Except HostFault String) := do
  try return .ok (← IO.FS.readFile path)
  catch _ => return .error .notFound

def certificateDir (environment : String → Option String) : Mode → String
  | .run s => s.certificateDir
  | _ =>
    match runSettings environment [] with
    | .ok s => s.certificateDir
    | .error _ => RunSettings.default.certificateDir

def machine (r : Mode) : IO Machine := do
  let environment ← environment
  let certificateDir := certificateDir environment r
  let certificates ← readFile (certificateDir ++ "/tls.crt")
  let key ← readFile (certificateDir ++ "/tls.key")
  return ⟨environment, .unconfigured, fun _ => ⟨certificates, key⟩, .error .denied⟩

def fail (f : StartFault) : IO UInt32 := do
  IO.eprintln f.line
  return f.code.toUInt32

def carryOut (r : Mode) : IO UInt32 := do
  match r with
  | .help text =>
    IO.println text
    return 0
  | .version =>
    IO.println versionText
    return 0
  | .manifests =>
    IO.println App.definition.manifest.compact
    IO.println "---"
    IO.println Executor.definition.manifest.compact
    return 0
  | .run _ | .runUntold =>
    match (← machine r).run r with
    | .error f => fail f
    | .ok () => return 0

end SpinFleet.Program

def main (words : List String) : IO UInt32 := do
  match SpinFleet.CommandLine.parse (← SpinFleet.Program.environment) words with
  | .ok r => SpinFleet.Program.carryOut r
  | .error e => SpinFleet.Program.fail (.usage e)
