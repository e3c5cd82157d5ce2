import SpinFleet.CommandLine.Options
import SpinFleet.CommandLine.SocketAddress
/-!
# The operator's command line

The operator runs, which is what it does without any words too, or it prints the manifests of its
kinds.  Everything that a run can be told has an option, a variable and a default.
-/
namespace SpinFleet.CommandLine

structure RunSettings where
  /-- Where reviews are listened for. -/
  webhookAddress : SocketAddress
  /-- The directory of the serving certificate. -/
  certificateDir : String
  enableWebhooks : Bool
  /-- Whether the manifests are applied first. -/
  installManifests : Bool
  caBundlePath : String
  /-- The seconds that a pass may take. -/
  timeoutSeconds : Nat
deriving DecidableEq, Repr

namespace RunSettings

def default : RunSettings where
  webhookAddress := .v4 [0, 0, 0, 0] 9443
  certificateDir := "/tmp/k8s-webhook-server/serving-certs"
  enableWebhooks := true
  installManifests := false
  caBundlePath := "/etc/ssl/certs/ca-certificates.crt"
  timeoutSeconds := 60

end RunSettings

/-! ## Values -/

def readBoolean : String → Except ValueFault Bool
  | "true" => .ok true
  | "false" => .ok false
  | _ => .error .notAllowed

def readPath (s : String) : Except ValueFault String := if s.isEmpty then .error .empty else .ok s

def readAddress (s : String) : Except ValueFault SocketAddress :=
  match SocketAddress.parse? s with
  | some a => .ok a
  | none => .error (.unreadable "invalid socket address syntax")

/-- A number of seconds, of 64 bits; a plus sign may stand before it. -/
def readSeconds (s : String) : Except ValueFault Nat :=
  let digits := match s.toList with
    | '+' :: c :: cs => c :: cs
    | cs => cs
  if digits.isEmpty then .error (.unreadable "cannot parse integer from empty string")
  else if !digits.all Char.isDigit then .error (.unreadable "invalid digit found in string")
  else
    let n := digits.foldl (fun n c => n * 10 + (c.toNat - 48)) 0
    if n < 18446744073709551616 then .ok n
    else .error (.unreadable "number too large to fit in target type")

/-! ## Commands -/

def runSwitch {α : Type} (name envName : String) (valueName : Option String)
    (read : String → Except ValueFault α) (set : α → RunSettings → RunSettings) :
    Switch RunSettings :=
  ⟨name, valueName, some ("SPIN_OPERATOR_" ++ envName), fun s => set <$> read s⟩

def runCommand : Command RunSettings where
  hasVersion := false
  commands := []
  options := [
    runSwitch "webhook-addr" "WEBHOOK_ADDR" (some "WEBHOOK_ADDR") readAddress
      fun a s => { s with webhookAddress := a },
    runSwitch "cert-dir" "CERT_DIR" (some "CERT_DIR") readPath
      fun a s => { s with certificateDir := a },
    runSwitch "enable-webhooks" "ENABLE_WEBHOOKS" (some "ENABLE_WEBHOOKS") readBoolean
      fun a s => { s with enableWebhooks := a },
    runSwitch "install-crds" "INSTALL_CRDS" none readBoolean
      fun a s => { s with installManifests := a },
    runSwitch "ca-bundle-path" "CA_BUNDLE_PATH" (some "CA_BUNDLE_PATH") readPath
      fun a s => { s with caBundlePath := a },
    runSwitch "reconcile-timeout-secs" "RECONCILE_TIMEOUT_SECS" (some "RECONCILE_TIMEOUT_SECS")
      readSeconds fun a s => { s with timeoutSeconds := a }]

/-- The only setting of the operator itself is whether it prints its manifests. -/
def topCommand : Command Bool where
  hasVersion := true
  commands := ["run", "help"]
  options := [⟨"crd", none, none, fun s => (fun a _ => a) <$> readBoolean s⟩]

/-! ## Modes -/

def about : String :=
  "Kubernetes operator that converges SpinApp declarations into Deployments, Services and " ++
    "runtime-config Secrets"

def aboutRun : String := "Run the controllers and admission webhooks (default mode)"

def aboutHelp : String := "Print this message or the help of the given subcommand(s)"

def versionText : String := "spin-operator 0.1.0"

inductive Mode
  | help (about : String)
  | version
  | manifests
  /-- To run as it was told. -/
  | run (settings : RunSettings)
  /-- To run although it was told nothing; the environment is looked at later. -/
  | runUntold
deriving DecidableEq, Repr

def helpOn : List String → Except UsageError Mode
  | [] => .ok (.help about)
  | ["run"] => .ok (.help aboutRun)
  | ["help"] => .ok (.help aboutHelp)
  | "run" :: word :: _ | "help" :: word :: _ | word :: _ => .error (.unknownCommand word)

def ended (about : String) : Halt → Except UsageError Mode
  | .usage e => .error e
  | .help => .ok (.help about)
  | .version => .ok .version

def runSettings (environment : String → Option String) (words : List String) :
    Except Halt RunSettings := do
  let (r, _) ← runCommand.read .default words
  runCommand.finish environment r

def parse (environment : String → Option String) (words : List String) :
    Except UsageError Mode :=
  match topCommand.read false words with
  | .error h => ended about h
  | .ok (_, some ("help", rest)) => helpOn rest
  | .ok (r, some (_, rest)) =>
    match runSettings environment rest with
    | .error h => ended aboutRun h
    | .ok settings => .ok (if r.settings then .manifests else .run settings)
  | .ok (r, none) => .ok (if r.settings then .manifests else .runUntold)

end SpinFleet.CommandLine
