import SpinFleet.RuntimeConfig.Resolve
import SpinFleet.App.Observe
import SpinFleet.Child.Deployment
import SpinFleet.Child.Service
import SpinFleet.Child.Secret
/-!
# A pass over an app

One pass reads the app and the executor that it names, writes down what is observed of the app,
prepares the `Secret`s that its pods mount, applies its `Deployment`, deletes the `Secret`s that no
pod mounts any more, and applies its `Service`.  An executor that makes no `Deployment`s leaves only
the `Service`.  The order matters: pods never mount a `Secret` that does not exist yet, and a
`Secret` is deleted only after the `Deployment` that mounted it is gone.
-/
namespace SpinFleet

structure Settings where
  /-- The certificates for executors that ask for the default ones. -/
  caBundle : Option String
  /-- The time that the clock shows. -/
  now : Instant

namespace App

def warning (a : App) (reason note : String) : Event :=
  ⟨a.reference, .warning, reason, "Reconcile", some note⟩

/-- Writes down what is observed of an app.  If another writer was faster, or the write fails, the
next pass does it again. -/
def publishStatus (s : Settings) (a : App) (e : Executor) : Attempt Unit := do
  let d ← Attempt.call (.getDeployment a.name a.ns)
  let status := (a.status.getD .empty).observe s.now e.name d
  let _ ← Attempt.tryCall (.patchAppStatus a.name a.ns a.metadata.version status)
  return ()

/-- The document of an app; that something it refers to is missing is told to its users. -/
def documentOrWarn (a : App) : Attempt (Option Document) := do
  try a.resolveDocument
  catch e =>
    match e with
    | .missingDependency .. => do
      Attempt.publish (a.warning "MissingDependency" e.message)
      throw e
    | _ => throw e

/-- Makes sure that the `Secret` with the configuration exists, and gives its name; none if the
configuration is ready made. -/
def ensureConfigSecret (a : App) : Attempt (Option String) := do
  match ← a.documentOrWarn with
  | none => return none
  | some d => do
    let name := Document.secretName a.name d.toToml
    let secret ← Attempt.ofExcept (a.configSecret name d.toToml)
    Attempt.call (.createSecret secret)
    return some name

/-- Makes sure that the `Secret` with the certificates exists, and gives its name; none if the
executor asks for no certificates. -/
def ensureCaSecret (s : Settings) (a : App) (c : DeploymentConfig) : Attempt (Option String) := do
  match c.caSecret with
  | some name => return some name
  | none =>
    if !c.installDefaultCACerts then return none
    match s.caBundle with
    | none => throw (.internal "cacerts"
        "executor requests default CA certificates but no CA bundle is loaded")
    | some bundle => do
      Attempt.call (.createSecret (SpinFleet.caSecret a.ns bundle))
      return some defaultCaSecret

/-- The `Deployment` of an app; that it cannot be built is told to the users of the app. -/
def deploymentOrWarn (a : App) (c : DeploymentConfig) (generated ca : Option String) :
    Attempt Deployment := do
  match a.deployment c generated ca with
  | .ok d => return d
  | .error e => do
    Attempt.publish (a.warning "InvalidSpec" e.message)
    throw e

def realize (s : Settings) (a : App) (c : DeploymentConfig) : Attempt Unit := do
  let generated ← a.ensureConfigSecret
  let ca ← a.ensureCaSecret s c
  let d ← a.deploymentOrWarn c generated ca
  Attempt.call (.applyDeployment d)
  Attempt.call (.pruneSecrets a.name a.ns generated)

/-- The executor that an app names; that it is missing is told to the users of the app. -/
def executorOrWarn (a : App) (ns : String) : Attempt Executor := do
  match ← Attempt.call (.getExecutor a.spec.executor ns) with
  | some e => return e
  | none => do
    Attempt.publish (a.warning "MissingExecutor"
      ("Could not find SpinAppExecutor " ++ ns ++ "/" ++ a.spec.executor))
    throw (.missingDependency "SpinAppExecutor" ns a.spec.executor)

/-- Brings the children of an app up to date; `executor` is the name by which the executor was
found. -/
def converge (s : Settings) (a : App) (key : ObjectKey) (executor : String) (e : Executor) :
    Attempt Action := do
  if a.metadata.isDeleting then return .awaitChange
  if e.spec.createDeployment then a.realize s e.spec.config
  else Attempt.call (.deleteDeployment key.name key.ns)
  let service ← Attempt.ofExcept a.service
  Attempt.call (.applyService service)
  Attempt.record (.appInfo key.name key.ns executor)
  return .awaitChange

def pass (s : Settings) (key : ObjectKey) : Attempt Action := do
  match ← Attempt.call (.getApp key.name key.ns) with
  | none => return .awaitChange
  | some a => do
    let e ← a.executorOrWarn key.ns
    if e.spec.createDeployment then
      a.publishStatus s e
      match ← Attempt.call (.getApp key.name key.ns) with
      | none => return .awaitChange
      | some fresh => fresh.converge s key a.spec.executor e
    else a.converge s key a.spec.executor e

end App

end SpinFleet
