import SpinFleet.Admission.FieldError
import SpinFleet.Executor
/-!
# What makes an app or an executor valid

The rules that an object must keep to be stored.  Each rule is a function that gives at most one
error, so that an object is told everything that is wrong with it at once.
-/
namespace SpinFleet

/-! ## Apps -/

namespace AppSpec

def executorError (s : AppSpec) (found : Bool) : Option FieldError :=
  if s.executor.isEmpty then
    some ⟨"spec.executor", .string "",
      "executor must be set, likely no default executor was set because you have no executors "
        ++ "installed"⟩
  else if found then none
  else some ⟨"spec.executor", .string s.executor, "executor does not exist on cluster"⟩

/-- An app has replicas, unless an autoscaler gives it some; then it must not ask for any.  Zero
replicas are the same as none. -/
def replicasError (s : AppSpec) : Option FieldError :=
  let n := s.replicas.getD 0
  if s.enableAutoscaling then
    if n = 0 then none
    else some ⟨"spec.replicas", .int n, "replicas cannot be set when autoscaling is enabled"⟩
  else if n < 1 then some ⟨"spec.replicas", .int n, "replicas must be > 0"⟩
  else none

def annotationsError (field : String) (annotations : Labels) : Option FieldError :=
  if annotations.isEmpty then none
  else some ⟨"spec." ++ field, Json.ofDict .string annotations,
    field ++ " can't be set when the executor does not use operator deployments"⟩

def annotationsErrors (s : AppSpec) (e : Executor) : List FieldError :=
  if e.spec.createDeployment then []
  else (annotationsError "deploymentAnnotations" s.deploymentAnnotations).toList
    ++ (annotationsError "podAnnotations" s.podAnnotations).toList

def errors (s : AppSpec) (executor : Option Executor) : List FieldError :=
  (s.executorError executor.isSome).toList ++ s.replicasError.toList
    ++ (executor.map s.annotationsErrors).getD []

end AppSpec

/-! ## Executors -/

/-- An executor that makes `Deployment`s names exactly one way of running apps. -/
def ExecutorSpec.errors (s : ExecutorSpec) : List FieldError :=
  if !s.createDeployment then []
  else match s.config.runtimeClass, s.config.image with
    | some c, some _ => [⟨"spec.deploymentConfig.runtimeClassName", .string c,
        "runtimeClassName and spinImage are mutually exclusive"⟩]
    | none, none => [⟨"spec.deploymentConfig.runtimeClassName", .string "",
        "either runtimeClassName or spinImage must be set"⟩]
    | _, _ => []

def firstName : List String → Option String
  | [] => none
  | n :: ns =>
    match firstName ns with
    | none => some n
    | some m => some (if m < n then m else n)

/-- The executor that an app gets when it names none: the first one in the order of names. -/
def defaultExecutor (es : List Executor) : Option String := firstName (es.map Executor.name)

end SpinFleet
