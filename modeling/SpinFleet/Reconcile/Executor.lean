import SpinFleet.Pass
/-!
# A pass over an executor

An executor must not disappear from under the apps that name it.  Each executor is given a
finalizer when it is first seen; when it is to be deleted, the finalizer is taken away only if no
app of its namespace names the executor any more.
-/
namespace SpinFleet.Executor

def dependentsWarning (e : Executor) (count : Nat) : Event :=
  ⟨e.reference, .warning, "DependentsExist", "Delete",
    some (Error.dependentsExist e.name count).message⟩

def handleDeletion (e : Executor) : Attempt Action := do
  if !e.hasFinalizer then return .awaitChange
  let apps ← Attempt.call (.listApps e.ns)
  let count := (apps.filter fun a => a.spec.executor == e.name).length
  if 0 < count then
    Attempt.publish (e.dependentsWarning count)
    throw (.dependentsExist e.name count)
  Attempt.call (.removeFinalizer e.name e.ns)
  return .awaitChange

def pass (e : Executor) : Attempt Action := do
  if e.metadata.isDeleting then e.handleDeletion
  else do
    if !e.hasFinalizer then Attempt.call (.addFinalizer e.name e.ns)
    Attempt.record
      (.executorInfo e.name e.ns e.spec.createDeployment (e.spec.config.runtimeClass.getD ""))
    return .awaitChange

end SpinFleet.Executor
