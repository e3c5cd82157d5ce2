import SpinFleet.Executor
import SpinFleet.Error
/-!
# What marks the children of an app

Every object made for an app carries the app's name as a label and the app as its owner.  Pods
carry one label more, whose *key* holds the app's name.  A `Deployment` selects by both labels, so it
never selects the pods of another app, whatever labels their authors chose; a `Service` selects by
the second alone.
-/
namespace SpinFleet

def nameLabel : String := "core.spinoperator.dev/app-name"

/-- The value of the status label of pods that are to receive requests. -/
def readyValue : String := "ready"

def statusLabel (app : String) : String := "core.spinoperator.dev/app." ++ app ++ ".status"

def appLabels (app : String) : Labels := .ofList [(nameLabel, app)]

def readyLabels (app : String) : Labels := .ofList [(nameLabel, app), (statusLabel app, readyValue)]

/-- The app as the owner of an object.  An app that was never stored has no identity yet. -/
def App.owner (a : App) : Except Error OwnerReference :=
  match a.metadata.name, a.metadata.uid with
  | some name, some uid => .ok {
      apiVersion := groupVersion
      kind := App.kind
      name := name
      uid := uid
      controller := some true
      blockOwnerDeletion := none }
  | _, _ => .error (.construct "owner reference" ("SpinApp " ++ a.name ++ " has no uid"))

def annotationsOrNone (m : Labels) : Option Labels := if m.isEmpty then none else some m

def App.childMeta (a : App) (annotations : Labels) (owner : OwnerReference) : ObjectMeta :=
  { ObjectMeta.empty with
    name := some a.name
    ns := a.metadata.ns
    labels := some (appLabels a.name)
    annotations := annotationsOrNone annotations
    ownerReferences := some [owner] }

end SpinFleet
