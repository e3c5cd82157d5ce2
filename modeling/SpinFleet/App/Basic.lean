import SpinFleet.App.Spec
import SpinFleet.App.Condition
/-!
# Apps

An app as the cluster stores it: its metadata, what it declares, and what was last observed of
it.
-/
namespace SpinFleet

def groupVersion : String := "core.spinoperator.dev/v1alpha1"

structure AppStatus where
  conditions : List Condition
  /-- The executor that runs the app. -/
  activeScheduler : Option String
  readyReplicas : Int
deriving DecidableEq, Repr

namespace AppStatus

def empty : AppStatus := ⟨[], none, 0⟩

def record : Record AppStatus where
  name := "SpinAppStatus"
  doc := "Observed state of a SpinApp"
  start := empty
  fields := [
    .doc "`Available` and `Progressing`, mirrored from the Deployment" <|
      .unlessEmpty "conditions" (.list Condition.codec) List.isEmpty conditions
        fun a x => { x with conditions := a },
    .doc "Executor currently realizing this app" <|
      .optional "activeScheduler" .string activeScheduler
        fun a x => { x with activeScheduler := a },
    .doc "Ready replicas of the underlying Deployment" <|
      .defaulted "readyReplicas" .int32 readyReplicas fun a x => { x with readyReplicas := a }]

def codec : Codec AppStatus := record.strict

end AppStatus

structure App where
  metadata : ObjectMeta
  spec : AppSpec
  status : Option AppStatus

namespace App

def kind : String := "SpinApp"

def record : Record App where
  name := kind
  start := ⟨.empty, .ofImage "", none⟩
  fields := [
    .required "metadata" ObjectMeta.codec metadata fun a x => { x with metadata := a },
    .required "spec" AppSpec.codec spec fun a x => { x with spec := a },
    { Field.optional "status" AppStatus.codec status (fun a x => { x with status := a }) with
      presence := .named }]

/-- An app is written with its version and kind, which are not looked at when it is read. -/
def codec : Codec App where
  decode := record.decodeStrict
  encode x := .object
    (("apiVersion", .string groupVersion) :: ("kind", .string kind) :: (record.encode x).members)

def name (a : App) : String := a.metadata.anyName

def ns (a : App) : String := a.metadata.nsOrEmpty

def reference (a : App) : ObjectReference where
  apiVersion := some groupVersion
  kind := some kind
  name := a.metadata.name
  ns := a.metadata.ns
  uid := a.metadata.uid
  resourceVersion := none
  fieldPath := none

end App

end SpinFleet
