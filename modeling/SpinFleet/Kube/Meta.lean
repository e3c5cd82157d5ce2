import SpinFleet.Kube.Shape
/-!
# Metadata

What every object of the cluster has: its key, its version, the labels and annotations others
see, the objects that own it, and the finalizers that hold its deletion back.
-/
namespace SpinFleet

/-- An object that owns another; the controller among the owners is the one that made it. -/
structure OwnerReference where
  apiVersion : String
  kind : String
  name : String
  uid : String
  controller : Option Bool
  blockOwnerDeletion : Option Bool
deriving DecidableEq, Repr

namespace OwnerReference

def record : Record OwnerReference where
  name := "OwnerReference"
  start := ⟨"", "", "", "", none, none⟩
  fields := [
    .plain "apiVersion" .string "" apiVersion fun a x => { x with apiVersion := a },
    .optional "blockOwnerDeletion" .boolean blockOwnerDeletion
      fun a x => { x with blockOwnerDeletion := a },
    .optional "controller" .boolean controller fun a x => { x with controller := a },
    .plain "kind" .string "" kind fun a x => { x with kind := a },
    .plain "name" .string "" name fun a x => { x with name := a },
    .plain "uid" .string "" uid fun a x => { x with uid := a }]

def codec : Codec OwnerReference := record.lenient

end OwnerReference

abbrev Labels := Dict String String

structure ObjectMeta where
  name : Option String
  generateName : Option String
  ns : Option String
  uid : Option String
  resourceVersion : Option String
  labels : Option Labels
  annotations : Option Labels
  ownerReferences : Option (List OwnerReference)
  finalizers : Option (List String)
  deletionTimestamp : Option Instant
  carried : Carried

namespace ObjectMeta

def empty : ObjectMeta := ⟨none, none, none, none, none, none, none, none, none, none, .empty⟩

instance : Inhabited ObjectMeta := ⟨empty⟩

def managedFieldsEntry : Shape := .record "ManagedFieldsEntry" [] [
  ("apiVersion", .text), ("fieldsType", .text), ("fieldsV1", .anything), ("manager", .text),
  ("operation", .text), ("subresource", .text), ("time", .time)]

def carriedParts : List (String × Shape) := [
  ("creationTimestamp", .time), ("deletionGracePeriodSeconds", .int64), ("generation", .int64),
  ("managedFields", .list managedFieldsEntry), ("selfLink", .text)]

def record : Record ObjectMeta where
  name := "ObjectMeta"
  start := empty
  fields := [
    .optional "annotations" (.dict .string) annotations fun a x => { x with annotations := a },
    .optional "deletionTimestamp" (.time Instant.textSeconds) deletionTimestamp
      fun a x => { x with deletionTimestamp := a },
    .optional "finalizers" (.list .string) finalizers fun a x => { x with finalizers := a },
    .optional "generateName" .string generateName fun a x => { x with generateName := a },
    .optional "labels" (.dict .string) labels fun a x => { x with labels := a },
    .optional "name" .string name fun a x => { x with name := a },
    .optional "namespace" .string ns fun a x => { x with ns := a },
    .optional "ownerReferences" (.list OwnerReference.codec) ownerReferences
      fun a x => { x with ownerReferences := a },
    .optional "resourceVersion" .string resourceVersion fun a x => { x with resourceVersion := a },
    .optional "uid" .string uid fun a x => { x with uid := a }]
    ++ Field.carriedAll carried (fun a x => { x with carried := a }) carriedParts

def codec : Codec ObjectMeta := record.lenient

def shape : Shape := .ofCodec (.object []) codec

/-- The name of an object: its own, or the one its name was to be generated from. -/
def anyName (m : ObjectMeta) : String := (m.name <|> m.generateName).getD ""

def nsOrEmpty (m : ObjectMeta) : String := m.ns.getD ""

def key (m : ObjectMeta) : ObjectKey := ⟨m.nsOrEmpty, m.anyName⟩

def finalizerList (m : ObjectMeta) : List String := m.finalizers.getD []

def version (m : ObjectMeta) : String := m.resourceVersion.getD ""

def isDeleting (m : ObjectMeta) : Bool := m.deletionTimestamp.isSome

end ObjectMeta

structure LabelSelector where
  matchLabels : Option Labels
  carried : Carried

namespace LabelSelector

def requirement : Shape := .record "LabelSelectorRequirement"
  [("key", .text), ("operator", .text)] [("values", .texts)]

def record : Record LabelSelector where
  name := "LabelSelector"
  start := ⟨none, .empty⟩
  fields :=
    .optional "matchLabels" (.dict .string) matchLabels (fun a x => { x with matchLabels := a }) ::
    Field.carriedAll carried (fun a x => { x with carried := a })
      [("matchExpressions", .list requirement)]

def codec : Codec LabelSelector := record.lenient

def shape : Shape := .ofCodec (.object []) codec

end LabelSelector

structure ObjectReference where
  apiVersion : Option String
  kind : Option String
  name : Option String
  ns : Option String
  uid : Option String
  resourceVersion : Option String
  fieldPath : Option String
deriving DecidableEq, Repr

namespace ObjectReference

def record : Record ObjectReference where
  name := "ObjectReference"
  start := ⟨none, none, none, none, none, none, none⟩
  fields := [
    .optional "apiVersion" .string apiVersion fun a x => { x with apiVersion := a },
    .optional "fieldPath" .string fieldPath fun a x => { x with fieldPath := a },
    .optional "kind" .string kind fun a x => { x with kind := a },
    .optional "name" .string name fun a x => { x with name := a },
    .optional "namespace" .string ns fun a x => { x with ns := a },
    .optional "resourceVersion" .string resourceVersion fun a x => { x with resourceVersion := a },
    .optional "uid" .string uid fun a x => { x with uid := a }]

def codec : Codec ObjectReference := record.lenient

end ObjectReference

structure LocalObjectReference where
  name : String
deriving DecidableEq, Repr

namespace LocalObjectReference

def record : Record LocalObjectReference where
  name := "LocalObjectReference"
  start := ⟨""⟩
  fields := [.free (.plain "name" .string "" name fun a x => { x with name := a })]

def codec : Codec LocalObjectReference := record.lenient

def shape : Shape := .ofCodec (.object [("name", .string "")]) codec

end LocalObjectReference

end SpinFleet
