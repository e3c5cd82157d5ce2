import SpinFleet.Kube.Meta
import SpinFleet.Kube.Status
/-!
# Reviews

Before the cluster stores an object, it asks for a verdict on it.  The question and the answer have
one shape, the review: it holds the request when it comes and the response when it goes back.

A review is an open record: members that it does not know are kept until it has been read, so they
may not be nested too deep.  The same holds of the object under review, of which only the metadata
has a type.
-/
namespace SpinFleet.Admission

structure Request where
  uid : String
  ns : Option String
  /-- The object as it is to be stored; there is none when it is deleted. -/
  object : Option Json

structure Review where
  apiVersion : String
  kind : String
  request : Option Request

/-! ## Kept members -/

abbrev Members := List (String × Json)

def keep (level : Nat) (k : String) (j : Json) : Decoded (Members → Members) := do
  let j ← (Codec.kept (Codec.maxLevels - level)).decode j
  return fun ms => ms ++ [(k, j)]

/-! ## Checked members -/

def demanded {σ α : Type} (name : String) (c : Codec α) : Field σ where
  name := name
  presence := .required
  read j := (fun _ => id) <$> c.decode j
  write _ := none

/-- A member that is checked if it is there, and may be `null`. -/
def offered {σ α : Type} (name : String) (c : Codec α) : Field σ where
  name := name
  presence := .defaulted
  read j := (fun _ => id) <$> c.nullable.decode j
  write _ := none

/-- A member that may be missing from an object, but not from an array. -/
def Field.byName {σ : Type} (f : Field σ) : Field σ := { f with presence := .named }

/-! ## The object -/

structure Draft where
  metadata : ObjectMeta
  rest : Members

def draftRecord : Record Draft where
  name := "DynamicObject"
  start := ⟨.empty, []⟩
  fields :=
    [.defaulted "metadata" ObjectMeta.codec Draft.metadata fun a x => { x with metadata := a }]

/-- An object of any kind.  Its metadata is brought into its written form, and the rest is kept. -/
def objectCodec : Codec Json where
  decode j := do
    let d ← draftRecord.decodeOpen
      (fun k v => (fun f x => { x with rest := f x.rest }) <$> keep 3 k v) j
    return (Json.object (d.rest ++ [("metadata", ObjectMeta.codec.encode d.metadata)])).sorted
  encode := id

/-! ## The request -/

def groupRecord (name third : String) : Record Unit where
  name := name
  start := ()
  fields := [demanded "group" .string, demanded "version" .string, demanded third .string]

def groupKind : Codec Unit := (groupRecord "GroupVersionKind" "kind").strict

def groupResource : Codec Unit := (groupRecord "GroupVersionResource" "resource").strict

def operation : Codec String := .word ["CREATE", "UPDATE", "DELETE", "CONNECT"]

def userInfo : Shape := .record "UserInfo" []
  [("extra", .dict .texts), ("groups", .texts), ("uid", .text), ("username", .text)]

def requestRecord : Record Request where
  name := "AdmissionRequest"
  start := ⟨"", none, none⟩
  fields := [
    .required "uid" .string Request.uid fun a x => { x with uid := a },
    demanded "kind" groupKind, demanded "resource" groupResource,
    offered "subResource" .string, offered "requestKind" groupKind,
    offered "requestResource" groupResource, offered "requestSubResource" .string,
    .checked "name" .text,
    .optional "namespace" .string Request.ns fun a x => { x with ns := a },
    demanded "operation" operation,
    demanded "userInfo" userInfo.codec,
    Field.byName <| .optional "object" objectCodec Request.object fun a x => { x with object := a },
    Field.byName <| offered "oldObject" objectCodec,
    .checked "dryRun" .boolean,
    Field.byName <| offered "options" objectCodec]

/-! ## The review -/

def responseRecord : Record Unit where
  name := "AdmissionResponse"
  start := ()
  fields := [
    demanded "uid" .string, demanded "allowed" .boolean,
    demanded "status" statusRecord.strict,
    offered "patch" (.list (.integer 0 255 "u8")),
    offered "patchType" (.word ["JSONPatch"]),
    .checked "auditAnnotations" .textDict,
    offered "warnings" (.list .string)]

structure ReviewDraft where
  request : Option Request
  rest : Members

def reviewRecord : Record ReviewDraft where
  name := "AdmissionReview"
  start := ⟨none, []⟩
  fields := [
    .optional "request" requestRecord.strict ReviewDraft.request fun a x => { x with request := a },
    offered "response" responseRecord.strict]

/-- What a review says of itself, which is read when all of it has been seen. -/
def typeRecord : Record (String × String) where
  name := "TypeMeta"
  start := ("", "")
  fields := [
    .required "apiVersion" .string Prod.fst fun a x => (a, x.2),
    .required "kind" .string Prod.snd fun a x => (x.1, a)]

def Review.decode (j : Json) : Decoded Review := do
  let d ← reviewRecord.decodeOpen
    (fun k v => (fun f x => { x with rest := f x.rest }) <$> keep 1 k v) j
  match typeRecord.decodeStrict (.object d.rest) with
  | .ok (apiVersion, kind) => return ⟨apiVersion, kind, d.request⟩
  | .error f => .refuse f.refusal

def Review.codec : Codec Review where
  decode := Review.decode
  encode _ := .null

end SpinFleet.Admission
