import SpinFleet.Api.Exchange
import SpinFleet.Kube.Status
/-!
# The requests for one kind of objects

The server keeps the objects of each kind of each namespace under a path of their own.  Reading,
creating, patching and deleting them are one request each.
-/
namespace SpinFleet

/-- A kind of objects: where the server keeps them, and how they are written. -/
structure Resource (α : Type) where
  /-- The path of the kind's group and version. -/
  root : String
  plural : String
  codec : Codec α

namespace Resource

variable {α : Type}

def path (k : Resource α) (ns : String) : String :=
  k.root ++ "/namespaces/" ++ ns ++ "/" ++ k.plural

/-- The path of an object, which has to have a name. -/
def objectPath (k : Resource α) (ns name : String) : Talk String :=
  if name.isEmpty then
    throw (.badRequest "failed to validate request: A non-empty name is required")
  else return k.path ns ++ "/" ++ name

def target (text : String) : Talk Uri.Target :=
  match Uri.parse text with
  | .ok t => return t
  | .error f => throw (.badRequest ("failed to build request: " ++ f.message))

def json : String := "application/json"

def get (k : Resource α) (ns name : String) : Talk α := do
  let t ← target (← k.objectPath ns name)
  Talk.decode k.codec (← Talk.request ⟨"GET", t, none, none, none⟩)

def get? (k : Resource α) (ns name : String) : Talk (Option α) := do
  try return some (← k.get ns name)
  catch e => if e.isNotFound then return none else throw e

def listMeta : Shape := .record "ListMeta" []
  [("continue", .text), ("remainingItemCount", .int64), ("resourceVersion", .text),
   ("selfLink", .text)]

/-- A list of objects; only its items matter. -/
def listRecord (k : Resource α) : Record (List α) where
  name := "ObjectList"
  start := []
  fields := [
    { name := "metadata", presence := .defaulted
      read := fun j => (fun _ => id) <$> listMeta.normalise j
      write := fun _ => none },
    { Field.required "items" (Codec.list k.codec |>.orZero []) id (fun a _ => a) with
      presence := .required }]

def decodeList (k : Resource α) : Json → Decoded (List α)
  | .object ms => k.listRecord.decodeStrict (.object ms)
  | j => .wrongType "struct ObjectList" j

def listCodec (k : Resource α) : Codec (List α) where
  decode := k.decodeList
  encode _ := .null

def list (k : Resource α) (ns : String) (label : Option (String × String)) : Talk (List α) := do
  let query := match label with
    | some (key, value) => "&labelSelector=" ++ Uri.encode (key ++ "=" ++ value)
    | none => ""
  let t ← target (k.path ns ++ "?" ++ query)
  Talk.decode k.listCodec (← Talk.request ⟨"GET", t, none, none, none⟩)

def create (k : Resource α) (ns : String) (body : Json) : Talk α := do
  let t ← target (k.path ns ++ "?")
  Talk.decode k.codec (← Talk.request ⟨"POST", t, some json, none, some body⟩)

def mergeAt (k : Resource α) (path : String) (patch : Json) : Talk α := do
  let t ← target (path ++ "?")
  Talk.decode k.codec
    (← Talk.request ⟨"PATCH", t, some "application/merge-patch+json", some json, some patch⟩)

def merge (k : Resource α) (ns name : String) (patch : Json) : Talk α := do
  k.mergeAt (← k.objectPath ns name) patch

def mergeStatus (k : Resource α) (ns name : String) (patch : Json) : Talk α := do
  k.mergeAt ((← k.objectPath ns name) ++ "/status") patch

def fieldManager : String := "spin-operator"

/-- Brings an object into a state, creating it if it is not there, against the wishes of others. -/
def apply (k : Resource α) (ns name : String) (body : Json) : Talk α := do
  let t ← target ((← k.objectPath ns name) ++ "?&force=true&fieldManager=" ++ fieldManager)
  Talk.decode k.codec
    (← Talk.request ⟨"PATCH", t, some "application/apply-patch+yaml", some json, some body⟩)

/-- Deletes an object.  The server answers with the object, or with what became of it. -/
def delete (k : Resource α) (ns name : String) : Talk Unit := do
  let t ← target ((← k.objectPath ns name) ++ "?")
  let text ← Talk.request ⟨"DELETE", t, some json, none, some (.object [])⟩
  let j ← Talk.decode (Codec.kept Codec.maxLevels) text
  if (j.member? "kind" >>= Json.string?) = some "Status" then
    Talk.decode statusRecord.strict text
  else
    let _ ← Talk.decode k.codec text
    return ()

def delete? (k : Resource α) (ns name : String) : Talk Unit := do
  try k.delete ns name
  catch e => if e.isNotFound then return () else throw e

end Resource

end SpinFleet
