import SpinFleet.Admission.Review
import SpinFleet.Admission.Rules
import SpinFleet.Pass
/-!
# Verdicts

The three verdicts of the operator.  An app that names no executor is given the default one of its
namespace; an app and an executor are stored only if no rule is broken.  An object that cannot be
read is refused, and so is an app whose executor cannot be looked up; where there is no object at
all, there is nothing to object to.
-/
namespace SpinFleet

def Pass.ask (c : Call) : Pass (Except Error c.Answer) := .call c .done

namespace Admission

inductive Verdict
  /-- It is stored, changed by a patch if there is one. -/
  | allow (patch : Option Json)
  | deny (message : String)

namespace Verdict

def isAllowed : Verdict → Bool
  | allow _ => true
  | deny _ => false

def patchAdding (path : String) (value : Json) : Json := .array [
  .object [("op", .string "add"), ("path", .string path), ("value", value)]]

def ofErrors (kind name : String) : List FieldError → Verdict
  | [] => allow none
  | es => deny (FieldError.refusal kind name es)

/-- The response that carries a verdict on a request.  A patch is a list of bytes. -/
def response (uid : String) : Verdict → Json
  | allow patch => .ofGroups [
      Json.always "uid" (.string uid), Json.always "allowed" (.bool true),
      Json.always "status" (.object []),
      Json.optional "patch" patch fun p =>
        .array (p.compact.toUTF8.toList.map fun b => .int b.toNat),
      Json.optional "patchType" patch fun _ => .string "JSONPatch"]
  | deny message => .object [
      ("uid", .string uid), ("allowed", .bool false),
      ("status", if message.isEmpty then .object [] else .object [("message", .string message)])]

end Verdict

namespace Request

def judge {α : Type} (r : Request) (kind : String) (c : Codec α) (f : α → Pass Verdict) :
    Pass Verdict :=
  match r.object with
  | none => return .allow none
  | some j =>
    match c.decode j with
    | .ok a => f a
    | .error e => return .deny ("failed to decode " ++ kind ++ ": " ++ e.message)

/-- The namespace of a request, which goes before what its object says. -/
def nsOf (r : Request) (m : ObjectMeta) : String := (r.ns <|> m.ns).getD ""

def defaulting (r : Request) : Pass Verdict :=
  r.judge App.kind App.codec fun app => do
    if !app.spec.executor.isEmpty then return .allow none
    match ← Pass.ask (.listExecutors (r.nsOf app.metadata)) with
    | .error e => return .deny e.message
    | .ok es =>
      return .allow ((defaultExecutor es).map fun n =>
        Verdict.patchAdding "/spec/executor" (.string n))

def executorOf (r : Request) (app : App) : Pass (Except Error (Option Executor)) :=
  if app.spec.executor.isEmpty then return .ok none
  else Pass.ask (.getExecutor app.spec.executor (r.nsOf app.metadata))

def validatingApp (r : Request) : Pass Verdict :=
  r.judge App.kind App.codec fun app => do
    match ← r.executorOf app with
    | .error e => return .deny ("failed to look up executor: " ++ e.message)
    | .ok executor => return .ofErrors App.kind app.name (app.spec.errors executor)

def validatingExecutor (r : Request) : Pass Verdict :=
  r.judge Executor.kind Executor.codec fun e => return .ofErrors Executor.kind e.name e.spec.errors

end Request

def noRequest : Json := .object [
  ("apiVersion", .string "admission.k8s.io/v1beta1"), ("kind", .string "AdmissionReview"),
  ("response", .object [
    ("uid", .string ""), ("allowed", .bool false),
    ("status", .object [
      ("status", .string "Failure"),
      ("message", .string "failed to convert AdmissionReview into AdmissionRequest"),
      ("reason", .string "InvalidRequest")])])]

def Review.answer (r : Review) (judge : Request → Pass Verdict) : Pass Json :=
  match r.request with
  | none => return noRequest
  | some request => do
    let verdict ← judge request
    return .object [("apiVersion", .string r.apiVersion), ("kind", .string r.kind),
      ("response", verdict.response request.uid)]

end Admission

end SpinFleet
