import SpinFleet.Admission.Verdict
import SpinFleet.Codec.Text
import SpinFleet.Text.MediaType
/-!
# The admission server

The cluster sends its reviews to three addresses, and asks at a fourth whether the server is well.
A message that is no review is refused with a status that says what is wrong with it: the address,
the method, the type of the body, its text, or its meaning.  A review always gets an answer.
-/
namespace SpinFleet.Admission

structure Message where
  method : String
  /-- The path and the query of the address. -/
  address : String
  contentType : Option String
  body : String

inductive Reply
  | json (value : Json)
  | text (value : String)
  | refused (status : Nat)

namespace Reply

def status : Reply → Nat
  | json _ | text _ => 200
  | refused code => code

end Reply

inductive Endpoint
  | review (judge : Request → Pass Verdict)
  | health

/-- The path of an address, which a question mark or a number sign ends. -/
def pathOf (address : String) : String :=
  String.ofList (address.toList.takeWhile fun c => c != '?' && c != '#')

def endpoint? : String → Option Endpoint
  | "/mutate-spinapp" => some (.review Request.defaulting)
  | "/validate-spinapp" => some (.review Request.validatingApp)
  | "/validate-spinappexecutor" => some (.review Request.validatingExecutor)
  | "/healthz" => some .health
  | _ => none

def bodyLimit : Nat := 2097152

/-- The review in the body of a message, or the status that refuses it. -/
def Message.review (m : Message) : Except Nat Review :=
  if !((m.contentType >>= MediaType.parse?).any MediaType.isJson) then .error 415
  else if bodyLimit < m.body.utf8ByteSize then .error 413
  else match Review.codec.decodeText m.body with
    | .ok r => .ok r
    | .error e => .error (if e.isData then 422 else 400)

def respond (m : Message) : Pass Reply :=
  match endpoint? (pathOf m.address), m.method with
  | none, _ => return .refused 404
  | some .health, "GET" => return .text "ok"
  | some .health, "HEAD" => return .text ""
  | some (.review judge), "POST" =>
    match m.review with
    | .error code => return .refused code
    | .ok review => .json <$> review.answer judge
  | some _, _ => return .refused 405

end SpinFleet.Admission
