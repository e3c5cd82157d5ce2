import SpinFleet.Api.Uri
import SpinFleet.Codec.Text
import SpinFleet.Error
/-!
# Exchanges with the API server

A request is answered by a status and a text.  An exchange is a tree of requests, each of which
waits for its response; what is made of the responses is decided without any input or output.
-/
namespace SpinFleet

structure Request where
  method : String
  target : Uri.Target
  contentType : Option String
  accept : Option String
  body : Option Json

structure Response where
  status : Nat
  text : String
deriving Repr

inductive Exchange (α : Type)
  | done (a : α)
  | send (r : Request) (next : Response → Exchange α)

namespace Exchange

variable {α β : Type}

def bind : Exchange α → (α → Exchange β) → Exchange β
  | done a, f => f a
  | send r next, f => send r fun x => (next x).bind f

instance : Monad Exchange where
  pure := done
  bind := bind

/-- Carries out an exchange with some responses, the last one standing for all that follow.  Gives
the requests in their order and the result. -/
def run (fallback : Response) : Exchange α → List Response → List Request × α
  | done a, _ => ([], a)
  | send r next, responses =>
    let (rs, a) := run fallback (next (responses.head?.getD fallback)) responses.tail
    (r :: rs, a)

end Exchange

abbrev Talk := ExceptT ApiError Exchange

def statusReason (code : Nat) : String :=
  match code with
  | 400 => "Bad Request"
  | 401 => "Unauthorized"
  | 402 => "Payment Required"
  | 403 => "Forbidden"
  | 404 => "Not Found"
  | 405 => "Method Not Allowed"
  | 406 => "Not Acceptable"
  | 407 => "Proxy Authentication Required"
  | 408 => "Request Timeout"
  | 409 => "Conflict"
  | 410 => "Gone"
  | 411 => "Length Required"
  | 412 => "Precondition Failed"
  | 413 => "Payload Too Large"
  | 414 => "URI Too Long"
  | 415 => "Unsupported Media Type"
  | 416 => "Range Not Satisfiable"
  | 417 => "Expectation Failed"
  | 418 => "I'm a teapot"
  | 421 => "Misdirected Request"
  | 422 => "Unprocessable Entity"
  | 423 => "Locked"
  | 424 => "Failed Dependency"
  | 425 => "Too Early"
  | 426 => "Upgrade Required"
  | 428 => "Precondition Required"
  | 429 => "Too Many Requests"
  | 431 => "Request Header Fields Too Large"
  | 451 => "Unavailable For Legal Reasons"
  | 500 => "Internal Server Error"
  | 501 => "Not Implemented"
  | 502 => "Bad Gateway"
  | 503 => "Service Unavailable"
  | 504 => "Gateway Timeout"
  | 505 => "HTTP Version Not Supported"
  | 506 => "Variant Also Negotiates"
  | 507 => "Insufficient Storage"
  | 508 => "Loop Detected"
  | 510 => "Not Extended"
  | 511 => "Network Authentication Required"
  | _ => "<unknown status code>"

namespace ApiRefusal

def shape : Record ApiRefusal where
  name := "ErrorResponse"
  start := ⟨"", "", "", 0⟩
  fields := [
    .required "status" .string status fun a x => { x with status := a },
    .defaulted "message" .string message fun a x => { x with message := a },
    .defaulted "reason" .string reason fun a x => { x with reason := a },
    .required "code" .nat16 code fun a x => { x with code := a }]

def codec : Codec ApiRefusal := shape.strict

/-- The refusal that a response tells of: what it says in the server's shape, and otherwise its
status and its text. -/
def ofResponse (r : Response) : ApiRefusal :=
  match codec.decodeText r.text with
  | .ok refusal => refusal
  | .error _ => {
      status := toString r.status ++ " " ++ statusReason r.status
      message := Text.quoted r.text
      reason := "Failed to parse error data"
      code := r.status }

end ApiRefusal

namespace Talk

/-- Makes a request.  A response with a status from 400 on is a refusal. -/
def request (r : Request) : Talk String := ExceptT.mk (.send r fun response => .done (
  if 400 ≤ response.status ∧ response.status < 600 then
    .error (.refused (.ofResponse response))
  else .ok response.text))

def decode {α : Type} (c : Codec α) (text : String) : Talk α :=
  match c.decodeText text with
  | .ok a => return a
  | .error e => throw (.badAnswer e.text)

end Talk

end SpinFleet
