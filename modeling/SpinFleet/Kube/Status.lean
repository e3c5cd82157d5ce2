import SpinFleet.Kube.Shape
/-!
# What a request has come to

Where an answer is no object, it is a status: whether the request succeeded, and why if not.  The
operator looks only at the refusals (`SpinFleet.Api.Exchange`); of any other status it only wants
to know that it is one.
-/
namespace SpinFleet

/-- A member whose value is checked and dropped. -/
def Field.checked {σ : Type} (name : String) (s : Shape) : Field σ :=
  { name := name
    presence := .defaulted
    read := fun j => (fun _ => id) <$> s.normalise j
    write := fun _ => none }

def statusCause : Record Unit where
  name := "StatusCause"
  start := ()
  fields := [.checked "reason" .text, .checked "message" .text, .checked "field" .text]

def statusDetails : Record Unit where
  name := "StatusDetails"
  start := ()
  fields := [
    .checked "name" .text, .checked "group" .text, .checked "kind" .text, .checked "uid" .text,
    .checked "causes" (.list (.ofCodec .null statusCause.strict)),
    .checked "retryAfterSeconds" (.ofCodec .null (.integer 0 4294967295 "u32"))]

def successOrFailure : Shape := .ofCodec .null (Codec.nullable (.word ["Success", "Failure"]))

def statusRecord : Record Unit where
  name := "Status"
  start := ()
  fields := [
    .checked "status" successOrFailure, .checked "code" (.ofCodec .null .nat16),
    .checked "message" .text, .checked "reason" .text,
    .checked "details" (.ofCodec .null statusDetails.strict.nullable)]

end SpinFleet
