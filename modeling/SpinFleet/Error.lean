import SpinFleet.Text.Quoted
/-!
# What can go wrong

Every failure of the operator has one of these causes.  A failure is *retryable* when it can go
away without anybody changing the app: the pass is then repeated after a while, and otherwise
only when something changes.
-/
namespace SpinFleet

structure ApiRefusal where
  status : String
  message : String
  reason : String
  code : Int
deriving DecidableEq, Repr

inductive ApiError
  | refused (r : ApiRefusal)
  /-- A secure connection is required but not available. -/
  | tlsRequired
  /-- A line of a stream was too long to be read. -/
  | lineTooLong
  /-- The request could not be made. -/
  | badRequest (detail : String)
  /-- The answer could not be understood. -/
  | badAnswer (detail : String)
deriving DecidableEq, Repr

namespace ApiError

def message : ApiError → String
  | .refused r =>
    "ApiError: " ++ r.message ++ ": " ++ r.reason ++ " (ErrorResponse \x7b status: " ++
      Text.quoted r.status ++ ", message: " ++ Text.quoted r.message ++ ", reason: " ++
      Text.quoted r.reason ++ ", code: " ++ toString r.code ++ " \x7d)"
  | .tlsRequired => "TLS required but no TLS stack selected"
  | .lineTooLong => "Error finding newline character"
  | .badRequest detail => "Failed to build request: " ++ detail
  | .badAnswer detail => "Error deserializing response: " ++ detail

def hasCode (code : Int) : ApiError → Bool
  | .refused r => r.code == code
  | _ => false

def isNotFound (e : ApiError) : Bool := e.hasCode 404

def isConflict (e : ApiError) : Bool := e.hasCode 409

/-- The client's own mistakes stay, apart from conflicts and from asking too often. -/
def isRetryable : ApiError → Bool
  | .refused r => !(400 ≤ r.code && r.code < 500) || r.code == 409 || r.code == 429
  | _ => true

end ApiError

inductive Error
  | kube (e : ApiError)
  /-- A referenced object does not exist. -/
  | missingDependency (kind ns name : String)
  /-- The declared configuration contradicts itself. -/
  | runtimeConfig (detail : String)
  /-- A child object cannot be built. -/
  | construct (kind detail : String)
  /-- An executor cannot go while apps refer to it. -/
  | dependentsExist (executor : String) (count : Nat)
  | serialization (kind detail : String)
  | timeout (seconds : Nat)
  | internal (context detail : String)
deriving DecidableEq, Repr

namespace Error

def kind : Error → String
  | .kube _ => "Kube"
  | .missingDependency .. => "MissingDependency"
  | .runtimeConfig _ => "RuntimeConfig"
  | .construct .. => "Construct"
  | .dependentsExist .. => "DependentsExist"
  | .serialization .. => "Serialization"
  | .timeout _ => "Timeout"
  | .internal .. => "Internal"

def message : Error → String
  | .kube e => "kubernetes error: " ++ e.message
  | .missingDependency kind ns name => kind ++ " " ++ ns ++ "/" ++ name ++ " not found"
  | .runtimeConfig detail => "runtime config error: " ++ detail
  | .construct kind detail => "failed to construct " ++ kind ++ ": " ++ detail
  | .dependentsExist _ count =>
    "cannot delete SpinAppExecutor with dependent SpinApps (" ++ toString count ++ " remaining)"
  | .serialization _ detail => "serialization error: " ++ detail
  | .timeout seconds => "reconciliation timed out after " ++ toString seconds ++ "s"
  | .internal context detail => "internal error [" ++ context ++ "]: " ++ detail

def isRetryable : Error → Bool
  | .kube e => e.isRetryable
  | .missingDependency .. => true
  | .runtimeConfig _ => false
  | .construct .. => false
  | .dependentsExist .. => true
  | .serialization .. => false
  | .timeout _ => true
  | .internal .. => true

end Error

end SpinFleet
