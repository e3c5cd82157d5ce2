import SpinFleet.Json.Printer
import SpinFleet.Text.Quoted
import SpinFleet.Text.Base64
import SpinFleet.Time.Reading
/-!
# Why a value does not decode

A value that has not the shape of its type is refused with one cause, at one place.  The cause is
what a user reads; the place is a path into the value and says how much of it had been read, so
that a reader of a *text* can name the line and the column (`SpinFleet.Json.Text`).
-/
namespace SpinFleet

inductive Unexpected
  | null
  | boolean (b : Bool)
  | number (n : Number)
  | string (s : String)
  | sequence
  | map
deriving Repr, DecidableEq

namespace Unexpected

/-- The description of a value, the contents of arrays and objects being left out. -/
def ofJson : Json → Unexpected
  | .null => .null
  | .bool b => .boolean b
  | .number n => .number n
  | .string s => .string s
  | .array _ => .sequence
  | .object _ => .map

def text : Unexpected → String
  | .null => "null"
  | .boolean b => "boolean `" ++ (if b then "true" else "false") ++ "`"
  | .number (.integer n) => "integer `" ++ toString n ++ "`"
  | .number n => "floating point `" ++ n.text ++ "`"
  | .string s => "string " ++ Text.quoted s
  | .sequence => "sequence"
  | .map => "map"

end Unexpected

inductive Refusal
  /-- A value of another type. -/
  | wrongType (found : Unexpected) (expected : String)
  /-- A value of the right type that is out of range. -/
  | wrongValue (found : Unexpected) (expected : String)
  /-- An array with too few or too many items. -/
  | wrongLength (length : Nat) (expected : String)
  /-- A word that is none of those a type knows. -/
  | unknownVariant (name : String) (known : List String)
  | missingField (name : String)
  /-- A member is there twice. -/
  | duplicateField (name : String)
  /-- A text is no time. -/
  | badTime (fault : Instant.Fault)
  /-- A text is no Base64. -/
  | badBase64 (fault : Base64.Fault)
  /-- Arrays and objects are nested too deeply to be kept. -/
  | tooDeep
deriving Repr, DecidableEq

def Refusal.variants (known : List String) : String :=
  let ticked := known.map (fun k => "`" ++ k ++ "`")
  match ticked with
  | [] => "there are no variants"
  | [a] => "expected " ++ a
  | [a, b] => "expected " ++ a ++ " or " ++ b
  | _ => "expected one of " ++ ", ".intercalate ticked

def Refusal.message : Refusal → String
  | .wrongType u e => "invalid type: " ++ u.text ++ ", expected " ++ e
  | .wrongValue u e => "invalid value: " ++ u.text ++ ", expected " ++ e
  | .wrongLength n e => "invalid length " ++ toString n ++ ", expected " ++ e
  | .unknownVariant n known => "unknown variant `" ++ n ++ "`, " ++ variants known
  | .missingField n => "missing field `" ++ n ++ "`"
  | .duplicateField n => "duplicate field `" ++ n ++ "`"
  | .badTime f => f.message
  | .badBase64 f => f.message
  | .tooDeep => "recursion limit exceeded"

/-- How much of a value had been read when it was refused. -/
inductive Progress
  /-- Nothing: its first character told. -/
  | unread
  | opened
  | whole
  /-- A member's name, the member being the last step of the path. -/
  | name
  /-- A member of an object, the member being the last step of the path. -/
  | member
deriving Repr, DecidableEq

/-- A refusal and its place.  The path counts items and members from zero, outermost first. -/
structure Failure where
  refusal : Refusal
  progress : Progress
  path : List Nat
deriving Repr, DecidableEq

def Failure.message (f : Failure) : String := f.refusal.message

abbrev Decoded (α : Type) := Except Failure α

namespace Decoded

def refuse {α : Type} (r : Refusal) : Decoded α := .error ⟨r, .whole, []⟩

def under {α : Type} (position : Nat) : Decoded α → Decoded α
  | .ok a => .ok a
  | .error f => .error { f with path := position :: f.path }

/-- Refuses a value for its type; an array or an object is refused unread. -/
def wrongType {α : Type} (expected : String) (j : Json) : Decoded α :=
  let progress := match j with
    | .array _ | .object _ => .unread
    | _ => .whole
  .error ⟨.wrongType (.ofJson j) expected, progress, []⟩

end Decoded

end SpinFleet
