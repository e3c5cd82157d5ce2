import SpinFleet.Json.Printer
/-!
# Errors of a field

What is wrong with an object is told field by field, in the words in which the cluster itself
tells it: the field, its value as JSON, and the rule that it breaks.
-/
namespace SpinFleet

structure FieldError where
  field : String
  value : Json
  detail : String

namespace FieldError

def text (e : FieldError) : String :=
  e.field ++ ": Invalid value: " ++ e.value.compact ++ ": " ++ e.detail

/-- The texts of errors: a single one stands alone, any other number of them in brackets. -/
def texts : List FieldError → String
  | [e] => e.text
  | es => "[" ++ ", ".intercalate (es.map text) ++ "]"

def refusal (kind name : String) (es : List FieldError) : String :=
  kind ++ ".core.spinoperator.dev \"" ++ name ++ "\" is invalid: " ++ texts es

end FieldError

end SpinFleet
