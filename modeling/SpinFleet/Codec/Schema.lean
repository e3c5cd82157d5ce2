import SpinFleet.Json.Basic
/-!
# Schemas

A schema says what the values of a type look like, for those who write them: the cluster shows it
to users and refuses objects that do not fit.  Every codec has one (`SpinFleet.Codec.Value`), so
that what is read and what is advertised come from the same table.
-/
namespace SpinFleet

structure Schema where
  members : Dict String Json

namespace Schema

def anything : Schema := ⟨.empty⟩

def json (s : Schema) : Json := .object s.members.toList

def put (s : Schema) (name : String) (value : Json) : Schema := ⟨s.members.insert name value⟩

def ofType (type : String) : Schema := anything.put "type" (.string type)

def string : Schema := ofType "string"
def boolean : Schema := ofType "boolean"

def formatted (format : String) : Schema := string.put "format" (.string format)

def integer (format : String) : Schema := (ofType "integer").put "format" (.string format)

def word (words : List String) : Schema := string.put "enum" (.array (words.map .string))

def list (item : Schema) : Schema := (ofType "array").put "items" item.json

def dict (value : Schema) : Schema := (ofType "object").put "additionalProperties" value.json

def inOrder (names : List String) : List String := (Dict.ofList (names.map fun n => (n, ()))).keys

def record (properties : List (String × Schema)) (demanded : List String) : Schema :=
  let ps := Dict.ofList (properties.map fun p => (p.1, p.2.json))
  let s := if ps.isEmpty then ofType "object"
    else (ofType "object").put "properties" (.object ps.toList)
  if demanded.isEmpty then s
  else s.put "required" (.array ((inOrder demanded).map .string))

def described (s : Schema) (text : String) : Schema :=
  if text.isEmpty then s else s.put "description" (.string text)

def nullable (s : Schema) : Schema := s.put "nullable" (.bool true)

def withDefault (s : Schema) (value : Option Json) : Schema :=
  match value with
  | some j => s.put "default" j
  | none => s

end Schema

end SpinFleet
