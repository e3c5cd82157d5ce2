import SpinFleet.Codec.Failure
import SpinFleet.Codec.Schema
import SpinFleet.Text.Utf8
/-!
# Codecs of single values

A `Codec` reads a type from JSON and writes it back.  The two directions stand together so that a
record needs one table for both (`SpinFleet.Codec.Record`).
-/
namespace SpinFleet

structure Codec (α : Type) where
  decode : Json → Decoded α
  encode : α → Json
  /-- What the values look like. -/
  schema : Schema := .anything

namespace Codec

def string : Codec String where
  decode
    | .string s => .ok s
    | j => .wrongType "a string" j
  encode := .string
  schema := .string

def boolean : Codec Bool where
  decode
    | .bool b => .ok b
    | j => .wrongType "a boolean" j
  encode := .bool
  schema := .boolean

def integer (low high : Int) (what : String) : Codec Int where
  decode
    | .number (.integer n) =>
      if low ≤ n ∧ n ≤ high then .ok n
      else .refuse (.wrongValue (.number (.integer n)) what)
    | j => .wrongType what j
  encode := .int

def int32 : Codec Int :=
  { integer (-2147483648) 2147483647 "i32" with schema := .integer "int32" }

def int64 : Codec Int :=
  { integer (-9223372036854775808) 9223372036854775807 "i64" with schema := .integer "int64" }

def nat16 : Codec Int := integer 0 65535 "u16"

def decodeItems {α : Type} (item : Json → Decoded α) : Nat → List Json → Decoded (List α)
  | _, [] => .ok []
  | i, x :: xs => do
    let a ← (item x).under i
    let as ← decodeItems item (i + 1) xs
    return a :: as

def list {α : Type} (item : Codec α) : Codec (List α) where
  decode
    | .array xs => decodeItems item.decode 0 xs
    | j => .wrongType "a sequence" j
  encode as := .array (as.map item.encode)
  schema := .list item.schema

/-- Decodes the members of an object into a dictionary, the last of a repeated name winning. -/
def decodeEntries {α : Type} (item : Json → Decoded α) :
    Nat → List (String × Json) → Decoded (List (String × α))
  | _, [] => .ok []
  | i, (k, x) :: ms => do
    let a ← (item x).under i
    let entries ← decodeEntries item (i + 1) ms
    return (k, a) :: entries

def dict {α : Type} (item : Codec α) : Codec (Dict String α) where
  decode
    | .object ms => Dict.ofList <$> decodeEntries item.decode 0 ms
    | j => .wrongType "a map" j
  encode := Json.ofDict item.encode
  schema := .dict item.schema

/-- One of some words.  It may also be the only member of an object, with nothing behind it. -/
def word (words : List String) : Codec String where
  decode
    | .string s => known s
    | .object [(k, j)] => do
      let s ← known k
      match j with
      | .null => return s
      | j => (Decoded.wrongType "unit" j).under 0
    | .object ms =>
      .error ⟨.wrongValue .map "map with a single key", if ms.isEmpty then .whole else .opened, []⟩
    | j => .wrongType "string or map" j
  encode := .string
  schema := .word words
where
  known (s : String) : Decoded String :=
    if words.contains s then .ok s else .refuse (.unknownVariant s words)

def nullable {α : Type} (item : Codec α) : Codec (Option α) where
  decode
    | .null => .ok none
    | j => some <$> item.decode j
  encode
    | none => .null
    | some a => item.encode a
  schema := item.schema.nullable

def orZero {α : Type} (zero : α) (item : Codec α) : Codec α where
  decode
    | .null => .ok zero
    | j => item.decode j
  encode := item.encode
  schema := item.schema

def time (format : Instant → String) : Codec Instant where
  decode
    | .string s =>
      match Instant.parse s with
      | .ok t => .ok t
      | .error f => .refuse (.badTime f)
    | j => .wrongType "an RFC 3339 formatted date and time string" j
  encode t := .string (format t)
  schema := .formatted "date-time"

def bytes : Codec (List UInt8) where
  decode
    | .null => .ok []
    | .string s =>
      match Base64.decode s with
      | .ok bs => .ok bs
      | .error f => .refuse (.badBase64 f)
    | j => .wrongType "ByteString" j
  encode bs := .string (Base64.encode bs)
  schema := .formatted "byte"

def json : Codec Json where
  decode := .ok
  encode := id

/-! ## Kept values

A value that is kept as it stands may nest arrays and objects only so deep. -/

mutual

/-- The path to the first array or object that is nested too deep, if only so many levels may be
nested in one another. -/
def tooDeep? : Nat → Json → Option (List Nat)
  | 0, .array _ | 0, .object _ => some []
  | levels + 1, .array xs => tooDeepItem? levels 0 xs
  | levels + 1, .object ms => tooDeepMember? levels 0 ms
  | _, _ => none

def tooDeepItem? : Nat → Nat → List Json → Option (List Nat)
  | _, _, [] => none
  | levels, i, x :: xs =>
    match tooDeep? levels x with
    | some path => some (i :: path)
    | none => tooDeepItem? levels (i + 1) xs

def tooDeepMember? : Nat → Nat → List (String × Json) → Option (List Nat)
  | _, _, [] => none
  | levels, i, (_, x) :: ms =>
    match tooDeep? levels x with
    | some path => some (i :: path)
    | none => tooDeepMember? levels (i + 1) ms

end

def maxLevels : Nat := 127

def kept (levels : Nat) : Codec Json where
  decode j :=
    match tooDeep? levels j with
    | some path => .error ⟨.tooDeep, .unread, path⟩
    | none => .ok j
  encode := id

end Codec

end SpinFleet
