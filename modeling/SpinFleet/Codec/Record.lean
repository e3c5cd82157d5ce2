import SpinFleet.Codec.Value
/-!
# Codecs of records

A record is read member by member in the order of the object, into a value that starts with the
defaults; the first member that does not decode is reported.  Required members that never came
are reported afterwards, in the order of the record's own fields.  Members that no field claims
are skipped.

There are two dialects.  The operator's own types are *strict*: a member may come once only, and
an array is read by position.  The cluster's types are *lenient*: the last of a repeated member
wins, `null` and absence of a plain field read as its zero, and an array is refused.
-/
namespace SpinFleet

inductive Presence
  | required
  /-- It has a default. -/
  | defaulted
  /-- It has a default in an object, but an array must reach it. -/
  | named
deriving DecidableEq, Repr

structure Field (σ : Type) where
  name : String
  presence : Presence
  /-- Reads the member's value into the record. -/
  read : Json → Decoded (σ → σ)
  /-- The member's value, nothing if the member is left out. -/
  write : σ → Option Json
  /-- What its values look like. -/
  schema : Schema := .anything
  /-- Whether it may be `null` in a strict record. -/
  isNullable : Bool := false
  /-- Whether writers of the record have to give it. -/
  isDemanded : Bool := false
  /-- Whether writers are told its default. -/
  showsDefault : Bool := false

namespace Field

variable {σ α : Type}

def required (name : String) (codec : Codec α) (get : σ → α) (set : α → σ → σ) : Field σ where
  name := name
  presence := .required
  read j := set <$> codec.decode j
  write x := some (codec.encode (get x))
  schema := codec.schema
  isDemanded := true

def defaulted (name : String) (codec : Codec α) (get : σ → α) (set : α → σ → σ) : Field σ where
  name := name
  presence := .defaulted
  read j := set <$> codec.decode j
  write x := some (codec.encode (get x))
  schema := codec.schema
  showsDefault := true

def unlessEmpty (name : String) (codec : Codec α) (isEmpty : α → Bool) (get : σ → α)
    (set : α → σ → σ) : Field σ where
  name := name
  presence := .defaulted
  read j := set <$> codec.decode j
  write x := if isEmpty (get x) then none else some (codec.encode (get x))
  schema := codec.schema

/-- A field that may have no value; `null` reads as none. -/
def optional (name : String) (codec : Codec α) (get : σ → Option α)
    (set : Option α → σ → σ) : Field σ where
  name := name
  presence := .defaulted
  read j := set <$> codec.nullable.decode j
  write x := (get x).map codec.encode
  schema := codec.schema
  isNullable := true

/-- A field of a lenient record: always written, `null` and absence being its zero. -/
def plain (name : String) (codec : Codec α) (zero : α) (get : σ → α) (set : α → σ → σ) :
    Field σ where
  name := name
  presence := .defaulted
  read j := set <$> (codec.orZero zero).decode j
  write x := some (codec.encode (get x))
  schema := codec.schema
  isDemanded := true

def doc (text : String) (f : Field σ) : Field σ := { f with schema := f.schema.described text }

def free (f : Field σ) : Field σ := { f with isDemanded := false }

end Field

structure Record (σ : Type) where
  name : String
  fields : List (Field σ)
  /-- The record before any member was read. -/
  start : σ
  doc : String := ""

namespace Record

variable {σ : Type}

def field? (r : Record σ) (k : String) : Option (Field σ) := r.fields.find? (fun f => f.name == k)

/-- Writes a record as an object, its fields in the order of the shape. -/
def encode (r : Record σ) (x : σ) : Json :=
  .object (r.fields.filterMap fun f => (f.write x).map fun j => (f.name, j))

/-- Reads members into a record, refusing one that came before.  What becomes of a member that no
field claims is up to `other`. -/
def readMembersWith (r : Record σ) (other : String → Json → Decoded (σ → σ)) :
    Nat → List String → σ → List (String × Json) → Decoded (List String × σ)
  | _, seen, x, [] => .ok (seen, x)
  | i, seen, x, (k, j) :: ms =>
    match r.field? k with
    | none =>
      match (other k j).under i with
      | .error e => .error e
      | .ok update => readMembersWith r other (i + 1) seen (update x) ms
    | some f =>
      if seen.contains k then .error ⟨.duplicateField k, .name, [i]⟩
      else
        match (f.read j).under i with
        | .error e => .error e
        | .ok update => readMembersWith r other (i + 1) (k :: seen) (update x) ms

def skip (_ : String) (_ : Json) : Decoded (σ → σ) := .ok id

def missing? (r : Record σ) (seen : List String) : Option String :=
  (r.fields.find? fun f => f.presence == .required && !seen.contains f.name).map Field.name

def shape (r : Record σ) : String :=
  let n := r.fields.length
  "struct " ++ r.name ++ " with " ++ toString n ++ (if n = 1 then " element" else " elements")

def readItems (r : Record σ) (length : Nat) : Nat → σ → List (Field σ) → List Json → Decoded σ
  | _, x, [], [] => .ok x
  | _, _, [], _ :: _ => .refuse (.wrongLength length "fewer elements in array")
  | i, x, f :: fs, [] =>
    if f.presence = .defaulted then readItems r length (i + 1) x fs []
    else .refuse (.wrongLength i r.shape)
  | i, x, f :: fs, j :: js =>
    match (f.read j).under i with
    | .error e => .error e
    | .ok update => readItems r length (i + 1) (update x) fs js

def readObject (r : Record σ) (other : String → Json → Decoded (σ → σ))
    (ms : List (String × Json)) : Decoded σ := do
  let (seen, x) ← r.readMembersWith other 0 [] r.start ms
  match r.missing? seen with
  | some k => .refuse (.missingField k)
  | none => return x

def decodeStrict (r : Record σ) : Json → Decoded σ
  | .object ms => r.readObject skip ms
  | .array js => r.readItems js.length 0 r.start r.fields js
  | j => .wrongType ("struct " ++ r.name) j

def property (r : Record σ) (isStrict : Bool) (f : Field σ) : String × Schema :=
  let s := if isStrict && f.isNullable then f.schema.nullable else f.schema
  (f.name, if f.showsDefault then s.withDefault (f.write r.start) else s)

def schema (r : Record σ) (isStrict : Bool) : Schema :=
  (Schema.record (r.fields.map (r.property isStrict))
    ((r.fields.filter Field.isDemanded).map Field.name)).described r.doc

/-- Reads an open record, which is an object and has members of other names. -/
def decodeOpen (r : Record σ) (other : String → Json → Decoded (σ → σ)) : Json → Decoded σ
  | .object ms => r.readObject other ms
  | j => .wrongType ("struct " ++ r.name) j

def strict (r : Record σ) : Codec σ := ⟨r.decodeStrict, r.encode, r.schema true⟩

/-- Reads members into a record, the last of a repeated member winning. -/
def readMembersLenient (r : Record σ) : Nat → σ → List (String × Json) → Decoded σ
  | _, x, [] => .ok x
  | i, x, (k, j) :: ms =>
    match r.field? k with
    | none => readMembersLenient r (i + 1) x ms
    | some f =>
      match (f.read j).under i with
      | .error e => .error e
      | .ok update => readMembersLenient r (i + 1) (update x) ms

def decodeLenient (r : Record σ) : Json → Decoded σ
  | .object ms => r.readMembersLenient 0 r.start ms
  | .array _ => .error ⟨.wrongType .sequence r.name, .opened, []⟩
  | j => .wrongType r.name j

def lenient (r : Record σ) : Codec σ := ⟨r.decodeLenient, r.encode, r.schema false⟩

end Record

end SpinFleet
