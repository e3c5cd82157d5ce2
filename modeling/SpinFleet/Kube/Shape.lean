import SpinFleet.Codec.Record
/-!
# Shapes of what is carried along

Most of a cluster object is not the operator's business: it is read, put into the form in which
the cluster writes it, and passed on.  A `Shape` does that without a type: it drops members that
no field claims, fills in the zero of plain fields, leaves out empty optional ones, and refuses
what has another type.  Fields that the operator does look at have records of their own, which
keep the others in a dictionary of carried members.
-/
namespace SpinFleet

/-- How a value that is only carried along is checked and brought into its written form. -/
structure Shape where
  /-- What absence and `null` stand for in a plain field. -/
  zero : Json
  normalise : Json → Decoded Json
  schema : Schema := .anything

namespace Shape

def ofCodec {α : Type} (zero : Json) (c : Codec α) : Shape :=
  ⟨zero, fun j => c.encode <$> c.decode j, c.schema⟩

def codec (s : Shape) : Codec Json := ⟨s.normalise, id, s.schema⟩

def text : Shape := ofCodec (.string "") Codec.string
def boolean : Shape := ofCodec (.bool false) Codec.boolean
def int32 : Shape := ofCodec (.int 0) Codec.int32
def int64 : Shape := ofCodec (.int 0) Codec.int64
/-- An amount such as `500m`; the text is kept. -/
def quantity : Shape := text
def time : Shape := ofCodec (.string "1970-01-01T00:00:00Z") (Codec.time Instant.textSeconds)
def bytes : Shape := ofCodec (.string "") Codec.bytes
def anything : Shape := ⟨.null, .ok, .anything⟩

def list (item : Shape) : Shape := ofCodec (.array []) (Codec.list item.codec)

def dict (item : Shape) : Shape := ofCodec (.object []) (Codec.dict item.codec)

def texts : Shape := list text
def textDict : Shape := dict text
def quantities : Shape := dict quantity

structure Part where
  name : String
  /-- Whether it is written even when it is absent. -/
  plain : Bool
  shape : Shape

def takeMember (parts : List Part) (i : Nat) (acc : Dict String Json) (m : String × Json) :
    Decoded (Dict String Json) :=
  match parts.find? (fun p => p.name == m.1), m.2 with
  | none, _ => .ok acc
  | some p, .null => .ok (if p.plain then acc.insert p.name p.shape.zero else acc.erase p.name)
  | some p, j => do
    let v ← (p.shape.normalise j).under i
    return acc.insert p.name v

def takeMembers (parts : List Part) : Nat → Dict String Json → List (String × Json) →
    Decoded (Dict String Json)
  | _, acc, [] => .ok acc
  | i, acc, m :: ms => do
    let acc ← takeMember parts i acc m
    takeMembers parts (i + 1) acc ms

def zeros (parts : List Part) : Dict String Json :=
  Dict.ofList ((parts.filter Part.plain).map fun p => (p.name, p.shape.zero))

/-- Records with plain and optional parts.  Writers may do without some of the plain ones. -/
def record (what : String) (plain optional : List (String × Shape)) (free : List String := []) :
    Shape :=
  let parts := plain.map (fun p => ⟨p.1, true, p.2⟩) ++ optional.map (fun p => ⟨p.1, false, p.2⟩)
  ⟨.object (zeros parts).toList, fun
    | .object ms => do
      let d ← takeMembers parts 0 (zeros parts) ms
      return .object d.toList
    | .array _ => .error ⟨.wrongType .sequence what, .opened, []⟩
    | j => .wrongType what j,
    .record (parts.map fun p => (p.name, p.shape.schema))
      ((plain.map Prod.fst).filter (!free.contains ·))⟩

end Shape

abbrev Carried := Dict String Json

def Field.carried {σ : Type} (name : String) (shape : Shape) (get : σ → Carried)
    (set : Carried → σ → σ) : Field σ where
  name := name
  presence := .defaulted
  read
    | .null => .ok fun x => set ((get x).erase name) x
    | j => do
      let v ← shape.normalise j
      return fun x => set ((get x).insert name v) x
  write x := (get x).get? name
  schema := shape.schema

def Field.carriedAll {σ : Type} (get : σ → Carried) (set : Carried → σ → σ)
    (parts : List (String × Shape)) : List (Field σ) :=
  parts.map fun p => Field.carried p.1 p.2 get set

def Field.fixed {σ : Type} (name text : String) : Field σ where
  name := name
  presence := .defaulted
  read j := do
    let s ← Codec.string.decode j
    if s = text then return id
    else throw ⟨.wrongValue (.string s) text, .member, []⟩
  write _ := some (.string text)

inductive IntOrString
  | int (n : Int)
  | string (s : String)
deriving DecidableEq, Repr

def IntOrString.codec : Codec IntOrString where
  decode
    | .number (.integer n) =>
      if -2147483648 ≤ n ∧ n ≤ 2147483647 then .ok (.int n)
      else .refuse (.wrongValue (.number (.integer n)) "a 32-bit integer")
    | .string s => .ok (.string s)
    | j => .wrongType "IntOrString" j
  encode
    | .int n => .int n
    | .string s => .string s

def Shape.intOrString : Shape := ofCodec (.int 0) IntOrString.codec

end SpinFleet
