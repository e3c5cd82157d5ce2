import SpinFleet.Json.Basic
import SpinFleet.Text.Double
/-!
# Reading JSON texts

A text is read into a tree that remembers where each part stands.  Reading goes
on until the text stops making sense; what was read until then is kept, with a hole where it
stopped, because a value that is refused for its *type* before the hole is reached is reported
instead of the fault (`SpinFleet.Codec.Text`).
-/
namespace SpinFleet.Json.Reader

inductive Fault
  | endOfValue
  | endOfArray
  | endOfObject
  | endOfString
  | expectedColon
  | expectedArrayEnd
  | expectedObjectEnd
  | expectedWord
  | expectedValue
  | badEscape
  | badNumber
  | numberRange
  | badCodePoint
  | controlCharacter
  | keyNotString
  | loneSurrogate
  | trailingComma
  | trailingCharacters
  | endOfHexEscape
deriving DecidableEq, Repr

def Fault.message : Fault → String
  | .endOfValue => "EOF while parsing a value"
  | .endOfArray => "EOF while parsing a list"
  | .endOfObject => "EOF while parsing an object"
  | .endOfString => "EOF while parsing a string"
  | .expectedColon => "expected `:`"
  | .expectedArrayEnd => "expected `,` or `]`"
  | .expectedObjectEnd => "expected `,` or `\x7d`"
  | .expectedWord => "expected ident"
  | .expectedValue => "expected value"
  | .badEscape => "invalid escape"
  | .badNumber => "invalid number"
  | .numberRange => "number out of range"
  | .badCodePoint => "invalid unicode code point"
  | .controlCharacter => "control character (\\u0000-\\u001F) found while parsing a string"
  | .keyNotString => "key must be a string"
  | .loneSurrogate => "lone leading surrogate in hex escape"
  | .trailingComma => "trailing comma"
  | .trailingCharacters => "trailing characters"
  | .endOfHexEscape => "unexpected end of hex escape"

/-- A fault and the rest of the text at which it was noticed.  A fault that the next character
tells is placed at that character, any other behind what was read. -/
structure Stop where
  fault : Fault
  rest : List Char
  atNext : Bool

def stop {α : Type} (fault : Fault) (rest : List Char) : Except Stop α :=
  .error ⟨fault, rest, false⟩

def stopAt {α : Type} (fault : Fault) (rest : List Char) : Except Stop α :=
  .error ⟨fault, rest, true⟩

def skipBlanks : List Char → List Char
  | c :: cs => if c = ' ' ∨ c = '\n' ∨ c = '\t' ∨ c = '\r' then skipBlanks cs else c :: cs
  | [] => []

/-! ## Words and numbers -/

def word : List Char → List Char → Except Stop (List Char)
  | [], rest => .ok rest
  | _ :: _, [] => stop .endOfValue []
  | w :: ws, c :: rest => if c = w then word ws rest else stopAt .expectedWord (c :: rest)

def digitsValue (cs : List Char) : Nat := cs.foldl (fun n c => n * 10 + (c.toNat - 48)) 0

def digits (rest : List Char) : Except Stop (List Char × List Char) :=
  match rest.takeWhile Char.isDigit with
  | [] => stopAt (if rest.isEmpty then .endOfValue else .badNumber) rest
  | ds => .ok (ds, rest.drop ds.length)

def fraction : List Char → Except Stop (Option (List Char) × List Char)
  | '.' :: rest => do
    let (ds, rest) ← digits rest
    return (some ds, rest)
  | rest => .ok (none, rest)

def power : List Char → Except Stop (Option Int × List Char)
  | c :: rest => do
    if c ≠ 'e' ∧ c ≠ 'E' then return (none, c :: rest)
    let (negative, rest) := match rest with
      | '+' :: rest => (false, rest)
      | '-' :: rest => (true, rest)
      | rest => (false, rest)
    let (ds, rest) ← digits rest
    let n : Int := digitsValue ds
    return (some (if negative then -n else n), rest)
  | [] => .ok (none, [])

/-- The digits before the point: a zero, or digits that do not start with one. -/
def wholePart : List Char → Except Stop (List Char × List Char)
  | '0' :: rest =>
    match rest with
    | c :: _ => if c.isDigit then stopAt .badNumber rest else .ok (['0'], rest)
    | [] => .ok (['0'], [])
  | rest => digits rest

/-- A number, from its sign or first digit on.  A number too large for a double is refused. -/
def number (tooLarge : Number → Bool) (cs : List Char) : Except Stop (Number × List Char) := do
  let (negative, cs) := match cs with
    | '-' :: rest => (true, rest)
    | cs => (false, cs)
  let (whole, rest) ← wholePart cs
  let (fraction, rest) ← fraction rest
  let (power, rest) ← power rest
  let significand := digitsValue (whole ++ fraction.getD [])
  let integer : Int := if negative then -significand else significand
  let n : Number :=
    if fraction.isSome ∨ power.isSome then
      .decimal negative significand (power.getD 0 - (fraction.getD []).length)
    else if -9223372036854775808 ≤ integer ∧ integer ≤ 18446744073709551615 ∧
        ¬ (negative ∧ significand = 0) then .integer integer
    else .decimal negative significand 0
  if tooLarge n then stop .numberRange rest else return (n, rest)

/-! ## Strings -/

def hexValue? (c : Char) : Option Nat :=
  if c.isDigit then some (c.toNat - 48)
  else if 'a' ≤ c ∧ c ≤ 'f' then some (c.toNat - 87)
  else if 'A' ≤ c ∧ c ≤ 'F' then some (c.toNat - 55)
  else none

def hexEscape : List Char → Except Stop (Nat × List Char)
  | a :: b :: c :: d :: rest =>
    match hexValue? a, hexValue? b, hexValue? c, hexValue? d with
    | some a, some b, some c, some d => .ok (((a * 16 + b) * 16 + c) * 16 + d, rest)
    | _, _, _, _ => stop .badEscape rest
  | _ => stop .endOfString []

def expectEscape (c : Char) : List Char → Except Stop (List Char)
  | [] => stop .endOfString []
  | d :: rest => if d = c then .ok rest else stopAt .endOfHexEscape (d :: rest)

/-- The character of a `u` escape, which needs a second one for a character beyond the first
plane. -/
def unicodeEscape (rest : List Char) : Except Stop (Char × List Char) := do
  let (n, rest) ← hexEscape rest
  if 0xDC00 ≤ n ∧ n ≤ 0xDFFF then stop .loneSurrogate rest
  else if 0xD800 ≤ n ∧ n ≤ 0xDBFF then
    let rest ← expectEscape '\\' rest
    let rest ← expectEscape 'u' rest
    let (m, rest) ← hexEscape rest
    if 0xDC00 ≤ m ∧ m ≤ 0xDFFF then
      return (Char.ofNat (0x10000 + (n - 0xD800) * 0x400 + (m - 0xDC00)), rest)
    else stop .loneSurrogate rest
  else return (Char.ofNat n, rest)

def shortEscape? : Char → Option Char
  | '"' => some '"'
  | '\\' => some '\\'
  | '/' => some '/'
  | 'b' => some '\x08'
  | 'f' => some '\x0c'
  | 'n' => some '\n'
  | 'r' => some '\r'
  | 't' => some '\t'
  | _ => none

/-- The characters of a string up to its closing quote, in reverse before it.  The fuel is at least
the length of the text. -/
def stringChars : Nat → List Char → List Char → Except Stop (List Char × List Char)
  | 0, _, rest => stop .endOfString rest
  | _, _, [] => stop .endOfString []
  | fuel + 1, acc, c :: rest =>
    if c = '"' then .ok (acc.reverse, rest)
    else if c = '\\' then
      match rest with
      | [] => stop .endOfString []
      | 'u' :: rest => do
        let (c, rest) ← unicodeEscape rest
        stringChars fuel (c :: acc) rest
      | e :: rest =>
        match shortEscape? e with
        | some c => stringChars fuel (c :: acc) rest
        | none => stopAt .badEscape (e :: rest)
    else if c.toNat < 32 then stop .controlCharacter rest
    else stringChars fuel (c :: acc) rest

def stringBody (fuel : Nat) (rest : List Char) : Except Stop (String × List Char) := do
  let (cs, rest) ← stringChars fuel [] rest
  return (String.ofList cs, rest)

/-! ## The tree -/

inductive Part
  | scalar (value : Json) (start stop : List Char)
  | array (items : List Part) (start stop : List Char)
  /-- The members, each with its name and the text behind the name. -/
  | object (members : List (String × List Char × Part)) (start stop : List Char)
  /-- Where the text stopped making sense. -/
  | hole
deriving Inhabited

mutual

/-- The value of a part; a hole counts as `null`. -/
def Part.value : Part → Json
  | .scalar v _ _ => v
  | .array ps _ _ => .array (itemValues ps)
  | .object ms _ _ => .object (memberValues ms)
  | .hole => .null

def itemValues : List Part → List Json
  | [] => []
  | p :: ps => p.value :: itemValues ps

def memberValues : List (String × List Char × Part) → List (String × Json)
  | [] => []
  | (k, _, p) :: ms => (k, p.value) :: memberValues ms

end

/-- What was read from a place of the text on: a result that may have a hole, the stop if it has
one, and the rest. -/
structure Partial (α : Type) where
  result : α
  stop : Option Stop
  rest : List Char

def Partial.broken {α : Type} (result : α) (stop : Stop) : Partial α :=
  ⟨result, some stop, stop.rest⟩

def scalar {α : Type} (start : List Char) (f : α → Json) :
    Except Stop (α × List Char) → Partial Part
  | .ok (a, rest) => ⟨.scalar (f a) start rest, none, rest⟩
  | .error stop => .broken .hole stop

def wordScalar (start : List Char) (value : Json) (letters : List Char) (rest : List Char) :
    Partial Part :=
  scalar start (fun () => value) ((word letters rest).map fun rest => ((), rest))

def brokenItems (fault : Fault) (rest : List Char) : Partial (List Part) :=
  .broken [.hole] ⟨fault, rest, true⟩

def brokenMembers (name : String) (behind : List Char) (stop : Stop) :
    Partial (List (String × List Char × Part)) :=
  .broken [(name, behind, .hole)] stop

mutual

/-- Reads a value.  A value, an item and a member take one unit of fuel each and at least one
character, so three units for each character and three more are enough for all that is read inside
one another and one after the other, and leave enough for every string. -/
def readValue (tooLarge : Number → Bool) : Nat → List Char → Partial Part
  | 0, rest => .broken .hole ⟨.endOfValue, rest, true⟩
  | fuel + 1, text =>
    let start := skipBlanks text
    match start with
    | [] => .broken .hole ⟨.endOfValue, [], true⟩
    | c :: rest =>
      match c with
      | 'n' => wordScalar start .null ['u', 'l', 'l'] rest
      | 't' => wordScalar start (.bool true) ['r', 'u', 'e'] rest
      | 'f' => wordScalar start (.bool false) ['a', 'l', 's', 'e'] rest
      | '"' => scalar start .string (stringBody fuel rest)
      | '[' =>
        let p := readItems tooLarge fuel true rest
        ⟨.array p.result start p.rest, p.stop, p.rest⟩
      | '\x7b' =>
        let p := readMembers tooLarge fuel true rest
        ⟨.object p.result start p.rest, p.stop, p.rest⟩
      | c =>
        if c.isDigit ∨ c = '-' then scalar start .number (number tooLarge start)
        else .broken .hole ⟨.expectedValue, start, true⟩

def readItems (tooLarge : Number → Bool) : Nat → Bool → List Char → Partial (List Part)
  | 0, _, rest => brokenItems .endOfArray rest
  | fuel + 1, first, text =>
    match skipBlanks text with
    | [] => brokenItems .endOfArray []
    | ']' :: rest => ⟨[], none, rest⟩
    | c :: rest =>
      if first then readItem tooLarge fuel (c :: rest)
      else if c = ',' then
        match skipBlanks rest with
        | [] => brokenItems .endOfValue []
        | ']' :: rest => brokenItems .trailingComma (']' :: rest)
        | rest => readItem tooLarge fuel rest
      else brokenItems .expectedArrayEnd (c :: rest)

def readItem (tooLarge : Number → Bool) : Nat → List Char → Partial (List Part)
  | 0, rest => brokenItems .endOfArray rest
  | fuel + 1, text =>
    let p := readValue tooLarge fuel text
    if p.stop.isSome then ⟨[p.result], p.stop, p.rest⟩
    else
      let q := readItems tooLarge fuel false p.rest
      ⟨p.result :: q.result, q.stop, q.rest⟩

def readMembers (tooLarge : Number → Bool) :
    Nat → Bool → List Char → Partial (List (String × List Char × Part))
  | 0, _, rest => brokenMembers "" [] ⟨.endOfObject, rest, true⟩
  | fuel + 1, first, text =>
    match skipBlanks text with
    | [] => brokenMembers "" [] ⟨.endOfObject, [], true⟩
    | '\x7d' :: rest => ⟨[], none, rest⟩
    | c :: rest =>
      if first then
        if c = '"' then readMember tooLarge fuel rest
        else brokenMembers "" [] ⟨.keyNotString, c :: rest, true⟩
      else if c = ',' then
        match skipBlanks rest with
        | [] => brokenMembers "" [] ⟨.endOfValue, [], true⟩
        | '"' :: rest => readMember tooLarge fuel rest
        | '\x7d' :: rest => brokenMembers "" [] ⟨.trailingComma, '\x7d' :: rest, true⟩
        | rest => brokenMembers "" [] ⟨.keyNotString, rest, true⟩
      else brokenMembers "" [] ⟨.expectedObjectEnd, c :: rest, true⟩

def readMember (tooLarge : Number → Bool) :
    Nat → List Char → Partial (List (String × List Char × Part))
  | 0, rest => brokenMembers "" [] ⟨.endOfObject, rest, true⟩
  | fuel + 1, text =>
    match stringBody fuel text with
    | .error stop => brokenMembers "" [] stop
    | .ok (k, behind) =>
      match skipBlanks behind with
      | [] => brokenMembers k behind ⟨.endOfObject, [], true⟩
      | ':' :: rest =>
        let p := readValue tooLarge fuel rest
        if p.stop.isSome then ⟨[(k, behind, p.result)], p.stop, p.rest⟩
        else
          let q := readMembers tooLarge fuel false p.rest
          ⟨(k, behind, p.result) :: q.result, q.stop, q.rest⟩
      | rest => brokenMembers k behind ⟨.expectedColon, rest, true⟩

end

def isTooLarge : Number → Bool
  | .integer _ => false
  | .decimal negative s e => (Double.nearest? negative s e).isNone

/-- Reads a text as one value; what follows the value must be blank. -/
def read (text : List Char) : Partial Part :=
  let p := readValue isTooLarge (3 * text.length + 3) text
  if p.stop.isSome then p
  else
    match skipBlanks p.rest with
    | [] => p
    | rest => { p with stop := some ⟨.trailingCharacters, rest, true⟩ }

end SpinFleet.Json.Reader

namespace SpinFleet

def Json.parse? (text : String) : Option Json :=
  let p := Json.Reader.read text.toList
  if p.stop.isSome then none else some p.result.value

end SpinFleet
