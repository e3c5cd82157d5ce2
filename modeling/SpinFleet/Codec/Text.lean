import SpinFleet.Codec.Record
import SpinFleet.Json.Reader
/-!
# Decoding texts

A text is decoded as if it were read once from left to right: whatever is wrong first is reported,
be it that the text stops making sense or that a value has the wrong type.  A missing member is
noticed at the end of its object.  The report names the line and the column, counted in bytes.
That a text is nested too deep is a fault of the text, noticed at the bracket that goes too far.
-/
namespace SpinFleet

open Json.Reader (Part Stop)

structure TextError where
  message : String
  line : Nat
  column : Nat
  /-- Whether the text is in order and only its meaning is not. -/
  isData : Bool
deriving DecidableEq, Repr

def TextError.text (e : TextError) : String :=
  e.message ++ " at line " ++ toString e.line ++ " column " ++ toString e.column

namespace Json.Reader

def Part.child? : Part → Nat → Option Part
  | .array ps _ _, i => ps[i]?
  | .object ms _ _, i => ms[i]?.map fun m => m.2.2
  | _, _ => none

def Part.follow? : List Nat → Part → Option Part
  | [], p => some p
  | i :: path, p => p.child? i >>= Part.follow? path

def Part.start : Part → List Char
  | .scalar _ s _ | .array _ s _ | .object _ s _ => s
  | .hole => []

def Part.stop : Part → List Char
  | .scalar _ _ s | .array _ _ s | .object _ _ s => s
  | .hole => []

def Part.behindName : Part → Nat → List Char
  | .object ms _ _, i => (ms[i]?.map fun m => m.2.1).getD []
  | _, _ => []

mutual

/-- The path to the hole; a hole is always in the last item or member. -/
def Part.hole? : Part → Option (List Nat)
  | .hole => some []
  | .scalar .. => none
  | .array ps _ _ => itemHole? 0 ps
  | .object ms _ _ => memberHole? 0 ms

def itemHole? : Nat → List Part → Option (List Nat)
  | _, [] => none
  | i, p :: ps =>
    match p.hole? with
    | some path => some (i :: path)
    | none => itemHole? (i + 1) ps

def memberHole? : Nat → List (String × List Char × Part) → Option (List Nat)
  | _, [] => none
  | i, (_, _, p) :: ms =>
    match p.hole? with
    | some path => some (i :: path)
    | none => memberHole? (i + 1) ms

end

end Json.Reader

namespace Failure

/-- Whether a failure is noticed before a reader gets to the hole at a path. -/
def precedes (f : Failure) (hole : List Nat) : Bool :=
  go f.path hole
where
  go : List Nat → List Nat → Bool
    | [], [] => f.progress == .name
    | [], _ :: _ => f.progress == .unread || f.progress == .opened || f.progress == .name
    | _ :: _, [] => false
    | i :: is, j :: js => if i = j then go is js else i < j

def rest (f : Failure) (whole : Part) : List Char :=
  let part := (whole.follow? f.path).getD .hole
  let pastEnd (c : Char) (cs : List Char) : List Char :=
    match Json.Reader.skipBlanks cs with
    | d :: ds => if d = c then ds else d :: ds
    | [] => []
  match f.progress with
  | .unread => part.start
  | .whole => part.stop
  | .opened => pastEnd ']' (part.start.drop 1)
  | .member => pastEnd '\x7d' part.stop
  | .name =>
    let owner := (whole.follow? f.path.dropLast).getD .hole
    Json.Reader.skipBlanks (owner.behindName (f.path.getLast?.getD 0))

end Failure

/-- Counts lines from one, and the bytes of the last line. -/
def placeAfter (read : List Char) : Nat × Nat :=
  read.foldl
    (fun (line, column) c => if c = '\n' then (line + 1, 0) else (line, column + c.utf8Size))
    (1, 0)

/-- The place of a stop in a text: behind what was read, or one byte further. -/
def placeOf (text rest : List Char) (atNext : Bool) : Nat × Nat :=
  let (line, column) := placeAfter (text.take (text.length - rest.length))
  match atNext, rest with
  | true, '\n' :: _ => (line + 1, 0)
  | true, _ :: _ => (line, column + 1)
  | _, _ => (line, column)

def Codec.decodeText {α : Type} (c : Codec α) (text : String) : Except TextError α :=
  let cs := text.toList
  let p := Json.Reader.read cs
  let refused (f : Failure) : Except TextError α :=
    let isData := f.refusal != .tooDeep
    let (line, column) := placeOf cs (f.rest p.result) !isData
    .error ⟨f.message, line, column, isData⟩
  let malformed (s : Stop) : Except TextError α :=
    let (line, column) := placeOf cs s.rest s.atNext
    .error ⟨s.fault.message, line, column, false⟩
  match p.stop, c.decode p.result.value with
  | none, .ok a => .ok a
  | none, .error f => refused f
  | some s, .ok _ => malformed s
  | some s, .error f =>
    match p.result.hole? with
    | some hole => if f.precedes hole then refused f else malformed s
    | none => refused f

end SpinFleet
