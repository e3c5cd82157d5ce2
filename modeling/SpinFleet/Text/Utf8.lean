/-!
# UTF-8

A `Secret` holds bytes, a configuration text holds characters.  Reading bytes as text must not
fail: every maximal piece that is no part of a well-formed sequence is read as one replacement
character.
-/
namespace SpinFleet.Utf8

def encode (s : String) : List UInt8 := s.toUTF8.toList

def replacement : Char := Char.ofNat 0xFFFD

/-- What may follow a lead byte: how many continuation bytes there are, and the range of the
first of them.  The narrower ranges keep out overlong forms, surrogates and code points beyond
the last one. -/
def lead? (b : UInt8) : Option (Nat × UInt8 × UInt8) :=
  if 0xC2 ≤ b ∧ b ≤ 0xDF then some (1, 0x80, 0xBF)
  else if b = 0xE0 then some (2, 0xA0, 0xBF)
  else if b = 0xED then some (2, 0x80, 0x9F)
  else if 0xE1 ≤ b ∧ b ≤ 0xEF then some (2, 0x80, 0xBF)
  else if b = 0xF0 then some (3, 0x90, 0xBF)
  else if 0xF1 ≤ b ∧ b ≤ 0xF3 then some (3, 0x80, 0xBF)
  else if b = 0xF4 then some (3, 0x80, 0x8F)
  else none

def leadBits (count : Nat) (b : UInt8) : Nat :=
  match count with
  | 1 => b.toNat % 32
  | 2 => b.toNat % 16
  | _ => b.toNat % 8

/-- A sequence under way: how many continuation bytes are still due, the range of the next one,
and the bits so far. -/
structure Pending where
  due : Nat
  low : UInt8
  high : UInt8
  bits : Nat

def start (b : UInt8) : Option Pending × List Char :=
  if b < 0x80 then (none, [Char.ofNat b.toNat])
  else match lead? b with
    | some (count, low, high) => (some ⟨count, low, high, leadBits count b⟩, [])
    | none => (none, [replacement])

/-- Reads the bytes that follow, each byte producing the characters that it completes. -/
def decodeFrom : Option Pending → List UInt8 → List Char
  | none, [] => []
  | some _, [] => [replacement]
  | none, b :: bs => let (p, cs) := start b; cs ++ decodeFrom p bs
  | some p, b :: bs =>
    if p.low ≤ b ∧ b ≤ p.high then
      let bits := p.bits * 64 + b.toNat % 64
      if p.due ≤ 1 then Char.ofNat bits :: decodeFrom none bs
      else decodeFrom (some ⟨p.due - 1, 0x80, 0xBF, bits⟩) bs
    else let (q, cs) := start b; replacement :: (cs ++ decodeFrom q bs)

def decodeLossy (bytes : List UInt8) : String := String.ofList (decodeFrom none bytes)

def decode? (bytes : List UInt8) : Option String := String.fromUTF8? ⟨bytes.toArray⟩

end SpinFleet.Utf8
