/-!
# Base64

The bytes of a `Secret` travel as padded Base64 with the standard alphabet.  Reading is strict:
the padding must be complete, and the bits that a padded group does not use must be zero, so a
byte string has exactly one written form.
-/
namespace SpinFleet.Base64

def symbol (n : Nat) : Char :=
  if n < 26 then Char.ofNat (65 + n)
  else if n < 52 then Char.ofNat (71 + n)
  else if n < 62 then Char.ofNat (n - 4)
  else if n = 62 then '+'
  else '/'

def value? (b : UInt8) : Option Nat :=
  if 65 ≤ b ∧ b ≤ 90 then some (b.toNat - 65)
  else if 97 ≤ b ∧ b ≤ 122 then some (b.toNat - 71)
  else if 48 ≤ b ∧ b ≤ 57 then some (b.toNat + 4)
  else if b = 43 then some 62
  else if b = 47 then some 63
  else none

def padding : UInt8 := 61

/-- The symbols of some bytes, three bytes to four symbols. -/
def encodeChars : List UInt8 → List Char
  | [] => []
  | [a] =>
    let n := a.toNat * 16
    [symbol (n / 64), symbol (n % 64), '=', '=']
  | [a, b] =>
    let n := (a.toNat * 256 + b.toNat) * 4
    [symbol (n / 4096), symbol (n / 64 % 64), symbol (n % 64), '=']
  | a :: b :: c :: rest =>
    let n := (a.toNat * 256 + b.toNat) * 256 + c.toNat
    symbol (n / 262144) :: symbol (n / 4096 % 64) :: symbol (n / 64 % 64) :: symbol (n % 64) ::
      encodeChars rest

def encode (bytes : List UInt8) : String := String.ofList (encodeChars bytes)

/-- Why a text is not the written form of any bytes.  Positions count bytes of the text. -/
inductive Fault
  /-- A byte that may not stand at its position. -/
  | symbol (byte : UInt8) (position : Nat)
  /-- The text ends after a single symbol of a group. -/
  | length (position : Nat)
  /-- The last symbol has bits that no byte takes. -/
  | lastSymbol (byte : UInt8) (position : Nat)
  /-- The padding is not complete. -/
  | padding
deriving DecidableEq, Repr

def Fault.message : Fault → String
  | .symbol b i => "Invalid symbol " ++ toString b.toNat ++ ", offset " ++ toString i ++ "."
  | .length n => "Invalid input length: " ++ toString n
  | .lastSymbol b i =>
    "Invalid last symbol " ++ toString b.toNat ++ ", offset " ++ toString i ++ "."
  | .padding => "Invalid padding"

/-- The symbols of the last group, read one after the other: their values, and how many padding
bytes came behind them, the first at `firstPad`. -/
structure Tail where
  values : List Nat
  last : UInt8
  pads : Nat
  firstPad : Nat

/-- Reads the bytes of the last group, `index` counting them and `base` being its position. -/
def readTail (base : Nat) : Nat → Tail → List UInt8 → Except Fault Tail
  | _, t, [] => .ok t
  | index, t, b :: rest =>
    if b = padding then
      if index < 2 then .error (.symbol b (base + index))
      else readTail base (index + 1)
        { t with pads := t.pads + 1, firstPad := if t.pads = 0 then index else t.firstPad } rest
    else if 0 < t.pads then .error (.symbol padding (base + t.firstPad))
    else match value? b with
      | none => .error (.symbol b (base + index))
      | some v => readTail base (index + 1) { t with values := t.values ++ [v], last := b } rest

def decodeTail (base : Nat) (group : List UInt8) : Except Fault (List UInt8) := do
  let t ← readTail base 0 ⟨[], 0, 0, 0⟩ group
  let n := t.values.length
  if group ≠ [] ∧ n < 2 then throw (.length (base + n))
  if (t.pads + n) % 4 ≠ 0 then throw .padding
  match t.values with
  | [a, b] =>
    if b % 16 ≠ 0 then throw (.lastSymbol t.last (base + 1))
    return [UInt8.ofNat ((a * 64 + b) / 16)]
  | [a, b, c] =>
    if c % 4 ≠ 0 then throw (.lastSymbol t.last (base + 2))
    let m := ((a * 64 + b) * 64 + c) / 4
    return [UInt8.ofNat (m / 256), UInt8.ofNat (m % 256)]
  | [a, b, c, d] =>
    let m := ((a * 64 + b) * 64 + c) * 64 + d
    return [UInt8.ofNat (m / 65536), UInt8.ofNat (m / 256 % 256), UInt8.ofNat (m % 256)]
  | _ => return []

def innerValue (position : Nat) (b : UInt8) : Except Fault Nat :=
  match value? b with
  | some v => .ok v
  | none => .error (.symbol b position)

/-- Reads whole groups of four symbols and leaves the last group, of one to four. -/
def decodeGroups (base : Nat) : List UInt8 → Except Fault (List UInt8)
  | a :: b :: c :: d :: e :: rest => do
    let va ← innerValue base a
    let vb ← innerValue (base + 1) b
    let vc ← innerValue (base + 2) c
    let vd ← innerValue (base + 3) d
    let m := ((va * 64 + vb) * 64 + vc) * 64 + vd
    let bytes ← decodeGroups (base + 4) (e :: rest)
    return UInt8.ofNat (m / 65536) :: UInt8.ofNat (m / 256 % 256) :: UInt8.ofNat (m % 256) :: bytes
  | group => decodeTail base group

/-- The bytes of a text.  A stray byte that ends a text of odd length is reported first. -/
def decode (text : String) : Except Fault (List UInt8) :=
  let bytes := text.toUTF8.toList
  let n := bytes.length
  match bytes.getLast? with
  | some b =>
    if n % 4 = 1 ∧ b ≠ padding ∧ (value? b).isNone then .error (.symbol b (n - 1))
    else decodeGroups 0 bytes
  | none => .ok []

end SpinFleet.Base64
