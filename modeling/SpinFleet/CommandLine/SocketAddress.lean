/-!
# Socket addresses

An address to listen at: the number of a host, a colon, and a port.  The number of a host has four
bytes, or it stands in brackets and has eight groups of hexadecimal digits, of which one row of
zeros may be left out.
-/
namespace SpinFleet

inductive SocketAddress
  | v4 (bytes : List Nat) (port : Nat)
  | v6 (groups : List Nat) (scope : Nat) (port : Nat)
deriving DecidableEq, Repr

namespace SocketAddress

def digit? (radix : Nat) (c : Char) : Option Nat :=
  let n := c.toNat
  let v := if c.isDigit then n - 48 else if c.isLower then n - 87 else if c.isUpper then n - 55
    else 99
  if v < radix then some v else none

/-- A number at the beginning of a text, all of its digits being taken.  It has at most so many
digits, if any bound is given, and is not larger than a limit. -/
def number? (radix : Nat) (maxDigits : Option Nat) (zeroFirst : Bool) (limit : Nat)
    (cs : List Char) : Option (Nat × List Char) :=
  let digits := cs.takeWhile fun c => (digit? radix c).isSome
  let value := digits.foldl (fun n c => n * radix + (digit? radix c).getD 0) 0
  if digits.isEmpty || maxDigits.any (· < digits.length) || limit < value ||
      (!zeroFirst && 1 < digits.length && digits.head? == some '0') then none
  else some (value, cs.drop digits.length)

def behind? (c : Char) : List Char → Option (List Char)
  | d :: rest => if d = c then some rest else none
  | [] => none

def bytes? (cs : List Char) : Option (List Nat × List Char) := do
  let byte := number? 10 (some 3) false 255
  let (a, cs) ← byte cs
  let (b, cs) ← behind? '.' cs >>= byte
  let (c, cs) ← behind? '.' cs >>= byte
  let (d, cs) ← behind? '.' cs >>= byte
  return ([a, b, c, d], cs)

/-- As many groups as there are, at most a limit, with colons between them.  Four bytes stand for
the last two groups; tells also whether they do. -/
def groups (first : Bool) : Nat → List Char → List Nat × Bool × List Char
  | 0, cs => ([], false, cs)
  | limit + 1, cs =>
    let start := if first then some cs else behind? ':' cs
    match if limit = 0 then none else start >>= bytes? with
    | some ([a, b, c, d], rest) => ([a * 256 + b, c * 256 + d], true, rest)
    | _ =>
      match start >>= number? 16 (some 4) true 65535 with
      | some (g, rest) =>
        let (gs, bytes, rest) := groups false limit rest
        (g :: gs, bytes, rest)
      | none => ([], false, cs)

/-- Eight groups, a row of zeros perhaps being left out. -/
def host6? (cs : List Char) : Option (List Nat × List Char) :=
  let (front, bytes, rest) := groups true 8 cs
  if front.length = 8 then some (front, rest)
  else if bytes then none
  else do
    let rest ← behind? ':' rest >>= behind? ':'
    let (back, _, rest) := groups true (7 - front.length) rest
    return (front ++ List.replicate (8 - front.length - back.length) 0 ++ back, rest)

def port? (cs : List Char) : Option Nat := do
  let (port, rest) ← behind? ':' cs >>= number? 10 none true 65535
  if rest.isEmpty then return port else none

def parse? (text : String) : Option SocketAddress :=
  let cs := text.toList
  match bytes? cs >>= fun (bytes, rest) => (port? rest).map (v4 bytes) with
  | some a => some a
  | none => do
    let (gs, rest) ← behind? '[' cs >>= host6?
    let (scope, rest) ← match rest with
      | '%' :: rest => number? 10 none true 4294967295 rest
      | rest => some (0, rest)
    let port ← behind? ']' rest >>= port?
    return v6 gs scope port

end SocketAddress

end SpinFleet
