/-!
# Adler-32

The checksum that names a rendered configuration.  Two sums modulo the largest prime below
`2 ^ 16`: the low half adds the bytes, the high half adds the low halves.
-/
namespace SpinFleet.Checksum

def modulus : Nat := 65521

structure Sums where
  low : Nat
  high : Nat
deriving DecidableEq, Repr

def start : Sums := ⟨1, 0⟩

def step (s : Sums) (b : UInt8) : Sums :=
  let low := (s.low + b.toNat) % modulus
  ⟨low, (s.high + low) % modulus⟩

def adler32 (bytes : List UInt8) : Nat :=
  let s := bytes.foldl step start
  s.high * 65536 + s.low

def hexDigit (n : Nat) : Char := if n < 10 then Char.ofNat (48 + n) else Char.ofNat (87 + n)

/-- A number as a fixed count of lower-case hexadecimal digits, the highest first. -/
def hex : Nat → Nat → List Char
  | 0, _ => []
  | width + 1, n => hexDigit (n / Nat.pow 16 width % 16) :: hex width n

def digits (text : String) : String := String.ofList (hex 8 (adler32 text.toUTF8.toList))

end SpinFleet.Checksum
