/-!
# Doubles as exact fractions, and their shortest text

A number that is not an integer is only ever shown again: inside an error text, or echoed as an
offending value.  What is shown is the shortest decimal that reads back as the same double.  Both
directions are integer arithmetic on exact fractions, so the whole module computes inside the
logic and needs no floating point at all.

`Double.nearest?` rounds a decimal fraction to the nearest double (ties to the even significand,
nothing beyond the largest finite one); `Double.shortest` finds the fewest digits whose decimal
lies among the numbers that round to it; `Double.Layout` decides how those digits are written.
-/
namespace SpinFleet

/-- A finite double: `± significand * 2 ^ exponent`. -/
structure Double where
  negative : Bool
  significand : Nat
  exponent : Int
deriving DecidableEq, Repr, Inhabited

namespace Double

def minExponent : Int := -1074

/-- The significand of a normal double has 53 binary digits, so this is the least one. -/
def leastNormal : Nat := 4503599627370496

def maxExponent : Int := 971

/-- `num / den` rounded to the nearest integer, a tie going to the even one. -/
def roundHalfEven (num den : Nat) : Nat :=
  let q := num / den
  let r := num % den
  if 2 * r < den then q
  else if den < 2 * r then q + 1
  else if q % 2 = 0 then q else q + 1

/-- The largest `l` with `2 ^ l ≤ num / den`, for a positive fraction. -/
def log2Floor (num den : Nat) : Int :=
  let l : Int := (num.log2 : Int) - (den.log2 : Int)
  if 0 ≤ l then
    if num < den * Nat.pow 2 l.toNat then l - 1 else l
  else
    if num * Nat.pow 2 (-l).toNat < den then l - 1 else l

/-- The double nearest to `num / den`, nothing if it would be infinite. -/
def ofFraction? (negative : Bool) (num den : Nat) : Option Double :=
  if num = 0 then some ⟨negative, 0, minExponent⟩
  else
    let e := max minExponent (log2Floor num den - 52)
    let s := if 0 ≤ e then roundHalfEven num (den * Nat.pow 2 e.toNat)
      else roundHalfEven (num * Nat.pow 2 (-e).toNat) den
    let (s, e) := if s = 2 * leastNormal then (leastNormal, e + 1) else (s, e)
    if maxExponent < e then none else some ⟨negative, s, e⟩

def digitCount (n : Nat) : Nat := if n = 0 then 0 else (Nat.toDigits 10 n).length

/-- The double nearest to `± significand * 10 ^ exponent`, nothing if it would be infinite.
Fractions that are far out of range are decided by their digit count. -/
def nearest? (negative : Bool) (significand : Nat) (exponent : Int) : Option Double :=
  let magnitude := exponent + digitCount significand
  if significand = 0 ∨ magnitude < -400 then some ⟨negative, 0, minExponent⟩
  else if 400 < magnitude then none
  else if 0 ≤ exponent then ofFraction? negative (significand * Nat.pow 10 exponent.toNat) 1
  else ofFraction? negative significand (Nat.pow 10 (-exponent).toNat)

/-! ## The shortest decimal -/

def scaled (a : Nat) (e : Int) : Nat × Nat :=
  if 0 ≤ e then (a * Nat.pow 2 e.toNat, 1) else (a, Nat.pow 2 (-e).toNat)

/-- The largest `l` with `10 ^ l ≤ num / den`, searched upwards from an estimate that is at most
two too small. -/
def log10Floor (num den : Nat) : Int :=
  let estimate : Int := (log2Floor num den * 30103) / 100000 - 1
  let atLeast (l : Int) : Bool :=
    if 0 ≤ l then den * Nat.pow 10 l.toNat ≤ num else den ≤ num * Nat.pow 10 (-l).toNat
  if atLeast (estimate + 2) then estimate + 2
  else if atLeast (estimate + 1) then estimate + 1
  else estimate

/-- The decimals `d * 10 ^ k` with the given number of digits next to a value, the nearer one
first, kept if they round to that value.  `low` and `high` bound those numbers; the bounds
themselves belong to them when `closed`. -/
def onGrid (low value high : Nat × Nat) (closed : Bool) (k : Int) : Option Nat :=
  let grid (d : Nat) : Nat × Nat :=
    if 0 ≤ k then (d * Nat.pow 10 k.toNat, 1) else (d, Nat.pow 10 (-k).toNat)
  let below := if 0 ≤ k then value.1 / (value.2 * Nat.pow 10 k.toNat)
    else value.1 * Nat.pow 10 (-k).toNat / value.2
  let inside (d : Nat) : Bool :=
    let g := grid d
    let l := compare (low.1 * g.2) (g.1 * low.2)
    let h := compare (g.1 * high.2) (high.1 * g.2)
    (l == .lt || (closed && l == .eq)) && (h == .lt || (closed && h == .eq))
  let distance (d : Nat) : Nat :=
    let g := grid d
    let a := value.1 * g.2
    let b := g.1 * value.2
    if a ≤ b then b - a else a - b
  match inside below && below != 0, inside (below + 1) with
  | true, false => some below
  | false, true => some (below + 1)
  | false, false => none
  | true, true =>
    match compare (distance below) (distance (below + 1)) with
    | .lt => some below
    | .gt => some (below + 1)
    | .eq => if below % 2 = 0 then some below else some (below + 1)

/-- Drops trailing zeros of a digit string, counting them into the exponent. -/
def stripZeros : Nat → Nat → Int → Nat × Int
  | 0, d, k => (d, k)
  | fuel + 1, d, k => if d ≠ 0 ∧ d % 10 = 0 then stripZeros fuel (d / 10) (k + 1) else (d, k)

/-- The fewest digits `d` and the exponent `k` such that `d * 10 ^ k` reads back as the double. -/
def shortest (x : Double) : Nat × Int :=
  if x.significand = 0 then (0, 0)
  else
    let value := scaled (4 * x.significand) (x.exponent - 2)
    let high := scaled (4 * x.significand + 2) (x.exponent - 2)
    let gap := if x.significand = leastNormal ∧ minExponent < x.exponent then 1 else 2
    let low := scaled (4 * x.significand - gap) (x.exponent - 2)
    let closed := x.significand % 2 = 0
    let top := log10Floor value.1 value.2
    let attempt (n : Nat) : Option (Nat × Int) :=
      let k := top - n
      (onGrid low value high closed k).map (fun d => stripZeros 18 d k)
    ((List.range 17).findSome? attempt).getD (0, 0)

/-! ## How the digits are written -/

structure Layout where
  /-- Positional down to this power of ten: the point may stand this far left of the digits. -/
  leastPoint : Int
  /-- Positional as long as the point stands at most this far right. -/
  greatestPoint : Int
  /-- The sign written before a non-negative exponent. -/
  plus : String

/-- Values between `10 ^ -5` and `10 ^ 16` are written out, with at least one digit after the
point; an exponent always carries its sign. -/
def layout : Layout := ⟨-5, 16, "+"⟩

def zeros (n : Nat) : String := String.ofList (List.replicate n '0')

def text (x : Double) : String :=
  let (d, k) := x.shortest
  let sign := if x.negative then "-" else ""
  if d = 0 then sign ++ "0.0"
  else
    let digits := (toString d).toList
    let n : Int := digits.length
    let point := n + k
    let l := layout
    sign ++
      if 0 ≤ k ∧ point ≤ l.greatestPoint then
        String.ofList digits ++ zeros k.toNat ++ ".0"
      else if 0 < point ∧ point ≤ l.greatestPoint then
        String.ofList (digits.take point.toNat) ++ "." ++ String.ofList (digits.drop point.toNat)
      else if l.leastPoint < point ∧ point ≤ 0 then
        "0." ++ zeros (-point).toNat ++ String.ofList digits
      else
        let mantissa := match digits with
          | [c] => String.singleton c
          | c :: rest => String.singleton c ++ "." ++ String.ofList rest
          | [] => ""
        let e := point - 1
        let power := if 0 ≤ e then l.plus ++ toString e.toNat else "-" ++ toString (-e).toNat
        mantissa ++ "e" ++ power

end Double

end SpinFleet
