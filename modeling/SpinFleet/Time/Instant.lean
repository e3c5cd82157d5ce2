/-!
# Instants

A point in time, kept exactly: the cluster writes times with whole seconds or with fractions,
and both are compared and copied without loss.  The calendar is the Gregorian one, extended in
both directions, counted in days from 1970-01-01.
-/
namespace SpinFleet

/-- A point in time: seconds since 1970-01-01T00:00:00Z, and nanoseconds after that second.
Nanoseconds from `10 ^ 9` on belong to a leap second that follows the second. -/
structure Instant where
  seconds : Int
  nanos : Nat
deriving DecidableEq, Repr, Inhabited

namespace Instant

/-! ## The calendar -/

structure Day where
  year : Int
  month : Nat
  day : Nat
deriving DecidableEq, Repr

def isLeap (year : Int) : Bool := year % 4 = 0 && (year % 100 ≠ 0 || year % 400 = 0)

def daysInMonth (year : Int) (month : Nat) : Nat :=
  match month with
  | 2 => if isLeap year then 29 else 28
  | 4 | 6 | 9 | 11 => 30
  | _ => 31

/-- Days from 1970-01-01 to a day.  Years are counted from March, so that the leap day ends a
year, and 400 of them have 146097 days. -/
def Day.number (d : Day) : Int :=
  let y := if d.month ≤ 2 then d.year - 1 else d.year
  let m : Int := if d.month ≤ 2 then d.month + 9 else d.month - 3
  let era := y.fdiv 400
  let yoe := y - era * 400
  let doy := (153 * m + 2) / 5 + d.day - 1
  let doe := yoe * 365 + yoe / 4 - yoe / 100 + doy
  era * 146097 + doe - 719468

/-- The day that is some days after 1970-01-01. -/
def Day.ofNumber (n : Int) : Day :=
  let z := n + 719468
  let era := z.fdiv 146097
  let doe := z - era * 146097
  let yoe := (doe - doe / 1460 + doe / 36524 - doe / 146096) / 365
  let doy := doe - (365 * yoe + yoe / 4 - yoe / 100)
  let mp := (5 * doy + 2) / 153
  let day := doy - (153 * mp + 2) / 5 + 1
  let month := if mp < 10 then mp + 3 else mp - 9
  let year := yoe + era * 400 + (if month ≤ 2 then 1 else 0)
  ⟨year, month.toNat, day.toNat⟩

/-! ## The written form -/

def padded (width n : Nat) : String :=
  let digits := (toString n).toList
  String.ofList (List.replicate (width - digits.length) '0' ++ digits)

/-- Years of four digits are written plainly, all others with a sign. -/
def yearText (y : Int) : String :=
  if 0 ≤ y ∧ y ≤ 9999 then padded 4 y.toNat
  else (if y < 0 then "-" else "+") ++ padded 4 y.natAbs

def clockText (t : Instant) : String :=
  let day := Day.ofNumber (t.seconds.fdiv 86400)
  let second := (t.seconds.fmod 86400).toNat
  let leap := if 1000000000 ≤ t.nanos then 1 else 0
  yearText day.year ++ "-" ++ padded 2 day.month ++ "-" ++ padded 2 day.day ++ "T" ++
    padded 2 (second / 3600) ++ ":" ++ padded 2 (second / 60 % 60) ++ ":" ++
    padded 2 (second % 60 + leap)

def fraction (t : Instant) : Nat := t.nanos % 1000000000

def textSeconds (t : Instant) : String := t.clockText ++ "Z"

def textMicros (t : Instant) : String :=
  t.clockText ++ "." ++ padded 6 (t.fraction / 1000) ++ "Z"

/-- No digits of the second, or three, six or nine: the fewest that are exact. -/
def textExact (t : Instant) : String :=
  let n := t.fraction
  let digits :=
    if n = 0 then ""
    else if n % 1000000 = 0 then "." ++ padded 3 (n / 1000000)
    else if n % 1000 = 0 then "." ++ padded 6 (n / 1000)
    else "." ++ padded 9 n
  t.clockText ++ digits ++ "Z"

end Instant

end SpinFleet
