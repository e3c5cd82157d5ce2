import SpinFleet.Time.Instant
/-!
# Reading times

The text of a time is a date, a time of day and an offset from UTC.  Reading is lenient where
people are: blanks may stand around the parts, the separator may be a blank, the fraction may
have any number of digits (nine count), and `UTC` or `Z` may stand for no offset.  Every refusal
has one of five causes, and the first one from the left is reported.
-/
namespace SpinFleet.Instant

inductive Fault
  /-- A part is outside its range, such as the thirteenth month. -/
  | outOfRange
  /-- The offset leads out of the calendar. -/
  | impossible
  /-- A character stands where its part cannot have it. -/
  | invalid
  /-- The text ends too early. -/
  | tooShort
  /-- Something follows the offset. -/
  | tooLong
deriving DecidableEq, Repr

def Fault.message : Fault → String
  | .outOfRange => "input is out of range"
  | .impossible => "no possible date and time matching input"
  | .invalid => "input contains invalid characters"
  | .tooShort => "premature end of input"
  | .tooLong => "trailing input"

/-- A step of reading: from the rest of the text to a part and the rest behind it. -/
abbrev Reading (α : Type) := List Char → Except Fault (α × List Char)

def isBlank (c : Char) : Bool :=
  let n := c.toNat
  n = 0x20 || (0x09 ≤ n && n ≤ 0x0D) || n = 0x85 || n = 0xA0 || n = 0x1680 ||
    (0x2000 ≤ n && n ≤ 0x200A) || n = 0x2028 || n = 0x2029 || n = 0x202F || n = 0x205F || n = 0x3000

def skipBlanks (cs : List Char) : List Char := cs.dropWhile isBlank

def digitsValue (cs : List Char) : Nat := cs.foldl (fun n c => n * 10 + (c.toNat - 48)) 0

/-- At most `width` digits, and at least one; `width` zero stands for any number of them. -/
def number (width : Nat) : Reading Nat := fun cs =>
  match cs with
  | [] => .error .tooShort
  | c :: _ =>
    if c.isDigit then
      let all := cs.takeWhile Char.isDigit
      let taken := if width = 0 then all else all.take width
      .ok (digitsValue taken, cs.drop taken.length)
    else .error .invalid

/-- A year: four digits, or any number of digits after a sign. -/
def year : Reading Int := fun cs =>
  match skipBlanks cs with
  | '-' :: rest => do
    let (n, rest) ← number 0 rest
    bounded (-(n : Int)) rest
  | '+' :: rest => do
    let (n, rest) ← number 0 rest
    bounded n rest
  | cs => do
    let (n, rest) ← number 4 cs
    bounded n rest
where
  bounded (n : Int) (rest : List Char) : Except Fault (Int × List Char) :=
    if -2147483648 ≤ n ∧ n ≤ 2147483647 then .ok (n, rest) else .error .outOfRange

def part (low high : Nat) : Reading Nat := fun cs => do
  let (n, rest) ← number 2 (skipBlanks cs)
  if low ≤ n ∧ n ≤ high then return (n, rest) else throw .outOfRange

/-- A separator, blanks before it being skipped. -/
def separator (c : Char) : Reading Unit := fun cs =>
  match skipBlanks cs with
  | [] => .error .tooShort
  | d :: rest => if d = c then .ok ((), rest) else .error .invalid

/-- The digits after the second's point in nanoseconds, nothing if there is no point. -/
def fractionPart : Reading Nat := fun cs =>
  match cs with
  | '.' :: rest => do
    let (n, rest') ← number 9 rest
    let count := rest.length - rest'.length
    return (n * Nat.pow 10 (9 - count), rest'.dropWhile Char.isDigit)
  | cs => .ok (0, cs)

def hasTwoBytes : List Char → Bool
  | [] => false
  | [c] => 0x80 ≤ c.toNat
  | _ => true

def offsetDigits (cs : List Char) : Except Fault (Nat × Nat × List Char) :=
  match cs with
  | a :: b :: rest =>
    if a.isDigit && b.isDigit then .ok (a.toNat - 48, b.toNat - 48, rest) else .error .invalid
  | cs => .error (if hasTwoBytes cs then .invalid else .tooShort)

def offsetSize : Reading Int := fun cs => do
  let (h₁, h₂, rest) ← offsetDigits cs
  let rest := rest.dropWhile (fun c => c = ':' || isBlank c)
  let (m₁, m₂, rest) ← offsetDigits rest
  if 6 ≤ m₁ then throw .outOfRange
  return ((((h₁ * 10 + h₂) * 60 + m₁ * 10 + m₂) * 60 : Nat), rest)

/-- The offset from UTC in seconds, east being positive. -/
def offset : Reading Int := fun cs =>
  match skipBlanks cs with
  | u :: t :: c :: rest =>
    if u.toUpper = 'U' ∧ t.toUpper = 'T' ∧ c.toUpper = 'C' then .ok (0, rest)
    else signed (u :: t :: c :: rest)
  | cs => signed cs
where
  signed : Reading Int
    | [] => .error .tooShort
    | c :: rest =>
      if c = 'Z' ∨ c = 'z' then .ok (0, rest)
      else if c = '+' then offsetSize rest
      else if c = '-' ∨ c = Char.ofNat 0x2212 then do
        let (n, rest) ← offsetSize rest
        return (-n, rest)
      else .error .invalid

def yearBounds : Int × Int := (-262143, 262142)

def assemble (year : Int) (month day hour minute second nanos : Nat) (offset : Int) :
    Except Fault Instant := do
  if year < yearBounds.1 ∨ yearBounds.2 < year ∨ daysInMonth year month < day then
    throw .outOfRange
  if 86400 ≤ offset.natAbs then throw .outOfRange
  let (second, nanos) := if second = 60 then (59, nanos + 1000000000) else (second, nanos)
  let local' := (Day.mk year month day).number * 86400 + (hour * 60 + minute) * 60 + second
  let seconds := local' - offset
  let utcYear := (Day.ofNumber (seconds.fdiv 86400)).year
  if utcYear < yearBounds.1 ∨ yearBounds.2 < utcYear then throw .impossible
  return ⟨seconds, nanos⟩

def parse (text : String) : Except Fault Instant := do
  let (year, cs) ← year text.toList
  let ((), cs) ← separator '-' cs
  let (month, cs) ← part 1 12 cs
  let ((), cs) ← separator '-' cs
  let (day, cs) ← part 1 31 cs
  let cs ← match cs with
    | [] => throw .tooShort
    | c :: rest => if c = 'T' ∨ c = 't' ∨ c = ' ' then pure rest else throw .invalid
  let (hour, cs) ← part 0 23 cs
  let ((), cs) ← separator ':' cs
  let (minute, cs) ← part 0 59 cs
  let ((), cs) ← separator ':' cs
  let (second, cs) ← part 0 60 cs
  let (nanos, cs) ← fractionPart cs
  let (offset, cs) ← offset cs
  if !(skipBlanks cs).isEmpty then throw .tooLong
  assemble year month day hour minute second nanos offset

end SpinFleet.Instant
