/-!
# Media types

The type of a body, as a header names it: a type, a subtype that may end in a suffix, and
parameters.  The parameters are not kept, but a text whose parameters make no sense names no media
type at all.  Whoever reads one accepts it by its type, its subtype and its suffix.
-/
namespace SpinFleet

structure MediaType where
  type : String
  /-- Without the suffix. -/
  subtype : String
  suffix : Option String
deriving DecidableEq, Repr

namespace MediaType

def isToken (c : Char) : Bool := c.isAlphanum || "!#$%&'*+-.^_\x60|~".contains c

def isQuotable (c : Char) : Bool := ' ' ≤ c && c ≤ '~'

inductive Place
  /-- Before a name, or at the end. -/
  | start
  | name
  /-- Behind the sign between a name and its value. -/
  | valueStart
  | value
  /-- Behind the opening mark of a quoted value, which is not empty. -/
  | quoteStart
  | quoted
  /-- Behind a quoted value. -/
  | behind
  /-- Nothing that follows makes sense of what was read. -/
  | lost
deriving DecidableEq, Repr

namespace Place

def orLost (b : Bool) (p : Place) : Place := if b then p else lost

def read : Place → Char → Place
  | start, c => if c = ' ' then start else orLost (isToken c) name
  | name, c => if c = '=' then valueStart else orLost (isToken c) name
  | valueStart, c => if c = '"' then quoteStart else orLost (isToken c) value
  | value, c => if c = ';' then start else orLost (isToken c) value
  | quoteStart, c => orLost (isQuotable c) quoted
  | quoted, c => if c = '"' then behind else orLost (isQuotable c) quoted
  | behind, c => if c = ';' then start else orLost (c = ' ') behind
  | lost, _ => lost

def isEnd : Place → Bool
  | start | valueStart | value | behind => true
  | name | quoteStart | quoted | lost => false

end Place

def isParameters (cs : List Char) : Bool := (cs.foldl Place.read .start).isEnd

/-- The subtype and the suffix, which the last plus sign that is not the first character begins. -/
def split (cs : List Char) : List Char × Option (List Char) :=
  let tail := cs.drop 1
  if tail.contains '+' then
    let suffix := (tail.reverse.takeWhile (· != '+')).reverse
    (cs.take (cs.length - suffix.length - 1), some suffix)
  else (cs, none)

def small (cs : List Char) : String := String.ofList (cs.map Char.toLower)

def parse? (text : String) : Option MediaType :=
  let cs := text.toList
  let type := cs.takeWhile isToken
  match type, cs.drop type.length with
  | _ :: _, '/' :: rest =>
    let subtype := rest.takeWhile isToken
    let parameters := rest.drop subtype.length
    let (stem, suffix) := split subtype
    let named : MediaType := ⟨small type, small stem, suffix.map small⟩
    match parameters with
    | [] => some named
    | c :: parameters =>
      if !subtype.isEmpty && (c == ';' || c == ' ') && isParameters parameters then some named
      else none
  | _, _ => none

def isJson (m : MediaType) : Bool :=
  m.type == "application" && (m.subtype == "json" || m.suffix == some "json")

end MediaType

end SpinFleet
