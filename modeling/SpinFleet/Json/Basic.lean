import SpinFleet.Dict
/-!
# JSON values

Manifests, patches, admission reviews and API answers are all JSON, so the tree of a JSON text
is the one dynamic value of the library.  Everything the library *decides* on has a type of its
own; a `Json` is what stands before decoding, after encoding, and in the parts of an object that
are carried along without being looked at.

A number keeps what its text said: an integer that fits the 64-bit range is exact, everything
else is a decimal fraction, which only error texts and echoed values ever show again.
-/
namespace SpinFleet

inductive Number
  /-- An integer between `-2^63` and `2^64 - 1`. -/
  | integer (value : Int)
  /-- `± significand * 10 ^ exponent`, written with a fraction, an exponent, or too long. -/
  | decimal (negative : Bool) (significand : Nat) (exponent : Int)
deriving DecidableEq, Repr, Inhabited

/-- A JSON value.  Members keep the order of the text. -/
inductive Json
  | null
  | bool (value : Bool)
  | number (value : Number)
  | string (value : String)
  | array (items : List Json)
  | object (members : List (String × Json))
deriving Repr, Inhabited

namespace Json

def int (n : Int) : Json := .number (.integer n)

def members : Json → List (String × Json)
  | .object ms => ms
  | _ => []

/-- The value of an object's member; the last one of that name. -/
def member? (k : String) (j : Json) : Option Json :=
  (j.members.reverse.find? (fun m => m.1 == k)).map Prod.snd

def items : Json → List Json
  | .array xs => xs
  | _ => []

def string? : Json → Option String
  | .string s => some s
  | _ => none

def int? : Json → Option Int
  | .number (.integer n) => some n
  | _ => none

def bool? : Json → Option Bool
  | .bool b => some b
  | _ => none

/-! ## Building objects

An object is written as a list of groups of members, so that a member that is only sometimes
there is a group that is sometimes empty. -/

def always (k : String) (j : Json) : List (String × Json) := [(k, j)]

def optional {α : Type} (k : String) (o : Option α) (f : α → Json) : List (String × Json) :=
  match o with
  | none => []
  | some a => [(k, f a)]

def unlessEmpty {α : Type} (k : String) (xs : List α) (f : α → Json) : List (String × Json) :=
  if xs.isEmpty then [] else [(k, .array (xs.map f))]

def ofGroups (groups : List (List (String × Json))) : Json := .object groups.flatten

def ofDict {α : Type} (f : α → Json) (d : Dict String α) : Json :=
  .object (d.toList.map (fun e => (e.1, f e.2)))

def dictUnlessEmpty {α : Type} (k : String) (d : Dict String α) (f : α → Json) :
    List (String × Json) :=
  if d.isEmpty then [] else [(k, ofDict f d)]

/-! ## Key order -/

mutual

/-- The same value with the members of every object sorted by key, the last of a repeated key
being kept. -/
def sorted : Json → Json
  | .array xs => .array (sortedItems xs)
  | .object ms => .object (Dict.ofList (sortedMembers ms)).toList
  | j => j

def sortedItems : List Json → List Json
  | [] => []
  | x :: xs => sorted x :: sortedItems xs

def sortedMembers : List (String × Json) → List (String × Json)
  | [] => []
  | (k, x) :: ms => (k, sorted x) :: sortedMembers ms

end

/-! ## Pointers -/

inductive Step
  | key (name : String)
  | index (position : Nat)
deriving DecidableEq, Repr, Inhabited

def follow? : List Step → Json → Option Json
  | [], j => some j
  | .key k :: rest, j => j.member? k >>= follow? rest
  | .index i :: rest, j => j.items[i]? >>= follow? rest

/-- The reference tokens of a pointer behind its first slash: slashes part them, and within them `~1` stands for a
slash and `~0` for a tilde. -/
def referenceTokens : List Char → List (List Char)
  | [] => [[]]
  | '/' :: cs => [] :: referenceTokens cs
  | '~' :: '1' :: cs => (referenceTokens cs).modifyHead ('/' :: ·)
  | '~' :: '0' :: cs => (referenceTokens cs).modifyHead ('~' :: ·)
  | c :: cs => (referenceTokens cs).modifyHead (c :: ·)

/-- The reference tokens of a pointer text: `/a~1b/0` has the tokens `a/b` and `0`.  The empty
text is the whole value; any other text starts with a slash. -/
def pointerTokens? (pointer : String) : Option (List String) :=
  match pointer.toList with
  | [] => some []
  | '/' :: cs => some ((referenceTokens cs).map String.ofList)
  | _ => none

/-- An array position as a pointer writes it: digits without a leading zero. -/
def position? (token : String) : Option Nat :=
  match token.toList with
  | ['0'] => some 0
  | c :: cs =>
    if c ≠ '0' ∧ (c :: cs).all Char.isDigit then
      some ((c :: cs).foldl (fun n d => n * 10 + (d.toNat - '0'.toNat)) 0)
    else none
  | [] => none

def descend? : List String → Json → Option Json
  | [], j => some j
  | t :: rest, .object ms => (Json.object ms).member? t >>= descend? rest
  | t :: rest, .array xs => position? t >>= (xs[·]?) >>= descend? rest
  | _ :: _, _ => none

def pointer? (text : String) (j : Json) : Option Json :=
  pointerTokens? text >>= (descend? · j)

end Json

end SpinFleet
