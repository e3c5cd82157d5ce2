import SpinFleet.Json.Basic
import SpinFleet.Text.Double
/-!
# The written form of JSON

Compact form: no blanks, members in the order of the value, strings with the fewest escapes the
format allows.  `Json.compact` is the text of request bodies, of admission patches and of
offending values in error texts, so it is one definition for all three.
-/
namespace SpinFleet

/-- The text of a number: integers as they are, everything else as the shortest text of the
nearest double.  A number too large for a double has no text and is written as `null`. -/
def Number.text : Number → String
  | .integer n => toString n
  | .decimal negative s e =>
    match Double.nearest? negative s e with
    | some x => x.text
    | none => "null"

namespace Json

def hexDigit (n : Nat) : Char := if n < 10 then Char.ofNat (48 + n) else Char.ofNat (87 + n)

/-- A character inside a quoted string: quote, backslash and the control characters are
escaped, everything else stands for itself. -/
def escapeChar (c : Char) : String :=
  match c with
  | '"' => "\\\""
  | '\\' => "\\\\"
  | '\x08' => "\\b"
  | '\t' => "\\t"
  | '\n' => "\\n"
  | '\x0c' => "\\f"
  | '\r' => "\\r"
  | c =>
    if c.toNat < 32 then
      "\\u00" ++ String.ofList [hexDigit (c.toNat / 16), hexDigit (c.toNat % 16)]
    else String.singleton c

def quoted (s : String) : String :=
  s.foldl (fun acc c => acc ++ escapeChar c) "\"" ++ "\""

mutual

def compact : Json → String
  | .null => "null"
  | .bool true => "true"
  | .bool false => "false"
  | .number n => n.text
  | .string s => quoted s
  | .array xs => "[" ++ ",".intercalate (compactItems xs) ++ "]"
  | .object ms => "\x7b" ++ ",".intercalate (compactMembers ms) ++ "\x7d"

def compactItems : List Json → List String
  | [] => []
  | x :: xs => compact x :: compactItems xs

def compactMembers : List (String × Json) → List String
  | [] => []
  | (k, x) :: ms => (quoted k ++ ":" ++ compact x) :: compactMembers ms

end

end Json

end SpinFleet
