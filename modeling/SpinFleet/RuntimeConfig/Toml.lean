import SpinFleet.Text.Checksum
/-!
# Texts in TOML

A text can be written in four ways: between single or triple quotes, with escapes (`basic`) or
without them (`literal`).  The first way that needs no escapes is taken; where all of them would
need escapes, a basic one is.  Keys of letters, digits, dashes and underscores need no quotes.
-/
namespace SpinFleet.Toml

/-- What a text contains that some way of writing it cannot show. -/
structure Traits where
  /-- Control characters other than the tab and the line feed. -/
  control : Bool
  backslash : Bool
  newline : Bool
  /-- The most double quotes in a row. -/
  doubleQuotes : Nat
  /-- The most single quotes in a row. -/
  singleQuotes : Nat
deriving DecidableEq, Repr

/-- Whether a character has to be escaped in every way of writing but the basic ones. -/
def isControl (c : Char) : Bool := (c.toNat < 0x20 && c != '\t' && c != '\n') || c.toNat == 0x7F

/-- The most copies of a character in a row, `run` of them having just been seen. -/
def longestRun (x : Char) : Nat → List Char → Nat
  | _, [] => 0
  | run, c :: cs => if c = x then max (run + 1) (longestRun x (run + 1) cs) else longestRun x 0 cs

def traits (cs : List Char) : Traits where
  control := cs.any isControl
  backslash := cs.contains '\\'
  newline := cs.contains '\n'
  doubleQuotes := longestRun '"' 0 cs
  singleQuotes := longestRun '\'' 0 cs

/-! ## Escapes -/

def controlEscape (c : Char) : List Char :=
  match c with
  | '\x08' => ['\\', 'b']
  | '\t' => ['\\', 't']
  | '\n' => ['\\', 'n']
  | '\x0c' => ['\\', 'f']
  | '\r' => ['\\', 'r']
  | c => '\\' :: 'u' :: (Checksum.hex 4 c.toNat).map Char.toUpper

/-- Escapes a text.  Of several double quotes in a row the first `allowed` stand for themselves,
`run` of them having just been written. -/
def escape (multiline : Bool) (allowed : Nat) : Nat → List Char → List Char
  | _, [] => []
  | run, c :: cs =>
    if c = '"' then
      if allowed ≤ run then '\\' :: '"' :: escape multiline allowed 0 cs
      else '"' :: escape multiline allowed (run + 1) cs
    else if c = '\\' then '\\' :: '\\' :: escape multiline allowed 0 cs
    else if c = '\n' ∧ multiline then '\n' :: escape multiline allowed 0 cs
    else if c.toNat < 0x20 ∨ c.toNat = 0x7F then controlEscape c ++ escape multiline allowed 0 cs
    else c :: escape multiline allowed 0 cs

/-! ## The ways of writing -/

inductive Style
  | basic
  | literal
  | multilineBasic
  | multilineLiteral
deriving DecidableEq, Repr

def Style.delimiter : Style → List Char
  | .basic => ['"']
  | .literal => ['\'']
  | .multilineBasic => ['"', '"', '"']
  | .multilineLiteral => ['\'', '\'', '\'']

def Style.isMultiline : Style → Bool
  | .basic | .literal => false
  | .multilineBasic | .multilineLiteral => true

def Style.body : Style → List Char → List Char
  | .basic, cs => escape false 0 0 cs
  | .multilineBasic, cs => escape true 2 0 cs
  | .literal, cs => cs
  | .multilineLiteral, cs => cs

/-- A text in a style.  A line feed after the opening delimiter is not part of the text, and is
written only if the text has several lines. -/
def Style.write (s : Style) (cs : List Char) : List Char :=
  let lead := if s.isMultiline && cs.contains '\n' then ['\n'] else []
  s.delimiter ++ lead ++ s.body cs ++ s.delimiter

/-- The style of a value: the first that shows the text as it is. -/
def valueStyle (t : Traits) : Style :=
  if !t.control && !t.backslash && t.doubleQuotes == 0 && !t.newline then .basic
  else if !t.control && t.singleQuotes == 0 && !t.newline then .literal
  else if !t.control && !t.backslash && t.doubleQuotes ≤ 2 then .multilineBasic
  else if !t.control && t.singleQuotes ≤ 2 then .multilineLiteral
  else if t.newline then .multilineBasic
  else .basic

def value (s : String) : List Char := (valueStyle (traits s.toList)).write s.toList

def isBare (c : Char) : Bool := c.isAlphanum || c == '-' || c == '_'

/-- The style of a quoted key, which has to stay on one line. -/
def keyStyle (t : Traits) : Style :=
  if t.control || t.newline then .basic
  else if !t.backslash && t.doubleQuotes == 0 then .basic
  else if t.singleQuotes == 0 then .literal
  else .basic

def key (s : String) : List Char :=
  let cs := s.toList
  if !cs.isEmpty && cs.all isBare then cs else (keyStyle (traits cs)).write cs

/-! ## Tables -/

structure Table where
  header : List Char
  entries : List (String × String)

def tableHeader (path : List String) : List Char :=
  '[' :: ['.'].intercalate (path.map key) ++ [']']

/-- The header of the next table of a list of tables. -/
def listHeader (path : List String) : List Char :=
  '[' :: '[' :: ['.'].intercalate (path.map key) ++ [']', ']']

def entry (e : String × String) : List Char :=
  key e.1 ++ [' ', '=', ' '] ++ value e.2 ++ ['\n']

def Table.write (t : Table) : List Char := t.header ++ ['\n'] ++ (t.entries.map entry).flatten

def document (ts : List Table) : String := String.ofList (['\n'].intercalate (ts.map Table.write))

end SpinFleet.Toml
