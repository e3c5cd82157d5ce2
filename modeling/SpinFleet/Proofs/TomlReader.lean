import SpinFleet.Json.Reader
import SpinFleet.RuntimeConfig.Toml
/-!
# TomlReader — what a text says in TOML

A reader of TOML 1.0 for texts in which every value is a string and every entry has a plain key: bare and quoted keys,
the four kinds of strings with all their escapes, comments, both line ends, headers with paths, tables that are known
from the header of another one, and lists of tables.  Any other value, a path in place of an entry's key, a name given
twice and a table opened twice are refused.

The reader is written after the grammar and not after the writer.  It shares with `SpinFleet.Toml` only the names of the
four styles and which of them may have several lines, so that an error made there shows as a text that is not read back.
-/
namespace SpinFleet.Toml.Reader

/-! ## Characters -/

def isBlank (c : Char) : Bool := c == ' ' || c == '\t'

def isShown (c : Char) : Bool := c == '\t' || (0x20 ≤ c.toNat && c.toNat != 0x7F)

def isKeyChar (c : Char) : Bool :=
  ('A' ≤ c && c ≤ 'Z') || ('a' ≤ c && c ≤ 'z') || ('0' ≤ c && c ≤ '9') || c == '-' || c == '_'

def skipBlanks (cs : List Char) : List Char := cs.dropWhile isBlank

def newline? : List Char → Option (List Char)
  | '\n' :: rest => some rest
  | '\r' :: '\n' :: rest => some rest
  | _ => none

/-! ## Strings -/

def gap : List Char → Nat
  | [] => 0
  | c :: cs => if isBlank c ∨ c = '\n' ∨ c = '\r' ∧ cs.head? = some '\n' then gap cs + 1 else 0

/-- The character with the number that the first `width` digits give. -/
def codePoint? (width : Nat) (cs : List Char) : Option Char := do
  let ds ← (cs.take width).mapM Json.Reader.hexValue?
  let n := ds.foldl (fun n d => n * 16 + d) 0
  if ds.length = width ∧ n.isValidChar then some (Char.ofNat n) else none

/-- What an escape stands for, and how long it is behind its backslash.  A backslash at the end of a line takes the line
end with it and all blanks up to the next text. -/
def escaped? (multiline : Bool) : List Char → Option (List Char × Nat)
  | 'b' :: _ => some (['\x08'], 1)
  | 't' :: _ => some (['\t'], 1)
  | 'n' :: _ => some (['\n'], 1)
  | 'f' :: _ => some (['\x0c'], 1)
  | 'r' :: _ => some (['\r'], 1)
  | '"' :: _ => some (['"'], 1)
  | '\\' :: _ => some (['\\'], 1)
  | 'u' :: cs => (codePoint? 4 cs).map fun c => ([c], 5)
  | 'U' :: cs => (codePoint? 8 cs).map fun c => ([c], 9)
  | cs => if multiline && (newline? (skipBlanks cs)).isSome then some ([], gap cs) else none

def quote : Style → Char
  | .basic | .multilineBasic => '"'
  | .literal | .multilineLiteral => '\''

def hasEscapes : Style → Bool
  | .basic | .multilineBasic => true
  | .literal | .multilineLiteral => false

def closing (s : Style) : Nat := if s.isMultiline then 3 else 1

/-- How many quotes of its own a string may have right before those. -/
def spare (s : Style) : Nat := if s.isMultiline then 2 else 0

/-- What a character of a string stands for that is not a quote, and how many of those behind it belong to it. -/
def shown? (s : Style) (c : Char) (cs : List Char) : Option (List Char × Nat) :=
  if hasEscapes s && c == '\\' then escaped? s.isMultiline cs
  else if isShown c then some ([c], 0)
  else if s.isMultiline && c == '\n' then some ([c], 0)
  else if s.isMultiline && c == '\r' && cs.head? == some '\n' then some (['\n'], 1)
  else none

/-- A string behind its opening quotes, up to the closing ones, and the text behind them.  The next `skip` characters
have been read with an escape, and `run` quotes have just been seen. -/
def body? (s : Style) : Nat → Nat → List Char → Option (List Char × List Char)
  | _, run, [] => if closing s ≤ run then some (.replicate (run - closing s) (quote s), []) else none
  | skip + 1, run, _ :: cs => body? s skip run cs
  | 0, run, c :: cs =>
    if c = quote s then
      if run + 1 = closing s + spare s then some (.replicate (spare s) (quote s), cs)
      else body? s 0 (run + 1) cs
    else if closing s ≤ run then some (.replicate (run - closing s) (quote s), c :: cs)
    else (shown? s c cs).bind fun (shown, skip) =>
      (body? s skip 0 cs).map fun (body, rest) => (.replicate run (quote s) ++ shown ++ body, rest)

/-- The style of a string, and the text behind its opening quotes.  A line end right behind three quotes is not part of
the string. -/
def opening? : List Char → Option (Style × List Char)
  | '"' :: '"' :: '"' :: cs => some (.multilineBasic, (newline? cs).getD cs)
  | '"' :: cs => some (.basic, cs)
  | '\'' :: '\'' :: '\'' :: cs => some (.multilineLiteral, (newline? cs).getD cs)
  | '\'' :: cs => some (.literal, cs)
  | _ => none

def string? (cs : List Char) : Option (String × List Char) := do
  let (s, cs) ← opening? cs
  let (body, rest) ← body? s 0 0 cs
  return (String.ofList body, rest)

/-! ## Keys -/

def key? (cs : List Char) : Option (String × List Char) := do
  match cs.takeWhile isKeyChar with
  | [] =>
    -- A quoted key stays on one line.
    let (s, _) ← opening? cs
    if s.isMultiline then none else string? cs
  | bare => return (String.ofList bare, cs.dropWhile isKeyChar)

def path? (cs : List Char) : Option (List String × List Char) := do
  let (k, rest) ← key? (skipBlanks cs)
  match skipBlanks rest with
  | '.' :: rest =>
    if rest.length < cs.length then
      let (ks, rest) ← path? rest
      return (k :: ks, rest)
    else none
  | rest => return ([k], rest)
termination_by cs.length

/-! ## Lines -/

inductive Statement
  | entry (key value : String)
  /-- The header of a table, or of the next `item` of a list of tables. -/
  | header (item : Bool) (path : List String)
deriving DecidableEq, Repr

def statement? (cs : List Char) : Option (Statement × List Char) := do
  match cs with
  | '[' :: '[' :: cs =>
    match ← path? cs with
    | (path, ']' :: ']' :: rest) => return (.header true path, rest)
    | _ => none
  | '[' :: cs =>
    match ← path? cs with
    | (path, ']' :: rest) => return (.header false path, rest)
    | _ => none
  | cs =>
    match ← path? cs with
    | ([key], '=' :: rest) =>
      let (value, rest) ← string? (skipBlanks rest)
      return (.entry key value, rest)
    | _ => none

/-- The text behind a line of which only blanks and a comment are left. -/
def lineEnd? (cs : List Char) : Option (List Char) :=
  match skipBlanks cs with
  | [] => some []
  | '#' :: cs =>
    match cs.dropWhile isShown with
    | [] => some []
    | rest => newline? rest
  | cs => newline? cs

def statements? (cs : List Char) : Option (List Statement) := do
  if cs.isEmpty then return []
  match lineEnd? cs with
  | some rest => if rest.length < cs.length then statements? rest else none
  | none =>
    let (s, rest) ← statement? (skipBlanks cs)
    let rest ← lineEnd? rest
    if rest.length < cs.length then
      let ss ← statements? rest
      return s :: ss
    else none
termination_by cs.length

/-! ## Tables -/

structure Section where
  item : Bool
  path : List String
  entries : List (String × String)
deriving DecidableEq, Repr

def sections : List Statement → List (String × String) × List Section
  | [] => ([], [])
  | .entry k v :: ss => ((k, v) :: (sections ss).1, (sections ss).2)
  | .header item path :: ss => ([], ⟨item, path, (sections ss).1⟩ :: (sections ss).2)

inductive Node
  | string (value : String)
  /-- A table, which has been opened by its header or is only known from that of another one. -/
  | table (opened : Bool) (members : List (String × Node))
  | tables (items : List (List (String × Node)))

abbrev Members := List (String × Node)

def put (k : String) (n : Node) : Members → Members
  | [] => [(k, n)]
  | (k', n') :: ms => if k' = k then (k, n) :: ms else (k', n') :: put k n ms

/-- Adds entries, the names of which must be new. -/
def fill? : List (String × String) → Members → Option Members
  | [], ms => some ms
  | (k, v) :: es, ms => if (ms.lookup k).isSome then none else fill? es (ms ++ [(k, .string v)])

/-- Opens a section as a member of a table, where there may be a member already. -/
def open? (s : Section) : Option Node → Option Node
  | none => do
    let t ← fill? s.entries []
    return if s.item then .tables [t] else .table true t
  | some (.table false ms) => if s.item then none else return .table true (← fill? s.entries ms)
  | some (.tables ts) => if s.item then return .tables (ts ++ [← fill? s.entries []]) else none
  | some _ => none

/-- Places a section in a table.  In a list of tables the way goes on in the last one. -/
def place? (s : Section) : List String → Members → Option Members
  | [], _ => none
  | [k], ms => do return put k (← open? s (ms.lookup k)) ms
  | k :: k' :: ks, ms => do
    match ms.lookup k with
    | none => return put k (.table false (← place? s (k' :: ks) [])) ms
    | some (.table opened sub) => return put k (.table opened (← place? s (k' :: ks) sub)) ms
    | some (.tables ts) => return put k (.tables (ts.dropLast ++ [← place? s (k' :: ks) (← ts.getLast?)])) ms
    | some (.string _) => none

def placeAll? (ss : List Section) (ms : Members) : Option Members := ss.foldlM (fun ms s => place? s s.path ms) ms

mutual

def Node.value : Node → Json
  | .string v => .string v
  | .table _ ms => .object (memberValues ms)
  | .tables ts => .array (tableValues ts)

def memberValues : Members → List (String × Json)
  | [] => []
  | (k, n) :: ms => (k, n.value) :: memberValues ms

def tableValues : List Members → List Json
  | [] => []
  | t :: ts => .object (memberValues t) :: tableValues ts

end

end Reader

/-- What a text says, if it is TOML of this kind. -/
def read? (text : String) : Option Json := do
  let ss ← Reader.statements? text.toList
  let (entries, sections) := Reader.sections ss
  let top ← Reader.fill? entries []
  let document ← Reader.placeAll? sections top
  return .object (Reader.memberValues document)

example :
    read? "\r\n[[config_provider]] # env\ntype = 'env'\n\n[key_value_store]\n[ key_value_store.\"a b\" ]\nurl = \"a\"" =
    some (.object [("config_provider", .array [.object [("type", .string "env")]]),
      ("key_value_store", .object [("a b", .object [("url", .string "a")])])]) := by cbv

example : read? "[a.b]\n[a]\nb = 'c'\n" = none := by cbv

end SpinFleet.Toml
