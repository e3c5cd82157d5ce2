import SpinFleet.Text.Checksum
/-!
# Addresses and request targets

A request names its object in the path of a URI, as it is: a name with a question mark cuts the
path short, and a name with a character that no URI has makes no request at all.  Parameters go
into the query, where everything but plain letters is escaped.  Where users give an address of
their own, it is only checked.
-/
namespace SpinFleet.Uri

structure Target where
  path : String
  query : Option String
deriving DecidableEq, Repr

inductive Fault
  | badCharacter
  | badAuthority
  | badFormat
  | tooLong
  | schemeTooLong
  | empty
deriving DecidableEq, Repr

def Fault.message : Fault → String
  | .badCharacter => "invalid uri character"
  | .badAuthority => "invalid authority"
  | .badFormat => "invalid format"
  | .tooLong => "uri too long"
  | .schemeTooLong => "scheme too long"
  | .empty => "empty string"

/-- Whether a character may stand in a path.  Everything beyond ASCII may. -/
def inPath (c : Char) : Bool :=
  let n := c.toNat
  n == 0x21 || (0x24 ≤ n && n ≤ 0x3B) || n == 0x3D || (0x40 ≤ n && n ≤ 0x5F) ||
    (0x61 ≤ n && n ≤ 0x7A) || n == 0x7C || n == 0x7E || n == 0x22 || n == 0x7B || n == 0x7D ||
    0x7F ≤ n

def inQuery (c : Char) : Bool :=
  let n := c.toNat
  n == 0x21 || (0x24 ≤ n && n ≤ 0x3B) || n == 0x3D || (0x3F ≤ n && n ≤ 0x7E) || 0x7F ≤ n

def readQuery (cs : List Char) : Except Fault String :=
  let q := cs.takeWhile (· != '#')
  if q.all inQuery then .ok (String.ofList q) else .error .badCharacter

def maxLength : Nat := 65534

/-- The target that a text names.  What follows a number sign is left out. -/
def parse (text : String) : Except Fault Target :=
  if maxLength < text.utf8ByteSize then .error .tooLong
  else
    let cs := text.toList
    let path := cs.takeWhile fun c => c != '?' && c != '#'
    if !path.all inPath then .error .badCharacter
    else match cs.drop path.length with
      | '?' :: rest => do return ⟨String.ofList path, some (← readQuery rest)⟩
      | _ => .ok ⟨String.ofList path, none⟩

/-! ## Addresses -/

def inScheme (c : Char) : Bool := c.isAlphanum || "+-.~".contains c

/-- Whether a character may stand in an authority, which a slash, a question mark or a number sign
ends.  A per cent sign may stand there for now. -/
def inAuthority (c : Char) : Bool := c.isAlphanum || "!$&'()*+,-.:;=@[]_~%".contains c

structure Authority where
  /-- The colons behind the last at sign or bracket. -/
  colons : Nat
  opened : Bool
  closed : Bool
  /-- Whether there is a per cent sign behind the last at sign or bracket. -/
  percent : Bool
  /-- Whether the last character is an at sign. -/
  atLast : Bool

/-- Reads one character of an authority.  A name and a password may stand before an at sign, and a
number for the host in brackets; neither of them counts for what follows. -/
def Authority.read (a : Authority) (c : Char) : Except Fault Authority :=
  let a := { a with atLast := c == '@' }
  if !inAuthority c then .error .badCharacter
  else match c with
    | ':' => if 8 ≤ a.colons then .error .badAuthority else .ok { a with colons := a.colons + 1 }
    | '[' => if a.percent || a.opened then .error .badAuthority else .ok { a with opened := true }
    | ']' =>
      if !a.opened || a.closed then .error .badAuthority
      else .ok { a with closed := true, colons := 0, percent := false }
    | '@' => .ok { a with colons := 0, percent := false }
    | '%' => .ok { a with percent := true }
    | _ => .ok a

def checkAuthority (cs : List Char) : Except Fault (List Char) := do
  let authority := cs.takeWhile fun c => c != '/' && c != '?' && c != '#'
  let a ← authority.foldlM Authority.read ⟨0, false, false, false, false⟩
  if a.opened != a.closed || 1 < a.colons || a.atLast || a.percent then throw .badAuthority
  return cs.drop authority.length

def afterScheme? (cs : List Char) : Except Fault (Option (List Char)) :=
  let scheme := cs.takeWhile inScheme
  match cs.drop scheme.length with
  | ':' :: '/' :: '/' :: rest =>
    if 64 < scheme.length then .error .schemeTooLong else .ok (some rest)
  | _ => .ok none

/-- Whether a text is an address: a path, an authority alone, or a scheme with an authority and
perhaps a path. -/
def check (text : String) : Except Fault Unit := do
  if maxLength < text.utf8ByteSize then throw .tooLong
  match text.toList with
  | [] => throw .empty
  | ['*'] => return ()
  | '/' :: _ => let _ ← parse text
  | [c] =>
    if !(← checkAuthority [c]).isEmpty then throw .badCharacter
  | cs =>
    match ← afterScheme? cs with
    | none => if !(← checkAuthority cs).isEmpty then throw .badFormat
    | some rest =>
      let path ← checkAuthority rest
      if path.length = rest.length then throw .badFormat
      let _ ← parse (String.ofList path)

/-! ## Parameters -/

def isPlain (b : UInt8) : Bool :=
  let c := Char.ofNat b.toNat
  b < 0x80 && (c.isAlphanum || c == '*' || c == '-' || c == '.' || c == '_')

def encodeByte (b : UInt8) : List Char :=
  if b = 0x20 then ['+']
  else if isPlain b then [Char.ofNat b.toNat]
  else '%' :: (Checksum.hex 2 b.toNat).map Char.toUpper

def encode (s : String) : String := String.ofList (s.toUTF8.toList.flatMap encodeByte)

end SpinFleet.Uri
