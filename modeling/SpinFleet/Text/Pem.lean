import SpinFleet.Text.Base64
import SpinFleet.Text.Quoted
/-!
# Sections of certificate files

Certificates and keys stand in text files as Base64 between two marks that bear a label.  Whatever
stands outside of sections is skipped, and so are sections with a label that nobody knows.  A file
is read section by section; one that makes no sense does not keep the next from being read.
-/
namespace SpinFleet.Pem

structure Section where
  label : String
  bytes : List UInt8
deriving DecidableEq, Repr

inductive Fault
  /-- Its first mark has no end. -/
  | illegalStart (line : String)
  /-- Its last mark is missing. -/
  | missingEnd (mark : String)
  | badBase64 (fault : Base64.Fault)
deriving DecidableEq, Repr

def Fault.message : Fault → String
  | .illegalStart line => "illegal section start: " ++ Text.quoted line
  | .missingEnd mark => "section end " ++ Text.quoted mark ++ " missing"
  | .badBase64 (.symbol b _) => "InvalidCharacter(" ++ toString b.toNat ++ ")"
  | .badBase64 _ => "InvalidPadding"

def labels : List String := [
  "CERTIFICATE", "PUBLIC KEY", "RSA PRIVATE KEY", "PRIVATE KEY", "EC PRIVATE KEY", "X509 CRL",
  "CERTIFICATE REQUEST", "ECHCONFIG"]

def opening : List Char := "-----BEGIN ".toList

def closing (label : String) : String := "-----END " ++ label ++ "-----"

/-- The label in a first mark, which five dashes end.  Blanks among and behind them do not
matter. -/
def label? (line : List Char) : Option String :=
  let tail := (line.reverse.takeWhile fun c => c == '-' || c == ' ').reverse
  let marks := tail.dropWhile (· == ' ')
  if tail.count '-' = 5 then
    some (String.ofList ((line.take (line.length - marks.length)).drop opening.length))
  else none

def decodeBody (label : String) (body : List Char) : Except Fault Section :=
  match Base64.decode (String.ofList (body.filter fun c => c != ' ' && c != '\t')) with
  | .ok bytes => .ok ⟨label, bytes⟩
  | .error f => .error (.badBase64 f)

/-- Reads lines, in a section whose label and whose body so far are given, or outside of one.  A
section that another one interrupts leaves its body to it. -/
def readLines : Option (String × List Char) → List (List Char) → List (Except Fault Section)
  | none, [] => []
  | some (label, _), [] => [.error (.missingEnd (closing label))]
  | current, line :: lines =>
    if opening.isPrefixOf line then
      match label? line with
      | none => .error (.illegalStart (String.ofList line)) :: readLines none lines
      | some label => readLines (some (label, (current.map Prod.snd).getD [])) lines
    else match current with
      | none => readLines none lines
      | some (label, body) =>
        if (closing label).toList.isPrefixOf line then
          if labels.contains label then decodeBody label body :: readLines none lines
          else readLines none lines
        else readLines (some (label, body ++ line)) lines

def linesOf (cs : List Char) : List (List Char) := cs.splitOnP fun c => c == '\n' || c == '\r'

def sections (text : String) : List (Except Fault Section) := readLines none (linesOf text.toList)

end SpinFleet.Pem
