import SpinFleet.Text.Printable
/-!
# Quoted texts in messages

A message that quotes a text must show where it ends and which characters it has, so quotes and
backslashes are escaped, and every character that a reader could not tell apart from its
neighbours is written by its number.
-/
namespace SpinFleet.Text

def hexText (n : Nat) : String := String.ofList (Nat.toDigits 16 n)

def quoteChar (c : Char) : String :=
  match c with
  | '"' => "\\\""
  | '\\' => "\\\\"
  | '\x00' => "\\0"
  | '\t' => "\\t"
  | '\n' => "\\n"
  | '\r' => "\\r"
  | c => if isPrintable c then String.singleton c else "\\u\x7b" ++ hexText c.toNat ++ "\x7d"

def quoted (s : String) : String :=
  s.foldl (fun acc c => acc ++ quoteChar c) "\"" ++ "\""

end SpinFleet.Text
