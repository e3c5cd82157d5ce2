import SpinFleet.Codec.Value
/-!
# Sensitive texts

The value of an option may come out of a `Secret`.  A sensitive text shows nothing of itself in
messages; only the rendered configuration reveals it.
-/
namespace SpinFleet

structure Sensitive where
  reveal : String
deriving DecidableEq

namespace Sensitive

def shown (_ : Sensitive) : String := "REDACTED"

def shownList (xs : List Sensitive) : String := "[" ++ ", ".intercalate (xs.map shown) ++ "]"

instance : Repr Sensitive := ⟨fun s _ => s.shown⟩
instance : ToString Sensitive := ⟨shown⟩
instance : Inhabited Sensitive := ⟨⟨""⟩⟩

def empty : Sensitive := ⟨""⟩

def codec : Codec Sensitive where
  decode j := Sensitive.mk <$> Codec.string.decode j
  encode s := .string s.reveal

end Sensitive

end SpinFleet
