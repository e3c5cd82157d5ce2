import SpinFleet.Error
import SpinFleet.Host
import SpinFleet.Text.Utf8
/-!
# The trust bundle

An executor may ask for the machine's own certificates to be given to its apps.  They are read once,
when the operator starts: any text is taken that holds at least one certificate.
-/
namespace SpinFleet.TrustBundle

def opening : String := "-----BEGIN CERTIFICATE-----"

def occurs (part : List Char) : List Char → Bool
  | [] => part.isEmpty
  | c :: cs => part.isPrefixOf (c :: cs) || occurs part cs

def failure (detail : String) : Error := .internal "cacerts" detail

def load (path : String) (content : Except HostFault (List UInt8)) : Except Error String :=
  let unreadable (f : HostFault) : Except Error String :=
    .error (failure ("failed to read CA bundle " ++ path ++ ": " ++ f.message))
  match content with
  | .error f => unreadable f
  | .ok bytes =>
    match Utf8.decode? bytes with
    | none => unreadable .notText
    | some text =>
      if occurs opening.toList text.toList then .ok text
      else .error (failure ("CA bundle " ++ path ++ " contains no certificates"))

end SpinFleet.TrustBundle
