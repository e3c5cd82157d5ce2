/-!
# What the machine refuses

The operator reads a few files of the machine that it runs on, and listens at one of its addresses.
The machine may refuse each of that, for one of these reasons.
-/
namespace SpinFleet

inductive HostFault
  | notFound
  | isDirectory
  | notText
  | denied
deriving DecidableEq, Repr

def HostFault.message : HostFault → String
  | .notFound => "No such file or directory (os error 2)"
  | .isDirectory => "Is a directory (os error 21)"
  | .notText => "stream did not contain valid UTF-8"
  | .denied => "Permission denied (os error 13)"

end SpinFleet
