import SpinFleet.Child.Storage
import SpinFleet.Kube.Config
/-!
# The `Secret`s of an app

One holds the rendered configuration and is named after it, so that a changed configuration is a
new `Secret` and makes new pods.  The other holds certificates and is shared by the apps of a
namespace.
-/
namespace SpinFleet

def defaultCaSecret : String := "spin-ca"

def App.configSecret (a : App) (name text : String) : Except Error Secret := do
  let owner ← a.owner
  return {
    metadata := { ObjectMeta.empty with
      name := some name
      ns := a.metadata.ns
      labels := some (appLabels a.name)
      ownerReferences := some [owner] }
    data := some (.ofList [(runtimeConfigKey, Utf8.encode text)])
    stringData := none
    carried := .empty }

def caSecret (ns bundle : String) : Secret where
  metadata := { ObjectMeta.empty with name := some defaultCaSecret, ns := some ns }
  data := some (.ofList [(Storage.caKey, Utf8.encode bundle)])
  stringData := none
  carried := .empty

/-! ## Generated `Secret`s that nobody mounts any more -/

def isHexDigit (c : Char) : Bool := c.isDigit || ('a' ≤ c && c ≤ 'f') || ('A' ≤ c && c ≤ 'F')

/-- Whether a text is what stands behind the app's name in a generated name. -/
def isChecksum (cs : List Char) : Bool := cs.length == 8 && cs.all isHexDigit

def dropFront? : List Char → List Char → Option (List Char)
  | [], cs => some cs
  | _ :: _, [] => none
  | p :: ps, c :: cs => if p = c then dropFront? ps cs else none

def isGeneratedName (app name : String) : Bool :=
  match dropFront? (app.toList ++ ['-']) name.toList with
  | some rest => isChecksum rest
  | none => false

/-- Whether a `Secret` is a generated one of an app, other than the one to keep. -/
def isStale (app : String) (keep : Option String) (s : Secret) : Bool :=
  (s.bytes? runtimeConfigKey).isSome && some s.metadata.anyName != keep
    && isGeneratedName app s.metadata.anyName

/-- The names of the generated `Secret`s of an app other than the one to keep.  `Secret`s of the
app's author are left alone, even if they carry the app's label. -/
def staleSecrets (app : String) (secrets : List Secret) (keep : Option String) : List String :=
  (secrets.filter (isStale app keep)).map fun s => s.metadata.anyName

end SpinFleet
