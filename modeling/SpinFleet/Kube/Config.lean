import SpinFleet.Kube.Meta
/-!
# Secrets and config maps

The two kinds of objects that hold values by key.
-/
namespace SpinFleet

structure Secret where
  metadata : ObjectMeta
  data : Option (Dict String (List UInt8))
  stringData : Option (Dict String String)
  carried : Carried

namespace Secret

def record : Record Secret where
  name := "Secret"
  start := ⟨.empty, none, none, .empty⟩
  fields := [
    .fixed "apiVersion" "v1",
    .optional "data" (.dict .bytes) data fun a x => { x with data := a },
    .fixed "kind" "Secret",
    .plain "metadata" ObjectMeta.codec .empty metadata fun a x => { x with metadata := a },
    .optional "stringData" (.dict .string) stringData fun a x => { x with stringData := a }]
    ++ Field.carriedAll carried (fun a x => { x with carried := a })
      [("immutable", .boolean), ("type", .text)]

def codec : Codec Secret := record.lenient

def bytes? (s : Secret) (k : String) : Option (List UInt8) := s.data >>= (·.get? k)

/-- The text of a key: its bytes, or the text that is to become them. -/
def text? (s : Secret) (k : String) : Option String :=
  (s.bytes? k).map Utf8.decodeLossy <|> (s.stringData >>= (·.get? k))

end Secret

structure ConfigMap where
  metadata : ObjectMeta
  data : Option (Dict String String)
  carried : Carried

namespace ConfigMap

def record : Record ConfigMap where
  name := "ConfigMap"
  start := ⟨.empty, none, .empty⟩
  fields := [
    .fixed "apiVersion" "v1",
    .optional "data" (.dict .string) data fun a x => { x with data := a },
    .fixed "kind" "ConfigMap",
    .plain "metadata" ObjectMeta.codec .empty metadata fun a x => { x with metadata := a }]
    ++ Field.carriedAll carried (fun a x => { x with carried := a })
      [("binaryData", .dict .bytes), ("immutable", .boolean)]

def codec : Codec ConfigMap := record.lenient

def text? (c : ConfigMap) (k : String) : Option String := c.data >>= (·.get? k)

end ConfigMap

end SpinFleet
