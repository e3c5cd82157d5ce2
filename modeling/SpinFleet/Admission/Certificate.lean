import SpinFleet.Error
import SpinFleet.Host
import SpinFleet.Text.Pem
/-!
# The serving certificate

The admission server proves who it is by a certificate, which is read from two files when it
starts.  Both files are read before either of them is looked at; then the certificates have to make
sense, there has to be one key and no more, and there has to be a certificate to go with it.
-/
namespace SpinFleet.Admission

structure CertificateFiles where
  certificates : Except HostFault String
  key : Except HostFault String

inductive CertificateFault
  | unreadable (path : String) (fault : HostFault)
  | malformed (fault : Pem.Fault)
  /-- There is no key, or more than one. -/
  | notOneKey
  /-- The bytes of the key are in no known format. -/
  | unknownKeyFormat
  | noCertificate
deriving DecidableEq, Repr

def CertificateFault.message : CertificateFault → String
  | .unreadable path f => "failed to read from file \x60" ++ path ++ "\x60: " ++ f.message
  | .malformed f => f.message
  | .notOneKey => "private key format not supported"
  | .unknownKeyFormat => "unknown or invalid key format"
  | .noCertificate => "peer sent no certificates"

def keyLabels : List String := ["PRIVATE KEY", "RSA PRIVATE KEY", "EC PRIVATE KEY"]

def sequenceBody? : List UInt8 → Option (List UInt8)
  | 0x30 :: n :: rest =>
    let more := if n < 0x80 then 0 else n.toNat - 0x80
    if more ≤ rest.length then some (rest.drop more) else none
  | _ => none

/-- Whether some bytes begin like a key in one of the three formats: a version, and then what the
format has next. -/
def isKey (bytes : List UInt8) : Bool :=
  match sequenceBody? bytes with
  | some (0x02 :: 0x01 :: _ :: 0x30 :: _) => true
  | some (0x02 :: 0x01 :: 0x00 :: 0x02 :: _) => true
  | some (0x02 :: 0x01 :: 0x01 :: 0x04 :: _) => true
  | _ => false

def readable (path : String) : Except HostFault String → Except CertificateFault String
  | .ok text => .ok text
  | .error f => .error (.unreadable path f)

def sectionsOf (text : String) : Except CertificateFault (List Pem.Section) :=
  match (Pem.sections text).mapM id with
  | .ok ss => .ok ss
  | .error f => .error (.malformed f)

/-- The keys of a file.  Sections that make no sense are skipped. -/
def keysOf (text : String) : List (List UInt8) :=
  ((Pem.sections text).filterMap Except.toOption).filter (keyLabels.contains ·.label)
    |>.map Pem.Section.bytes

def CertificateFiles.check (dir : String) (files : CertificateFiles) :
    Except CertificateFault Unit := do
  let certificates ← readable (dir ++ "/tls.crt") files.certificates
  let key ← readable (dir ++ "/tls.key") files.key
  let sections ← sectionsOf certificates
  match keysOf key with
  | [k] => if !isKey k then throw .unknownKeyFormat
  | _ => throw .notOneKey
  if !sections.any (·.label == "CERTIFICATE") then throw .noCertificate

/-- Starts the server: the certificate is loaded, and then the address is taken. -/
def start (dir : String) (files : CertificateFiles) (address : Except HostFault Unit) :
    Except Error Unit :=
  match files.check dir, address with
  | .error f, _ =>
    .error (.internal "webhook"
      ("failed to load serving certificate from " ++ dir ++ ": " ++ f.message))
  | .ok _, .error f => .error (.internal "webhook" f.message)
  | .ok _, .ok _ => .ok ()

end SpinFleet.Admission
