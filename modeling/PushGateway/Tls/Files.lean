import PushGateway.File.Fault
import PushGateway.Pem.Section
import PushGateway.Tls.Provider
/-!
Certificates, the private key and trust anchors from PEM files. Each reader takes what came of reading a
file and the path by which its errors name the file.
-/

namespace PushGateway.Tls

inductive Lack where
  | noCertificates
  | noPrivateKey
  | badAnchor (fault : CertificateFault)
  deriving DecidableEq, Repr

namespace Lack

def message : Lack → String
  | .noCertificates => "no certificates found"
  | .noPrivateKey => "no private key found"
  | .badAnchor fault => fault.message

end Lack

inductive FileError where
  | unreadable (path : String) (fault : File.Fault)
  | malformed (path : String) (fault : Pem.Fault)
  | lacking (path : String) (lack : Lack)
  deriving DecidableEq, Repr

namespace FileError

def message : FileError → String
  | .unreadable path fault => s!"failed to read {path}: {fault.message}"
  | .malformed path fault => s!"failed to read {path}: {fault.message}"
  | .lacking path lack => s!"invalid PEM in {path}: {lack.message}"

end FileError

def KeyForm.ofKind? : Pem.Kind → Option KeyForm
  | .rsaPrivateKey => some .pkcs1
  | .ecPrivateKey => some .sec1
  | .privateKey => some .pkcs8
  | _ => none

def certificate? (s : Pem.Section) : Option Bytes := if s.kind = .certificate then some s.content else none

def PrivateKey.ofSection? (s : Pem.Section) : Option PrivateKey :=
  (KeyForm.ofKind? s.kind).map fun form => ⟨form, s.content⟩

/-- Every certificate of a file, at least one; all of the file must be readable. -/
def certificates (path : String) (file : Except File.Fault Bytes) : Except FileError (List Bytes) :=
  match file with
  | .error fault => .error (.unreadable path fault)
  | .ok bs =>
    let contents := Pem.read bs
    match contents.fault, contents.sections.filterMap certificate? with
    | some fault, _ => .error (.malformed path fault)
    | none, [] => .error (.lacking path .noCertificates)
    | none, certs => .ok certs

/-- The first private key of a file; what follows it is not judged. -/
def privateKey (path : String) (file : Except File.Fault Bytes) : Except FileError PrivateKey :=
  match file with
  | .error fault => .error (.unreadable path fault)
  | .ok bs =>
    let contents := Pem.read bs
    match contents.sections.findSome? PrivateKey.ofSection?, contents.fault with
    | some key, _ => .ok key
    | none, some fault => .error (.malformed path fault)
    | none, none => .error (.lacking path .noPrivateKey)

/-- The anchors of certificates; the first unusable one is reported. -/
def anchors : List Bytes → Except CertificateFault (List TrustAnchor)
  | [] => .ok []
  | c :: cs =>
    match TrustAnchor.read c with
    | .error fault => .error fault
    | .ok anchor => (anchors cs).map (anchor :: ·)

def clientRoots (path : String) (file : Except File.Fault Bytes) : Except FileError (List TrustAnchor) :=
  match certificates path file with
  | .error e => .error e
  | .ok certs =>
    match anchors certs with
    | .error fault => .error (.lacking path (.badAnchor fault))
    | .ok roots => .ok roots

end PushGateway.Tls
