import PushGateway.Der.Strict
/-!
Certificates as the TLS layer reads them: strict DER, version 3, and only those extensions that matter to
the verification of a client. Reading judges the structure; no signature and no date is judged here.
-/

namespace PushGateway.Tls

inductive CertificateFault where
  | badEncoding
  | unsupportedVersion
  | signatureAlgorithmMismatch
  | unsupportedCriticalExtension
  | extensionValueInvalid
  deriving DecidableEq, Repr

namespace CertificateFault

/-- The fault as diagnostics name it; only the first has a name of its own. -/
def name : CertificateFault → String
  | .badEncoding => "BadEncoding"
  | .unsupportedVersion => "Other(OtherError(UnsupportedCertVersion))"
  | .signatureAlgorithmMismatch => "Other(OtherError(SignatureAlgorithmMismatch))"
  | .unsupportedCriticalExtension => "Other(OtherError(UnsupportedCriticalExtension))"
  | .extensionValueInvalid => "Other(OtherError(ExtensionValueInvalid))"

def message (f : CertificateFault) : String := s!"invalid peer certificate: {f.name}"

end CertificateFault

/-- The standard extensions that are kept, each with its content. -/
structure Extensions where
  keyUsage : Option Bytes := none
  subjectAltName : Option Bytes := none
  basicConstraints : Option Bytes := none
  nameConstraints : Option Bytes := none
  revocationPoints : Option Bytes := none
  extendedKeyUsage : Option Bytes := none
  deriving DecidableEq, Repr

structure Certificate where
  /-- The element that the signature covers. -/
  signedPart : Bytes
  signatureAlgorithm : Bytes
  signature : Bytes
  serial : Bytes
  issuer : Bytes
  validity : Bytes
  subject : Bytes
  publicKeyInfo : Bytes
  extensions : Extensions
  deriving DecidableEq, Repr

open Der

abbrev Reading (α : Type) := Except CertificateFault α

/-- A part that must be readable. -/
def encoded {α : Type} : Option α → Reading α
  | some a => .ok a
  | none => .error .badEncoding

/-- A part that must take up all of its container. -/
def whole {α : Type} : α × Bytes → Reading α
  | (a, []) => .ok a
  | _ => .error .badEncoding

def integer (bs : Bytes) : Reading (Bytes × Bytes) := encoded (Strict.element? Strict.integerTag bs)

def sequence (bs : Bytes) : Reading (Bytes × Bytes) := encoded (Strict.element? Strict.sequenceTag bs)

/-- The octets of a bit string without unused bits. -/
def bits (bs : Bytes) : Reading (Bytes × Bytes) := do
  let (content, rest) ← encoded (Strict.element? Strict.bitStringTag bs)
  match content with
  | 0 :: data => return (data, rest)
  | _ => throw .badEncoding

namespace Extensions

/-- Keeps an extension's content, which may be kept only once. -/
def once (kept : Option Bytes) (content : Reading Bytes) : Reading (Option Bytes) :=
  match kept with
  | some _ => .error .extensionValueInvalid
  | none => content.map some

/-- An extension that is not kept must not be critical. -/
def pass (es : Extensions) (critical : Bool) : Reading Extensions :=
  if critical then .error .unsupportedCriticalExtension else .ok es

/-- Adds an extension: the kept ones stand under the standard arc 2.5.29. -/
def add (es : Extensions) (identifier : Bytes) (critical : Bool) (value : Bytes) : Reading Extensions :=
  let list := sequence value >>= whole
  match identifier with
  | [0x55, 0x1D, 15] => do return { es with keyUsage := ← once es.keyUsage (.ok value) }
  | [0x55, 0x1D, 17] => do return { es with subjectAltName := ← once es.subjectAltName list }
  | [0x55, 0x1D, 19] => do return { es with basicConstraints := ← once es.basicConstraints list }
  | [0x55, 0x1D, 30] => do return { es with nameConstraints := ← once es.nameConstraints list }
  | [0x55, 0x1D, 31] => do return { es with revocationPoints := ← once es.revocationPoints list }
  | [0x55, 0x1D, 37] => do return { es with extendedKeyUsage := ← once es.extendedKeyUsage list }
  | _ => es.pass critical

/-- Reads whether an extension is critical; it is not when nothing is said. -/
def critical (bs : Bytes) : Reading (Bool × Bytes) :=
  if bs.head? = some Strict.booleanTag then do
    let (content, rest) ← encoded (Strict.element? Strict.booleanTag bs)
    match content with
    | [0xFF] => return (true, rest)
    | [0x00] => return (false, rest)
    | _ => throw .badEncoding
  else .ok (false, bs)

def readOne (es : Extensions) (content : Bytes) : Reading Extensions := do
  let (identifier, rest) ← encoded (Strict.element? Strict.objectIdentifierTag content)
  let (isCritical, rest) ← critical rest
  let value ← encoded (Strict.element? Strict.octetStringTag rest) >>= whole
  es.add identifier isCritical value

/-- Reads a list of extensions; each takes two octets or more, which bounds their number. -/
def readAll (es : Extensions) : Nat → Bytes → Reading Extensions
  | _, [] => .ok es
  | 0, _ => .error .badEncoding
  | fuel + 1, bs => do
    let (content, rest) ← sequence bs
    readAll (← es.readOne content) fuel rest

/-- Reads what follows the public key: nothing, or one list of extensions. -/
def read (bs : Bytes) : Reading Extensions :=
  if bs = [] then .ok {}
  else do
    let tagged ← encoded (Strict.element? (Strict.contextTag 3) bs) >>= whole
    let list ← sequence tagged >>= whole
    readAll {} list.length list

end Extensions

namespace Certificate

/-- Reads the version, which must be given and be the third. -/
def version (bs : Bytes) : Reading Bytes :=
  match Strict.element? (Strict.contextTag 0) bs with
  | none => .error .unsupportedVersion
  | some (content, rest) => do
    let (n, tail) ← encoded (Strict.small? content)
    if n ≠ 2 ∨ tail ≠ [] then throw .unsupportedVersion
    return rest

/-- The three parts of a signed document: the signed element, the algorithm and the signature. -/
structure Signed where
  part : Bytes
  content : Bytes
  algorithm : Bytes
  signature : Bytes

def signed (bs : Bytes) : Reading Signed := do
  let outer ← sequence bs >>= whole
  let (content, rest) ← sequence outer
  let part := outer.take (outer.length - rest.length)
  let (algorithm, rest) ← sequence rest
  let signature ← bits rest >>= whole
  return ⟨part, content, algorithm, signature⟩

def read (bs : Bytes) : Reading Certificate := do
  let outer ← signed bs
  let rest ← version outer.content
  let (serial, rest) ← integer rest
  let (algorithm, rest) ← sequence rest
  if algorithm ≠ outer.algorithm then throw .signatureAlgorithmMismatch
  let (issuer, rest) ← sequence rest
  let (validity, rest) ← sequence rest
  let (subject, rest) ← sequence rest
  let (publicKeyInfo, rest) ← sequence rest
  let extensions ← Extensions.read rest
  return ⟨outer.part, outer.algorithm, outer.signature, serial, issuer, validity, subject, publicKeyInfo, extensions⟩

end Certificate

/-- A name and key that client certificates may be issued by, and the names that these may bear. -/
structure TrustAnchor where
  subject : Bytes
  publicKeyInfo : Bytes
  nameConstraints : Option Bytes := none
  deriving DecidableEq, Repr

namespace TrustAnchor

/-- Reads a certificate of the first version, which has no version number and no extensions. -/
def readFirstVersion (bs : Bytes) : Reading TrustAnchor := do
  let outer ← Certificate.signed bs
  let (_, rest) ← integer outer.content
  let (_, rest) ← sequence rest
  let (_, rest) ← sequence rest
  let (_, rest) ← sequence rest
  let (subject, rest) ← sequence rest
  let publicKeyInfo ← sequence rest >>= whole
  return { subject, publicKeyInfo }

/-- The anchor of a trusted certificate, whoever issued it and whatever it may be used for. -/
def read (bs : Bytes) : Reading TrustAnchor :=
  match Certificate.read bs with
  | .ok c => .ok ⟨c.subject, c.publicKeyInfo, c.extensions.nameConstraints⟩
  | .error .unsupportedVersion =>
    match readFirstVersion bs with
    | .ok anchor => .ok anchor
    | .error _ => .error .badEncoding
  | .error fault => .error fault

end TrustAnchor
end PushGateway.Tls
