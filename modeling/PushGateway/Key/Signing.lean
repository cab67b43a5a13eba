import PushGateway.Key.Verifier
/-!
Signing keys: private P-256 keys read from a strict PKCS#8 document, which must hold the public key too.
-/

namespace PushGateway

inductive SigningKeyFault where
  | invalidEncoding
  | wrongAlgorithm
  | versionNotSupported
  | invalidComponent
  | inconsistentComponents
  deriving DecidableEq, Repr

namespace SigningKeyFault

def message : SigningKeyFault → String
  | .invalidEncoding => "InvalidEncoding"
  | .wrongAlgorithm => "WrongAlgorithm"
  | .versionNotSupported => "VersionNotSupported"
  | .invalidComponent => "InvalidComponent"
  | .inconsistentComponents => "InconsistentComponents"

end SigningKeyFault

structure SigningKey where
  scalar : Nat
  point : P256.Point
  derived : Ecdsa.publicKey? scalar = some point

namespace SigningKey

open Der

/-- The algorithm identifier of elliptic-curve keys on P-256, without its outer header. -/
def ecAlgorithm : Bytes :=
  [0x06, 0x07, 0x2A, 0x86, 0x48, 0xCE, 0x3D, 0x02, 0x01, 0x06, 0x08, 0x2A, 0x86, 0x48, 0xCE, 0x3D, 0x03,
    0x01, 0x07]

def curveIdentifier : Bytes := ecAlgorithm.drop 9

abbrev Reading (α : Type) := Except SigningKeyFault α

/-- A part that must be readable. -/
def encoded {α : Type} : Option α → Reading α
  | some a => .ok a
  | none => .error .invalidEncoding

/-- A part that must take up all of its container. -/
def whole {α : Type} : α × Bytes → Reading α
  | (a, []) => .ok a
  | _ => .error .invalidEncoding

/-- Reads an element's content with a reader that must use it up, and returns the rest. -/
def nested {α : Type} (tag : UInt8) (reader : Bytes → Reading (α × Bytes)) (bs : Bytes) :
    Reading (α × Bytes) := do
  let (content, rest) ← encoded (Strict.element? tag bs)
  let a ← reader content >>= whole
  return (a, rest)

def startsWith (tag : UInt8) (bs : Bytes) : Bool := bs.head? = some tag

/-- Reads the content of the outer document: the octets of the inner one. Attributes after the key are
passed over. -/
def readOuter (content : Bytes) : Reading (Bytes × Bytes) := do
  let (version, rest) ← encoded (Strict.small? content)
  if version > 1 then throw .versionNotSupported
  let (algorithm, rest) ← encoded (Strict.element? Strict.sequenceTag rest)
  if algorithm ≠ ecAlgorithm then throw .wrongAlgorithm
  if version ≠ 0 then throw .versionNotSupported
  let (inner, rest) ← encoded (Strict.element? Strict.octetStringTag rest)
  if startsWith (Strict.contextTag 0) rest then
    let (_, rest) ← encoded (Strict.element? (Strict.contextTag 0) rest)
    return (inner, rest)
  else return (inner, rest)

/-- Reads the content of a bit string without unused bits. -/
def readBits : Bytes → Reading (Bytes × Bytes)
  | 0 :: data => .ok (data, [])
  | _ => .error .invalidEncoding

def readCurve (bs : Bytes) : Reading Bytes :=
  if startsWith (Strict.contextTag 0) bs then do
    let (curve, rest) ← encoded (Strict.element? (Strict.contextTag 0) bs)
    if curve ≠ curveIdentifier then throw .wrongAlgorithm
    return rest
  else .ok bs

/-- Reads the content of the inner document: the octets of the scalar and of the public key. -/
def readInner (content : Bytes) : Reading ((Bytes × Bytes) × Bytes) := do
  let (version, rest) ← encoded (Strict.small? content)
  if version ≠ 1 then throw .versionNotSupported
  let (scalar, rest) ← encoded (Strict.element? Strict.octetStringTag rest)
  let rest ← readCurve rest
  let (point, rest) ← nested (Strict.contextTag 1) (nested Strict.bitStringTag readBits) rest
  return ((scalar, point), rest)

/-- The key of a scalar's and a public key's octets, which must belong together. -/
def ofComponents (scalar point : Bytes) : Reading SigningKey :=
  let n := P256.ofOctets scalar
  if scalar.length ≠ 32 ∨ n = 0 ∨ P256.order ≤ n then .error .invalidComponent
  else match h : Ecdsa.publicKey? n with
    | none => .error .invalidComponent
    | some p => if p.encode = point then .ok ⟨n, p, h⟩ else .error .inconsistentComponents

def ofPkcs8 (bs : Bytes) : Reading SigningKey := do
  let inner ← nested Strict.sequenceTag readOuter bs >>= whole
  let (scalar, point) ← nested Strict.sequenceTag readInner inner >>= whole
  ofComponents scalar point

def publicKey (k : SigningKey) : Bytes := k.point.encode

end SigningKey
end PushGateway
