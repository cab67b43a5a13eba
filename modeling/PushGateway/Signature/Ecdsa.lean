import PushGateway.Curve.P256
import PushGateway.Hash.Sha256
import PushGateway.Der.Strict
/-!
ECDSA over P-256 with SHA-256, and the two encodings of a signature: both numbers in 32 octets each, or
a DER sequence of two integers. The form is told by the length alone: 64 octets are the fixed form.
-/

namespace PushGateway

structure Signature where
  r : Nat
  s : Nat
  deriving DecidableEq, Repr

namespace Signature

def inRange (sig : Signature) : Bool :=
  1 ≤ sig.r ∧ sig.r < P256.order ∧ 1 ≤ sig.s ∧ sig.s < P256.order

def fixedLength : Nat := 64

def encodeFixed (sig : Signature) : Bytes := P256.octets32 sig.r ++ P256.octets32 sig.s

def decodeFixed? (bs : Bytes) : Option Signature :=
  if bs.length = fixedLength then some ⟨P256.ofOctets (bs.take 32), P256.ofOctets (bs.drop 32)⟩ else none

open Der in
def encodeDer (sig : Signature) : Bytes :=
  Strict.encode Strict.sequenceTag
    (Strict.encode Strict.integerTag (Strict.integerContent sig.r) ++
      Strict.encode Strict.integerTag (Strict.integerContent sig.s))

open Der in
def decodeDer? (bs : Bytes) : Option Signature :=
  match Strict.element? Strict.sequenceTag bs with
  | some (content, []) =>
    match Strict.natural? content with
    | some (r, rest) =>
      match Strict.natural? rest with
      | some (s, []) => some ⟨P256.ofOctets r, P256.ofOctets s⟩
      | _ => none
    | none => none
  | _ => none

/-- Reads a signature in the form that its length tells. -/
def decode? (bs : Bytes) : Option Signature :=
  if bs.length = fixedLength then decodeFixed? bs else decodeDer? bs

end Signature

namespace Ecdsa

open P256

def messageNumber (message : Bytes) : Nat := ofOctets (Sha256.digest message) % order

/-- Whether a signature was made over the message by the owner of a public key. -/
def verify (key : Point) (message : Bytes) (sig : Signature) : Bool :=
  sig.inRange &&
    let w := inverse order sig.s
    let u := messageNumber message * w % order
    let v := sig.r * w % order
    let sum := (Jacobian.multiple 256 u (.ofPoint generator)).add (Jacobian.multiple 256 v (.ofPoint key))
    match sum.toPoint? with
    | none => false
    | some p => p.x % order = sig.r

/-- Whether a signature was made over the message by the owner of the key with an uncompressed encoding. -/
def verifyWith (key message : Bytes) (sig : Signature) : Bool :=
  match Point.decode? key with
  | some p => p.onCurve && verify p message sig
  | none => false

def publicKey? (scalar : Nat) : Option Point := (Jacobian.multiple 256 scalar (.ofPoint generator)).toPoint?

/-- Signs with the given nonce; a nonce that yields a zero is of no use. -/
def sign? (scalar nonce : Nat) (message : Bytes) : Option Signature :=
  match publicKey? nonce with
  | none => none
  | some p =>
    let r := p.x % order
    let s := inverse order nonce * (messageNumber message + r * scalar) % order
    if r = 0 ∨ s = 0 then none else some ⟨r, s⟩

end Ecdsa
end PushGateway
