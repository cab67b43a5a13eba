import PushGateway.Der.Oid
import PushGateway.Signature.Ecdsa
/-!
Verification keys: points of P-256, given uncompressed or inside a subject public key document.
-/

namespace PushGateway

/-- The one algorithm that tokens are signed and verified with. -/
def tokenAlgorithm : String := "ES256"

inductive KeyFault where
  | der
  | notEc (oid : String)
  | otherCurve
  | notUncompressed
  | offCurve
  deriving DecidableEq, Repr

namespace KeyFault

def message : KeyFault → String
  | .der => Der.complaint
  | .notEc oid => s!"not an EC key ({oid})"
  | .otherCurve => "key is not on the P-256 curve"
  | .notUncompressed => "expected an uncompressed P-256 point"
  | .offCurve => "point is not on the P-256 curve"

end KeyFault

inductive RegistrationError where
  | unsupportedAlgorithm (name : String)
  | invalidKey (fault : KeyFault)
  deriving DecidableEq, Repr

namespace RegistrationError

def message : RegistrationError → String
  | .unsupportedAlgorithm name => s!"unsupported verification algorithm: {name}"
  | .invalidKey fault => s!"invalid public key: {fault.message}"

end RegistrationError

/-- A subject public key document: its algorithm, the algorithm's parameters and the key's octets. -/
structure SubjectPublicKey where
  algorithm : Der.Oid
  parameters : Option Der.Element
  key : Bytes
  deriving DecidableEq, Repr

namespace SubjectPublicKey

open Der

def algorithm? (content : Bytes) : Option (Oid × Option Element) :=
  match oid? content with
  | none => none
  | some (oid, rest) =>
    match rest with
    | [] => some (oid, none)
    | _ => (element? rest).map fun (e, _) => (oid, some e)

/-- Reads a document at the head of the input and returns the rest. -/
def read? (bs : Bytes) : Option (SubjectPublicKey × Bytes) :=
  (tagged? Tag.sequence bs).bind fun (outer, rest) =>
    (tagged? Tag.sequence outer.content).bind fun (identifier, content) =>
      (algorithm? identifier.content).bind fun (oid, parameters) =>
        (element? content).bind fun (e, _) =>
          e.bits?.map fun key => (⟨oid, parameters, key⟩, rest)

def ecPublicKey : String := "1.2.840.10045.2.1"

def prime256v1 : String := "1.2.840.10045.3.1.7"

/-- The key's octets, when the document is for an elliptic-curve key on P-256. -/
def point (bs : Bytes) : Except KeyFault Bytes :=
  match read? bs with
  | none => .error .der
  | some (doc, _) =>
    if doc.algorithm.text ≠ ecPublicKey then .error (.notEc doc.algorithm.text)
    else if doc.parameters.map (fun e => Oid.text ⟨e.content⟩) ≠ some prime256v1 then .error .otherCurve
    else .ok doc.key

end SubjectPublicKey

/-- A point of P-256 that signatures are checked with. -/
structure Verifier where
  point : P256.Point
  onCurve : point.onCurve = true
  deriving DecidableEq, Repr

namespace Verifier

def pointLength : Nat := 65

def ofPoint (bs : Bytes) : Except KeyFault Verifier :=
  match P256.Point.decode? bs with
  | none => .error .notUncompressed
  | some p => if h : p.onCurve = true then .ok ⟨p, h⟩ else .error .offCurve

/-- Key material of the length of a point is a point; all other is a document. -/
def ofMaterial (bs : Bytes) : Except KeyFault Verifier :=
  if bs.length = pointLength then ofPoint bs
  else match SubjectPublicKey.point bs with
    | .error e => .error e
    | .ok point => ofPoint point

def new (algorithm : String) (material : Bytes) : Except RegistrationError Verifier :=
  if algorithm ≠ tokenAlgorithm then .error (.unsupportedAlgorithm algorithm)
  else match ofMaterial material with
    | .error fault => .error (.invalidKey fault)
    | .ok v => .ok v

def publicKey (v : Verifier) : Bytes := v.point.encode

/-- Whether a signature in either encoding was made over the message by the key's owner. -/
def verify (v : Verifier) (message signature : Bytes) : Bool :=
  match Signature.decode? signature with
  | none => false
  | some sig => Ecdsa.verify v.point message sig

end Verifier
end PushGateway
