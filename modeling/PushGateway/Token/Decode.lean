import PushGateway.Base64
import PushGateway.Signature.Ecdsa
import PushGateway.Text.Fields
import PushGateway.Token.Claims
import PushGateway.Token.Header
/-!
Encoded tokens read from their end: what follows the last dot is the signature, what precedes it is what
the signature covers, and the last dot of that parts the header from the claims.
-/

namespace PushGateway.Token

inductive Refusal where
  | segments
  | base64 (cause : Base64.Error)
  | json (cause : Json.Error)
  | algorithm
  | signature
  deriving DecidableEq, Repr

/-- What the first two segments of a token say. -/
structure Content where
  algorithm : Algorithm
  header : RawHeader
  claims : Claims
  deriving DecidableEq, Repr

def dot : UInt8 := '.'.toUInt8

def decodeHeader (segment : Bytes) : Except Refusal (Algorithm × RawHeader) :=
  match Base64.decode Base64.urlSafe segment with
  | .error e => .error (.base64 e)
  | .ok octets =>
    match Json.readAll headerRecord.read octets with
    | .error e => .error (.json e)
    | .ok h => .ok h

def decodeClaims (segment : Bytes) : Except Refusal Claims :=
  match Base64.decode Base64.urlSafe segment with
  | .error e => .error (.base64 e)
  | .ok octets =>
    match readClaims octets with
    | .error e => .error (.json e)
    | .ok c => .ok c

/-- Judges a signature with a key, an uncompressed point: the algorithm must be ES256, and the segment
must hold both numbers of an ECDSA signature in 32 octets each. Without a key nothing is judged. -/
def judge (key? : Option Bytes) (algorithm : Algorithm) (message segment : Bytes) : Except Refusal Unit :=
  match key? with
  | none => .ok ()
  | some key =>
    if algorithm ≠ .es256 then .error .algorithm
    else match Base64.decode Base64.urlSafe segment with
      | .error e => .error (.base64 e)
      | .ok octets =>
        match Signature.decodeFixed? octets with
        | none => .error .signature
        | some sig => if Ecdsa.verifyWith key message sig then .ok () else .error .signature

/-- The parts before and after the last dot. -/
def split (encoded : Bytes) : Except Refusal (Bytes × Bytes) :=
  match Text.splitLast? dot encoded with
  | none => .error .segments
  | some parts => .ok parts

/-- Reads the header, judges the signature, then reads the claims; the first fault is reported. -/
def decode (key? : Option Bytes) (encoded : Bytes) : Except Refusal Content := do
  let (message, signature) ← split encoded
  let (first, second) ← split message
  let (algorithm, header) ← decodeHeader first
  judge key? algorithm message signature
  let claims ← decodeClaims second
  return ⟨algorithm, header, claims⟩

end PushGateway.Token
