import PushGateway.Json.Message
import PushGateway.Key.Coordinates
import PushGateway.Log
import PushGateway.Token.Decode
/-!
Tokens: three base64url segments, of which the first two hold a header and claims in JSON. `parse`
judges the shape of all three segments and the content of the first two; `verify` reads the token once more,
this time with a key.
-/

namespace PushGateway

inductive Token.Error where
  | malformed
  | missingKeyId
  | refused (cause : Token.Refusal)
  deriving DecidableEq, Repr

structure Token.Header where
  algorithm : Token.Algorithm
  type : String
  keyId : String
  deriving DecidableEq, Repr

/-- A token whose header and claims have been read; its signature has not been judged. -/
structure Token where
  header : Token.Header
  claims : Token.Claims
  /-- The text it was read from. -/
  encoded : String
  deriving DecidableEq, Repr

namespace Token

def Refusal.message : Refusal → String
  | .segments => "InvalidToken"
  | .base64 e => s!"Base64 error: {e.message}"
  | .json e => s!"JSON error: {e.message}"
  | .algorithm => "InvalidAlgorithm"
  | .signature => "InvalidSignature"

def Error.message : Error → String
  | .malformed => "token must have three non-empty segments"
  | .missingKeyId => "token header has no key id"
  | .refused e => s!"invalid token: {e.message}"

/-- Reads a token of three non-empty segments: its header, then its claims, then the header's key id. -/
def parse (text : String) : Except Error Token :=
  let segments := Text.fields dot (Utf8.encode text)
  if segments.length ≠ 3 ∨ [] ∈ segments then .error .malformed
  else match decode none (Utf8.encode text) with
    | .error e => .error (.refused e)
    | .ok content =>
      match content.header.keyId with
      | none => .error .missingKeyId
      | some keyId =>
        .ok {
          header := ⟨content.algorithm, content.header.type.getD "", keyId⟩
          claims := content.claims
          encoded := text }

/-- Judges the signature with a key, an uncompressed point; the first fault is reported. -/
def check (t : Token) (key : Bytes) : Except Refusal Unit :=
  (decode (some key) (Utf8.encode t.encoded)).map fun _ => ()

def verify (t : Token) (v : Verifier) : Bool :=
  match v.decodingKey with
  | .error _ => false
  | .ok key =>
    match t.check key with
    | .ok _ => true
    | .error _ => false

def checkLog (t : Token) (v : Verifier) : List Log.Record :=
  match v.decodingKey with
  | .error e => [Log.debug .token s!"Unusable verification key: {(Refusal.base64 e).message}"]
  | .ok key =>
    match t.check key with
    | .ok _ => []
    | .error e => [Log.debug .token s!"Token for kid '{t.header.keyId}' rejected: {e.message}"]

end Token
end PushGateway
