import PushGateway.Calendar
import PushGateway.Json.Text
import PushGateway.Key.Signing
import PushGateway.Token.Basic
/-!
Token signers. A signer keeps the token it signed last and returns it until it is invalidated. The time
of signing and the nonce of the signature are given from outside.
-/

namespace PushGateway

inductive SigningError where
  | unsupportedAlgorithm (name : String)
  | invalidKey (fault : SigningKeyFault)
  | signature
  deriving DecidableEq, Repr

namespace SigningError

def message : SigningError → String
  | .unsupportedAlgorithm name => s!"unsupported signing algorithm: {name}"
  | .invalidKey fault => s!"invalid signing key: {fault.message}"
  | .signature => "failed to sign token"

end SigningError

/-- When a token is signed, and the nonce for its signature. -/
structure Moment where
  time : UnixTime
  nonce : Nat
  deriving DecidableEq, Repr

structure Signer where
  key : SigningKey
  issuer : String
  keyId : String
  cached : Option String := none

namespace Signer

def new (algorithm : String) (pkcs8 : Bytes) (issuer keyId : String) : Except SigningError Signer :=
  if algorithm ≠ tokenAlgorithm then .error (.unsupportedAlgorithm algorithm)
  else match SigningKey.ofPkcs8 pkcs8 with
    | .error fault => .error (.invalidKey fault)
    | .ok key => .ok { key := key, issuer := issuer, keyId := keyId }

def publicKey (s : Signer) : Bytes := s.key.publicKey

def headerJson (s : Signer) : Bytes :=
  Utf8.encode "\x7b\"alg\":\"ES256\",\"typ\":\"JWT\",\"kid\":" ++ Json.quote s.keyId ++ [0x7D]

def claimsJson (s : Signer) (time : UnixTime) : Bytes :=
  Utf8.encode "\x7b\"iss\":" ++ Json.quote s.issuer ++ Utf8.encode ",\"iat\":" ++
    Json.quote (toString time.seconds) ++ [0x7D]

def signedPart (s : Signer) (time : UnixTime) : Bytes :=
  Base64.encode Base64.urlSafe s.headerJson ++
    Token.dot :: Base64.encode Base64.urlSafe (s.claimsJson time)

/-- The text of octets that are all ASCII. -/
def asciiText (bs : Bytes) : String := String.ofList (bs.map fun b => Char.ofNat b.toNat)

def sign (s : Signer) (m : Moment) : Except SigningError String :=
  match Ecdsa.sign? s.key.scalar m.nonce (s.signedPart m.time) with
  | none => .error .signature
  | some sig =>
    .ok (asciiText (s.signedPart m.time ++
      Token.dot :: Base64.encode Base64.urlSafe sig.encodeFixed))

/-- The cached token, or else a new one, which is then cached. -/
def token (s : Signer) (m : Moment) : Except SigningError String × Signer :=
  match s.cached with
  | some t => (.ok t, s)
  | none =>
    match s.sign m with
    | .error e => (.error e, s)
    | .ok t => (.ok t, { s with cached := some t })

/-- What a call of `token` reports: only a new token is worth a record. -/
def tokenLog (s : Signer) (m : Moment) : List Log.Record :=
  match s.cached, s.sign m with
  | none, .ok _ => [Log.debug .token s!"Signed new token for issuer '{s.issuer}' (kid={s.keyId})"]
  | _, _ => []

def invalidate (s : Signer) : Signer := { s with cached := none }

def invalidateLog (s : Signer) : List Log.Record :=
  if s.cached.isSome then [Log.debug .token s!"Invalidated token for issuer '{s.issuer}'"] else []

inductive Call where
  | token (m : Moment)
  | invalidate
  deriving DecidableEq, Repr

structure Reply where
  token : Option (Except SigningError String)
  log : List Log.Record

def perform (s : Signer) : Call → Reply × Signer
  | .token m => (⟨some (s.token m).1, s.tokenLog m⟩, (s.token m).2)
  | .invalidate => (⟨none, s.invalidateLog⟩, s.invalidate)

/-- The replies to calls in the order in which they get hold of the signer, and the signer after them. -/
def run (s : Signer) : List Call → List Reply × Signer
  | [] => ([], s)
  | c :: cs => ((s.perform c).1 :: (run (s.perform c).2 cs).1, (run (s.perform c).2 cs).2)

end Signer
end PushGateway
