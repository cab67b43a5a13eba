import PushGateway.Tls.Certificate
/-!
What the gateway leaves to a TLS library: which private keys the server can sign with, and which chains of
certificates are accepted from clients.
-/

namespace PushGateway.Tls

/-- The forms of private key documents: RSA keys, elliptic-curve keys, and keys of any algorithm. -/
inductive KeyForm where
  | pkcs1
  | sec1
  | pkcs8
  deriving DecidableEq, Repr

namespace KeyForm

def name : KeyForm → String
  | .pkcs1 => "pkcs1"
  | .sec1 => "sec1"
  | .pkcs8 => "pkcs8"

end KeyForm

structure PrivateKey where
  form : KeyForm
  content : Bytes
  deriving DecidableEq, Repr

/-- The judgements of a TLS library. -/
class Provider where
  /-- The public key of a private key that the server can sign with, as a certificate holds it. -/
  publicKeyInfo? : PrivateKey → Option Bytes
  /-- Whether a chain, the client's own certificate first, leads to one of the anchors at a time and may be
  used by clients. -/
  verifies : List TrustAnchor → Nat → List Bytes → Bool

end PushGateway.Tls
