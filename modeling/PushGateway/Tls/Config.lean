import PushGateway.Tls.Provider
/-!
The server's TLS configuration: its certificate chain and key, the anchors of client certificates where
clients may authenticate, and the protocols it offers.
-/

namespace PushGateway.Tls

def pushProtocol : Bytes := Utf8.encode "h2"

inductive ConfigFault where
  | noTrustAnchors
  | unusableKey
  | noCertificates
  | certificate (fault : CertificateFault)
  | keyMismatch
  deriving DecidableEq, Repr

namespace ConfigFault

def reason : ConfigFault → String
  | .noTrustAnchors => "no root trust anchors were provided"
  | .unusableKey => "failed to parse private key as RSA, ECDSA, or EdDSA"
  | .noCertificates => "peer sent no certificates"
  | .certificate fault => fault.message
  | .keyMismatch => "keys may not be consistent: KeyMismatch"

def message : ConfigFault → String
  | .noTrustAnchors => s!"client certificate verifier error: {noTrustAnchors.reason}"
  | .unusableKey => s!"TLS configuration error: unexpected error: {unusableKey.reason}"
  | fault => s!"TLS configuration error: {fault.reason}"

end ConfigFault

/-- What the server asks of its clients: a certificate from one of the anchors, where it asks for one at
all, and one of the protocols that it offers. -/
structure Policy where
  /-- None when clients cannot authenticate by certificate. -/
  roots : Option (List TrustAnchor)
  protocols : List Bytes
  deriving DecidableEq, Repr

structure Config where
  chain : List Bytes
  key : PrivateKey
  policy : Policy

namespace Config

/-- The configuration of a chain and its key. The anchors are judged first, then the key, then the first
certificate of the chain, which must be for that key. -/
def new [Provider] (chain : List Bytes) (key : PrivateKey) (roots : Option (List TrustAnchor)) :
    Except ConfigFault Config :=
  if roots = some [] then .error .noTrustAnchors
  else match Provider.publicKeyInfo? key with
    | none => .error .unusableKey
    | some info =>
      match chain with
      | [] => .error .noCertificates
      | leaf :: _ =>
        match Certificate.read leaf with
        | .error fault => .error (.certificate fault)
        | .ok c =>
          if c.publicKeyInfo = info then .ok ⟨chain, key, ⟨roots, [pushProtocol]⟩⟩
          else .error .keyMismatch

end Config
end PushGateway.Tls
