import PushGateway.Calendar
import PushGateway.Key.Signing
import PushGateway.Tls.Provider
/-!
A TLS library that knows one curve. The server signs with P-256 keys, and a client's certificate is accepted
when a trust anchor's P-256 key has signed it, it is valid now, may be used by clients, and is not that of an
authority.
-/

namespace PushGateway.Tls

open Der

namespace PrivateKey

/-- The private key document that holds an elliptic-curve key on P-256. -/
def enclose (key : Bytes) : Bytes :=
  Strict.encode Strict.sequenceTag
    (Strict.encode Strict.integerTag [0] ++ Strict.encode Strict.sequenceTag SigningKey.ecAlgorithm ++
      Strict.encode Strict.octetStringTag key)

/-- The key that the server can sign with: a P-256 key. -/
def signingKey? (k : PrivateKey) : Option SigningKey :=
  match k.form with
  | .pkcs1 => none
  | .sec1 => (SigningKey.ofPkcs8 (enclose k.content)).toOption
  | .pkcs8 => (SigningKey.ofPkcs8 k.content).toOption

end PrivateKey

/-- The content of the subject public key document for a signing key. -/
def publicKeyInfo (k : SigningKey) : Bytes :=
  Der.Strict.encode Der.Strict.sequenceTag SigningKey.ecAlgorithm ++
    Der.Strict.encode Der.Strict.bitStringTag (0 :: k.publicKey)

/-- The content of the identifier of ECDSA signatures with SHA-256. -/
def ecdsaWithSha256 : Bytes := [0x06, 0x08, 0x2A, 0x86, 0x48, 0xCE, 0x3D, 0x04, 0x03, 0x02]

/-- The purpose of authenticating a client, as an element of a list of purposes. -/
def clientPurpose : Bytes := [0x2B, 0x06, 0x01, 0x05, 0x05, 0x07, 0x03, 0x02]

namespace TrustAnchor

def key? (a : TrustAnchor) : Option Verifier :=
  match sequence a.publicKeyInfo with
  | .error _ => none
  | .ok (algorithm, rest) =>
    if algorithm ≠ SigningKey.ecAlgorithm then none
    else match bits rest with
      | .ok (point, []) => (Verifier.ofPoint point).toOption
      | _ => none

def signed (a : TrustAnchor) (c : Certificate) : Bool :=
  if a.subject ≠ c.issuer ∨ c.signatureAlgorithm ≠ ecdsaWithSha256 then false
  else match a.key?, Signature.decodeDer? c.signature with
    | some v, some sig => Ecdsa.verify v.point c.signedPart sig
    | _, _ => false

end TrustAnchor

namespace Validity

/-- Reads a time to the second in the zone of Greenwich. -/
def time? (bs : Bytes) : Option (Nat × Bytes) :=
  let read (yearDigits : Nat) (full : Nat → Nat) (content : Bytes) : Option Nat := do
    let (year, content) ← Calendar.digits? yearDigits content
    let (t, content) ← Calendar.minuteOf? (full year) content
    let (second, content) ← Calendar.digits? 2 content
    let t := { t with second := second }
    if content = ['Z'.toUInt8] ∧ t.isReal then t.unixSeconds? else none
  match Strict.element? 0x17 bs with
  | some (content, rest) => (read 2 Calendar.fullYear content).map fun n => (n, rest)
  | none =>
    match Strict.element? 0x18 bs with
    | some (content, rest) => (read 4 id content).map fun n => (n, rest)
    | none => none

/-- Whether a time lies between the two dates of a certificate, both included. -/
def covers (validity : Bytes) (now : Nat) : Bool :=
  match time? validity with
  | none => false
  | some (notBefore, rest) =>
    match time? rest with
    | some (notAfter, []) => notBefore ≤ now ∧ now ≤ notAfter
    | _ => false

end Validity

namespace Extensions

/-- Reads a list of identifiers; each takes two octets or more, which bounds their number. -/
def identifiers? : Nat → Bytes → Option (List Bytes)
  | _, [] => some []
  | 0, _ => none
  | fuel + 1, bs => do
    let (identifier, rest) ← Strict.element? Strict.objectIdentifierTag bs
    return identifier :: (← identifiers? fuel rest)

/-- Whether clients may use the certificate: nothing is said of its purposes, or theirs is among them. -/
def allowsClients (es : Extensions) : Bool :=
  match es.extendedKeyUsage with
  | none => true
  | some list => ((identifiers? list.length list).getD []).contains clientPurpose

/-- Whether the certificate is readably not that of an authority. -/
def isLeaf (es : Extensions) : Bool :=
  match es.basicConstraints with
  | none => true
  | some constraints =>
    match critical constraints with
    | .ok (false, _) => true
    | _ => false

end Extensions

/-- Whether a client's certificate is accepted at a time. -/
def accepts (roots : List TrustAnchor) (now : Nat) (leaf : Bytes) : Bool :=
  match Certificate.read leaf with
  | .error _ => false
  | .ok c =>
    roots.any (·.signed c) && Validity.covers c.validity now && c.extensions.allowsClients && c.extensions.isLeaf

instance p256 : Provider where
  publicKeyInfo? key := key.signingKey?.map publicKeyInfo
  verifies roots now chain := chain.head?.any (accepts roots now)

end PushGateway.Tls
