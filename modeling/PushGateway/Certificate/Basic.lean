import PushGateway.Certificate.Name
import PushGateway.Certificate.Time
import PushGateway.Key.Verifier
/-!
Certificates read leniently, for the name of their subject. Every part must be there and have its shape;
no signature, date or extension is judged.
-/

namespace PushGateway

structure Certificate where
  issuer : Certificate.Name
  notBefore : DateTime
  notAfter : DateTime
  subject : Certificate.Name
  publicKey : SubjectPublicKey
  deriving DecidableEq, Repr

namespace Certificate

open Der

/-- Whether octets are a number from 0 to 2^32 - 1 in its shortest form. -/
def isSmallNumber (bs : Bytes) : Bool :=
  match bs with
  | [] => false
  | [b] => b < 0x80
  | 0 :: b :: rest => 0x80 ≤ b ∧ rest.length < 4
  | b :: rest => b < 0x80 ∧ rest.length < 4

/-- Passes over the version, which may be missing. -/
def version? (bs : Bytes) : Option Bytes :=
  match bs with
  | [] => some []
  | _ => do
    let (e, rest) ← element? bs
    if e.tag ≠ 0 then some bs
    else if e.tagClass ≠ 2 then none
    else
      let (n, _) ← tagged? Tag.integer e.content
      if n.constructed = false ∧ isSmallNumber n.content then some rest else none

def algorithm? (bs : Bytes) : Option Bytes := do
  let (e, rest) ← tagged? Tag.sequence bs
  let _ ← SubjectPublicKey.algorithm? e.content
  return rest

def validity? (bs : Bytes) : Option ((DateTime × DateTime) × Bytes) := do
  let (e, rest) ← tagged? Tag.sequence bs
  let (notBefore, content) ← time? e.content
  let (notAfter, _) ← time? content
  return ((notBefore, notAfter), rest)

/-- Passes over a unique identifier, which may be missing: a bit string under a number of its own. -/
def uniqueId? (number : Nat) (bs : Bytes) : Option Bytes :=
  match bs with
  | [] => some []
  | _ => do
    let (e, rest) ← element? bs
    if e.tag ≠ number then some bs
    else
      let _ ← Element.bits? { e with tag := Tag.bitString }
      return rest

/-- Reads whether an extension is critical, where that is said. -/
def critical? (bs : Bytes) : Bytes :=
  match tagged? Tag.boolean bs with
  | some (e, rest) => if e.content.length = 1 then rest else bs
  | none => bs

def extension? (bs : Bytes) : Option (Unit × Bytes) := do
  let (e, rest) ← tagged? Tag.sequence bs
  let (_, content) ← oid? e.content
  let (value, _) ← tagged? Tag.octetString (critical? content)
  if value.constructed then none else some ((), rest)

/-- Whether what follows the identifiers is nothing, or one list of extensions and no more. The tag
before the list counts; its length does not. -/
def extensionsFit (bs : Bytes) : Bool :=
  match bs with
  | [] => true
  | b :: rest =>
    match (tag? b rest).bind fun (tag, rest) => (length? rest).map fun (_, rest) => (tag, rest) with
    | none => false
    | some (tag, rest) =>
      match tagged? Tag.sequence rest with
      | some (list, []) => tag = 3 ∧ (many extension? list.content).2 = []
      | _ => false

def ofSignedPart? (content : Bytes) : Option Certificate := do
  let content ← version? content
  let (_, content) ← tagged? Tag.integer content
  let content ← algorithm? content
  let (issuer, content) ← name? content
  let ((notBefore, notAfter), content) ← validity? content
  let (subject, content) ← name? content
  let (publicKey, content) ← SubjectPublicKey.read? content
  let content ← uniqueId? 1 content
  let content ← uniqueId? 2 content
  if extensionsFit content then some ⟨issuer, notBefore, notAfter, subject, publicKey⟩ else none

/-- Reads a certificate; what follows it is not judged. -/
def read? (bs : Bytes) : Option Certificate := do
  let (outer, _) ← tagged? Tag.sequence bs
  let (part, content) ← tagged? Tag.sequence outer.content
  let certificate ← ofSignedPart? part.content
  let content ← algorithm? content
  let (signature, _) ← element? content
  let _ ← signature.bits?
  return certificate

end Certificate
end PushGateway
