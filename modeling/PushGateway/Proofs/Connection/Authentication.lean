import PushGateway.Proofs.Certificate.BaseTopic
import PushGateway.Proofs.Connection.Negotiation

namespace PushGateway

namespace Tls

/-- What a session exposes of a client, as it is documented of the TLS layer. -/
structure Session.Exposes (verifies : List TrustAnchor → List Bytes → Prop) (p : Policy) (client : Client)
    (s : Session) : Prop where
  /-- A client that is not asked for a certificate shows none. -/
  unasked : p.roots = none → s.peer = []
  /-- A client that is asked shows the chain that it presented, and may have presented none. -/
  asked : p.roots.isSome → s.peer = client.chain
  /-- A chain is exposed only after it has been verified. -/
  verified : ∀ roots, p.roots = some roots → s.peer ≠ [] → verifies roots s.peer

theorem Policy.peer?_cases [Provider] {p : Policy} {now : Nat} {chain peer : List Bytes}
    (shown : p.peer? now chain = some peer) :
    (p.roots = none ∧ peer = []) ∨
    (∃ roots, p.roots = some roots ∧ peer = chain ∧ (chain = [] ∨ Provider.verifies roots now chain)) := by
  unfold peer? at shown
  split at shown
  · rename_i off
    cases shown
    exact .inl ⟨off, rfl⟩
  · rename_i roots on
    obtain ⟨verified, ⟨⟩⟩ := Option.ite_none_right_eq_some.mp shown
    exact .inr ⟨roots, on, rfl, verified⟩

theorem Policy.exposes_of_handshake? [Provider] {p : Policy} {now : Nat} {client : Client} {s : Session}
    (secured : p.handshake? now client = some s) :
    s.Exposes (fun roots chain => Provider.verifies roots now chain) p client := by
  have shown : p.peer? now client.chain = some s.peer := by
    unfold handshake? at secured
    split at secured
    · cases secured
      assumption
    · cases secured
  rcases Policy.peer?_cases shown with ⟨off, bare⟩ | ⟨roots, on, same, verified⟩
  · refine ⟨fun _ => bare, ?_, fun _ _ full => absurd bare full⟩
    intro on
    rw [off] at on
    cases on
  · refine ⟨?_, fun _ => same, ?_⟩
    · intro off
      cases off.symm.trans on
    · intro roots' on' full
      cases on.symm.trans on'
      rw [same] at full ⊢
      exact verified.resolve_left full

end Tls

namespace Negotiation

open Tls

section Classification

variable {verifies : List TrustAnchor → List Bytes → Prop} {p : Policy} {client : Client} {s : Session}

theorem classify_eq_token {chain : List Bytes} : Authentication.classify chain = .token ↔ chain = [] := by
  cases chain <;> simp [Authentication.classify]

theorem classify_exposed (exposes : s.Exposes verifies p client) :
    Authentication.classify s.peer = .token ↔ p.roots = none ∨ client.chain = [] := by
  rw [classify_eq_token]
  cases roots : p.roots with
  | none => exact ⟨fun _ => .inl rfl, fun _ => exposes.unasked roots⟩
  | some anchors =>
    have same := exposes.asked (by rw [roots, Option.isSome_some])
    rw [same]
    exact ⟨.inr, fun bare => bare.resolve_left nofun⟩

/-- Only the first certificate of a chain is read. -/
theorem classify_presented (exposes : s.Exposes verifies p client) {roots : List TrustAnchor}
    (on : p.roots = some roots) {leaf : Bytes} {others : List Bytes} (chain : client.chain = leaf :: others) :
    verifies roots client.chain ∧
    Authentication.classify s.peer = .certificate ((Principal.name? leaf).bind Principal.baseTopic) := by
  have same : s.peer = client.chain := exposes.asked (by rw [on, Option.isSome_some])
  have verified := exposes.verified roots on
  rw [same, chain] at verified ⊢
  exact ⟨verified (List.cons_ne_nil leaf others), rfl⟩

end Classification

/-- Whatever a handler is asked for: its client authenticates by tokens exactly when clients are not asked
for certificates or the client presented none; a presented chain has been verified, and its first
certificate alone gives the base topic, which is none when it cannot be read; without anchors nothing of
the chain is seen. A chain that is not verified never gets a handler, and every session on the push
protocol asks for one. -/
theorem run_authentication {verifies : List TrustAnchor → List Bytes → Prop} {p : Policy} {client : Client}
    {outcome : Option Session} (exposes : ∀ s, outcome = some s → s.Exposes verifies p client)
    (factory : HandlerFactory) (earlier : List HandlerContext) (gateway : Gateway) (peer : Endpoint) :
    (∀ context ∈ (run outcome factory earlier gateway peer).requests,
      (context.authentication = .token ↔ p.roots = none ∨ client.chain = []) ∧
      (∀ roots leaf others, p.roots = some roots → client.chain = leaf :: others →
        verifies roots client.chain ∧
        context.authentication = .certificate ((Principal.name? leaf).bind Principal.baseTopic) ∧
        (Certificate.read? leaf = none → context.authentication = .certificate none)) ∧
      (p.roots = none → context = ⟨gateway, maxConcurrentStreams, .token, peer⟩)) ∧
    (∀ roots, p.roots = some roots → client.chain ≠ [] → ¬ verifies roots client.chain →
      (run outcome factory earlier gateway peer).requests = []) ∧
    (∀ s, outcome = some s → s.protocol = some pushProtocol →
      ∃ context, (run outcome factory earlier gateway peer).requests = [context]) := by
  have course := course_run outcome factory earlier gateway peer
  refine ⟨?_, ?_, fun s secured push => ⟨_, course.requests_of_push secured push⟩⟩
  · intro context asked
    obtain ⟨s, secured, _, rfl⟩ := course.of_mem_requests asked
    have exposed := exposes s secured
    refine ⟨classify_exposed exposed, ?_, ?_⟩
    · intro roots leaf others on chain
      obtain ⟨verified, certificate⟩ := classify_presented exposed on chain
      refine ⟨verified, certificate, fun unreadable => certificate.trans ?_⟩
      rw [Principal.name?, unreadable, Option.map_none, Option.bind_none]
    · intro off
      rw [request, exposed.unasked off]
      rfl
  · intro roots on presented unverified
    apply List.eq_nil_iff_forall_not_mem.mpr
    intro context asked
    obtain ⟨s, secured, _⟩ := course.of_mem_requests asked
    obtain ⟨leaf, others, chain⟩ := List.exists_cons_of_ne_nil presented
    exact unverified (classify_presented (exposes s secured) on chain).1

section Samples

open Certificate Der.Strict

def authority : TrustAnchor where
  subject := encode 0x31 (encode sequenceTag
    (encode objectIdentifierTag commonNameType ++ encode 0x0C (Utf8.encode "Push root")))
  publicKeyInfo := encode sequenceTag SigningKey.ecAlgorithm ++ encode bitStringTag (0 :: P256.generator.encode)

def signedCertificate : Bytes :=
  let algorithm := encode sequenceTag ecdsaWithSha256
  let dates := encode 0x17 (Utf8.encode "200101000000Z") ++ encode 0x17 (Utf8.encode "300101000000Z")
  let signedPart := encode sequenceTag ([0xA0, 0x03, 0x02, 0x01, 0x02, 0x02, 0x01, 0x07] ++ algorithm ++
    encode sequenceTag authority.subject ++ encode sequenceTag dates ++
    subjectOctets [[(organizationType, "UID=x")], [(userIdType, "com.example.app")]] ++
    encode sequenceTag authority.publicKeyInfo)
  let r := 0x7cf27b188d034f7e8a52380304b51ac3c08969e277f21b35a60b48fc47669978
  let s := 0x7b30333e81908413f33b9bfd420832aafb7a7075b710916b9aff3a34c1687861
  let signature := encode sequenceTag
    (encode integerTag (P256.octets32 r) ++ encode integerTag (P256.octets32 s))
  encode sequenceTag (signedPart ++ algorithm ++ encode bitStringTag (0 :: signature))

/-- A chain that goes on with a certificate of another base topic. -/
theorem run_authentication_signed :
    let policy : Policy := ⟨some [authority], [pushProtocol]⟩
    let client : Client := ⟨[pushProtocol], [signedCertificate, clientCertificate]⟩
    ∃ context, (run (policy.handshake? 1700000000 client) Handler.idleFactory [] .empty ⟨"::1", 9⟩).requests =
      [context] ∧ context.authentication = .certificate (some "com.example.app") := by
  intro policy client
  have secured : policy.handshake? 1700000000 client = some ⟨some pushProtocol, client.chain⟩ := by
    decide +kernel
  have topic : (Principal.name? signedCertificate).bind Principal.baseTopic = some "com.example.app" := by
    decide +kernel
  obtain ⟨classified, _, reached⟩ := run_authentication
    (fun s (secured : policy.handshake? 1700000000 client = some s) => Policy.exposes_of_handshake? secured)
    Handler.idleFactory [] .empty ⟨"::1", 9⟩
  obtain ⟨context, one⟩ := reached _ secured rfl
  obtain ⟨_, certificate, _⟩ := classified context (one ▸ List.mem_singleton_self context)
  obtain ⟨_, known, _⟩ := certificate [authority] signedCertificate [clientCertificate] rfl rfl
  exact ⟨context, one, topic ▸ known⟩

end Samples

end Negotiation
end PushGateway
