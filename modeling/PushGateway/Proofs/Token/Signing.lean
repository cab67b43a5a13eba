import PushGateway.Proofs.Token.RoundTrip
import PushGateway.Proofs.Token.Verdict

namespace PushGateway.Signer

variable {s : Signer} {m : Moment} {c : Call} {text : String} {v : Verifier}

theorem sign_eq_ok : s.sign m = .ok text ↔
    ∃ sig, Ecdsa.sign? s.key.scalar m.nonce (s.signedPart m.time) = some sig ∧
      s.tokenText m.time sig = text := by
  unfold sign tokenText
  cases Ecdsa.sign? s.key.scalar m.nonce (s.signedPart m.time) with
  | none => simp
  | some sig => simp

theorem token_cases (s : Signer) (m : Moment) :
    (∃ t, s.cached = some t ∧ s.token m = (.ok t, s)) ∨
    (∃ t, s.cached = none ∧ s.sign m = .ok t ∧ s.token m = (.ok t, { s with cached := some t })) ∨
    (∃ e, s.cached = none ∧ s.sign m = .error e ∧ s.token m = (.error e, s)) := by
  unfold token
  cases cached : s.cached with
  | some t => exact .inl ⟨t, rfl, rfl⟩
  | none =>
    cases signed : s.sign m with
    | ok t => exact .inr (.inl ⟨t, rfl, rfl, rfl⟩)
    | error e => exact .inr (.inr ⟨e, rfl, rfl, rfl⟩)

theorem perform_sign (s : Signer) (c : Call) (m : Moment) : (s.perform c).2.sign m = s.sign m := by
  cases c with
  | invalidate => rfl
  | token m' =>
    rcases s.token_cases m' with ⟨_, _, h⟩ | ⟨_, _, _, h⟩ | ⟨_, _, _, h⟩
    · simp only [perform, h]
    · simp only [perform, h]
      rfl
    · simp only [perform, h]

theorem perform_token (given : (s.perform c).1.token = some (.ok text)) :
    s.cached = some text ∨ ∃ m, c = .token m ∧ s.sign m = .ok text := by
  cases c with
  | invalidate => cases given
  | token m =>
    rcases s.token_cases m with ⟨t, cached, h⟩ | ⟨t, _, signed, h⟩ | ⟨e, _, _, h⟩
    · simp only [perform, h, Option.some.injEq, Except.ok.injEq] at given
      exact .inl (given ▸ cached)
    · simp only [perform, h, Option.some.injEq, Except.ok.injEq] at given
      exact .inr ⟨m, rfl, given ▸ signed⟩
    · simp [perform, h] at given

theorem perform_cached (kept : (s.perform c).2.cached = some text) :
    s.cached = some text ∨ ∃ m, c = .token m ∧ s.sign m = .ok text := by
  cases c with
  | invalidate => cases kept
  | token m =>
    rcases s.token_cases m with ⟨t, _, h⟩ | ⟨t, _, signed, h⟩ | ⟨e, _, _, h⟩
    · simp only [perform, h] at kept
      exact .inl kept
    · simp only [perform, h, Option.some.injEq] at kept
      exact .inr ⟨m, rfl, kept ▸ signed⟩
    · simp only [perform, h] at kept
      exact .inl kept

theorem run_token {calls : List Call} {reply : Reply} (member : reply ∈ (s.run calls).1)
    (given : reply.token = some (.ok text)) :
    s.cached = some text ∨ ∃ m, .token m ∈ calls ∧ s.sign m = .ok text := by
  -- the signer changes from call to call, but not what it signs
  induction calls generalizing s with
  | nil => cases member
  | cons c calls ih =>
    have now : (∃ m, c = .token m ∧ s.sign m = .ok text) →
        ∃ m, .token m ∈ c :: calls ∧ s.sign m = .ok text := by
      rintro ⟨m, rfl, signed⟩
      exact ⟨m, List.mem_cons_self, signed⟩
    rcases List.mem_cons.mp member with rfl | member
    · exact (perform_token given).imp id now
    · rcases ih member with kept | ⟨m, hm, signed⟩
      · exact (perform_cached kept).imp id now
      · rw [perform_sign] at signed
        exact .inr ⟨m, List.mem_cons_of_mem c hm, signed⟩

theorem new_eq_ok {algorithm issuer keyId : String} {pkcs8 : Bytes}
    (made : new algorithm pkcs8 issuer keyId = .ok s) :
    s.issuer = issuer ∧ s.keyId = keyId ∧ s.cached = none := by
  unfold new at made
  split at made
  · cases made
  · split at made
    · cases made
    · cases made
      exact ⟨rfl, rfl, rfl⟩

theorem verify_issued {time : UnixTime} {sig : Signature} (same : v.point = s.key.point)
    (hr : sig.r < P256.order) (hs : sig.s < P256.order)
    (holds : Ecdsa.verify s.key.point (s.signedPart time) sig = true) :
    (s.issued time sig).verify v = true := by
  have judged : Token.judge (some v.publicKey) .es256 (s.signedPart time)
      (Utf8.encode (Token.segment sig.encodeFixed)) = .ok () := by
    rw [← same] at holds
    simp only [Token.judge, ne_eq, not_true_eq_false, if_false, Token.encode_segment,
      Base64.decode_encode Base64.urlSafe_legible, Signature.decodeFixed?_encodeFixed hr hs,
      v.verifyWith_publicKey, holds, if_true]
  rw [← s.encode_signed] at judged
  exact (Token.verify_eq_true (s.tokenText_segments time sig) (s.parse_issued time sig)).mpr judged

/-- The signatures that the signer makes in these calls hold for its own public key. -/
def Sound (s : Signer) (calls : List Call) : Prop :=
  ∀ m sig, .token m ∈ calls → Ecdsa.sign? s.key.scalar m.nonce (s.signedPart m.time) = some sig →
    Ecdsa.verify s.key.point (s.signedPart m.time) sig = true

/-- A token that a new signer returns parses to its issuer and key id and verifies with its public key. -/
theorem run_verified {calls : List Call} {reply : Reply} (fresh : s.cached = none) (sound : s.Sound calls)
    (member : reply ∈ (s.run calls).1) (given : reply.token = some (.ok text)) :
    ∃ t, Token.parse text = .ok t ∧ t.header.keyId = s.keyId ∧ t.claims.issuer = s.issuer ∧
      ∀ v : Verifier, v.point = s.key.point → t.verify v = true := by
  rcases run_token member given with cached | ⟨m, hm, signed⟩
  · rw [fresh] at cached
    cases cached
  · obtain ⟨sig, made, rfl⟩ := sign_eq_ok.mp signed
    have reduced := Signature.sign?_reduced made
    refine ⟨s.issued m.time sig, s.parse_issued m.time sig, rfl, rfl, ?_⟩
    intro v same
    exact verify_issued same reduced.1 reduced.2 (sound m sig hm made)

end PushGateway.Signer
