import PushGateway.Proofs.Key.Encoding
import PushGateway.Proofs.Token.Acceptance
import PushGateway.Token.Basic

namespace PushGateway

namespace Verifier

theorem verifyWith_publicKey (v : Verifier) (message : Bytes) (sig : Signature) :
    Ecdsa.verifyWith v.publicKey message sig = Ecdsa.verify v.point message sig := by
  have reduced := P256.Point.onCurve_reduced v.onCurve
  have key := P256.Point.decode?_encode reduced.1 reduced.2
  simp only [Ecdsa.verifyWith, publicKey, key, v.onCurve, Bool.true_and]

theorem verify_of_length {v : Verifier} {message octets : Bytes}
    (long : octets.length = Signature.fixedLength) :
    v.verify message octets = true ↔
      ∃ sig, Signature.decodeFixed? octets = some sig ∧ Ecdsa.verify v.point message sig = true := by
  rw [verify, Signature.decode?, if_pos long]
  cases Signature.decodeFixed? octets <;> simp

end Verifier

namespace Signature

theorem length_of_decodeFixed? {octets : Bytes} {sig : Signature}
    (read : decodeFixed? octets = some sig) : octets.length = fixedLength := by
  unfold decodeFixed? at read
  split at read
  · next long => exact long
  · cases read

end Signature

namespace Token

variable {text first second third : String} {t : Token} {v : Verifier}

theorem judge_publicKey {algorithm : Algorithm} {message segment : Bytes} :
    judge (some v.publicKey) algorithm message segment = .ok () ↔
      algorithm = .es256 ∧ ∃ sig, Base64.decode Base64.urlSafe segment = .ok sig ∧
        sig.length = Signature.fixedLength ∧ v.verify message sig = true := by
  by_cases es256 : algorithm = .es256
  · simp only [judge, es256, ne_eq, not_true_eq_false, if_false, true_and]
    cases Base64.decode Base64.urlSafe segment with
    | error e => simp
    | ok octets =>
      cases fixed : Signature.decodeFixed? octets with
      | none =>
        simp only [fixed, reduceCtorEq, Except.ok.injEq, false_iff]
        rintro ⟨_, rfl, long, holds⟩
        obtain ⟨sig, read, -⟩ := (Verifier.verify_of_length long).mp holds
        rw [fixed] at read
        cases read
      | some sig =>
        have long := Signature.length_of_decodeFixed? fixed
        simp [v.verifyWith_publicKey, Verifier.verify_of_length long, fixed, long]
  · simp [judge, es256]

/-- A token that was accepted once is read the same way again, so only its signature is left to judge. -/
theorem check_eq_judge (h : Segments text first second third) (parsed : parse text = .ok t) (key : Bytes) :
    t.check key =
      judge (some key) t.header.algorithm (Utf8.encode (first ++ "." ++ second)) (Utf8.encode third) := by
  obtain ⟨algorithm, raw, claims, keyId, header, body, _, rfl⟩ := h.parse_eq_ok.mp parsed
  simp only [check, h.decode_eq, header, body, bind, Except.bind]
  cases judge (some key) algorithm (Utf8.encode (first ++ "." ++ second)) (Utf8.encode third) <;> rfl

theorem verify_eq_true (h : Segments text first second third) (parsed : parse text = .ok t) :
    t.verify v = true ↔
      judge (some v.publicKey) t.header.algorithm (Utf8.encode (first ++ "." ++ second))
        (Utf8.encode third) = .ok () := by
  simp only [verify, v.decodingKey_eq, check_eq_judge h parsed]
  cases judge (some v.publicKey) t.header.algorithm (Utf8.encode (first ++ "." ++ second))
    (Utf8.encode third) <;> simp

theorem segments_of_parse (parsed : parse text = .ok t) :
    ∃ first second third, Segments text first second third := by
  by_contra none
  rw [parse_eq_malformed.mpr none] at parsed
  cases parsed

/-- An accepted token is verified exactly when it names ES256 and its last segment is base64 of 64 octets
that the verifier verifies over the first two segments. No other spelling of these octets is verified. -/
theorem verdict_of_parse (parsed : parse text = .ok t) (v : Verifier) :
    (∃ key, v.decodingKey = .ok key) ∧
    ∃ first second third, Segments text first second third ∧
      (t.verify v = true ↔ t.header.algorithm = .es256 ∧
        ∃ sig, Base64.decode Base64.urlSafe (Utf8.encode third) = .ok sig ∧ sig.length = 64 ∧
          v.verify (Utf8.encode (first ++ "." ++ second)) sig = true) ∧
      (t.verify v = true → ∃ sig, sig.length = 64 ∧ Utf8.encode third = Base64.encode Base64.urlSafe sig) := by
  obtain ⟨first, second, third, cut⟩ := segments_of_parse parsed
  have verdict := (verify_eq_true (v := v) cut parsed).trans judge_publicKey
  refine ⟨⟨_, v.decodingKey_eq⟩, first, second, third, cut, verdict, ?_⟩
  intro verified
  obtain ⟨-, sig, read, long, -⟩ := verdict.mp verified
  exact ⟨sig, long, (Base64.decode_eq_ok Base64.urlSafe_legible).mp read⟩

/-- The provider's scalar is 1, so its public key is the generator. -/
theorem verdict_of_parse_provider : ∃ t v, parse providerToken = .ok t ∧ v.point = P256.generator ∧
    t.verify v = true ∧
    ∃ first second third sig, Segments providerToken first second third ∧
      Base64.decode Base64.urlSafe (Utf8.encode third) = .ok sig ∧ sig.length = 64 ∧
      v.verify (Utf8.encode (first ++ "." ++ second)) sig = true := by
  let v : Verifier := ⟨P256.generator, by decide +kernel⟩
  have evaluated : (parse providerToken).toOption.any (·.verify v) = true := by decide +kernel
  cases parsed : parse providerToken with
  | error e =>
    rw [parsed] at evaluated
    cases evaluated
  | ok t =>
    rw [parsed] at evaluated
    have verified : t.verify v = true := evaluated
    obtain ⟨-, first, second, third, cut, verdict, -⟩ := verdict_of_parse parsed v
    obtain ⟨-, sig, read, long, holds⟩ := verdict.mp verified
    exact ⟨t, v, rfl, rfl, verified, first, second, third, sig, cut, read, long, holds⟩

end Token
end PushGateway
