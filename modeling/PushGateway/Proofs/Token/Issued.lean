import PushGateway.Proofs.Token.Signing

namespace PushGateway

namespace Token

theorem mem_segment {octets : Bytes} : ∀ c ∈ (segment octets).toList, c.isAlphanum ∨ c = '-' ∨ c = '_' := by
  have symbols : ∀ n, n < 64 →
      (Char.ofNat (Base64.symbol Base64.urlSafe n).toNat).isAlphanum ∨
        Char.ofNat (Base64.symbol Base64.urlSafe n).toNat = '-' ∨
        Char.ofNat (Base64.symbol Base64.urlSafe n).toNat = '_' := by decide
  intro c hc
  rw [segment, Signer.asciiText, String.toList_ofList] at hc
  obtain ⟨b, hb, rfl⟩ := List.mem_map.mp hc
  rcases Base64.mem_encode octets b hb with ⟨n, hn, rfl⟩ | ⟨padded, _⟩
  · exact symbols n hn
  · cases padded

end Token

namespace Signer

variable {s : Signer} {m : Moment} {text : String}

theorem issuedAt_issued (s : Signer) (time : UnixTime) (sig : Signature) :
    (s.issued time sig).claims.issuedAt = some time.seconds :=
  Decimal.read?_toString (Nat.le_trans time.representable (by decide))

theorem parse_signed (signed : s.sign m = .ok text) :
    ∃ sig, text = s.tokenText m.time sig ∧ Token.parse text = .ok (s.issued m.time sig) := by
  obtain ⟨sig, -, rfl⟩ := sign_eq_ok.mp signed
  exact ⟨sig, rfl, s.parse_issued m.time sig⟩

/-- A token returned by a new signer, at once or from its cache, was signed at a moment it was called at.
It is three segments of URL-safe symbols and reads back as what the signer meant. -/
theorem run_issued {calls : List Call} {reply : Reply} (fresh : s.cached = none)
    (member : reply ∈ (s.run calls).1) (given : reply.token = some (.ok text)) :
    (∃ m, .token m ∈ calls ∧ s.sign m = .ok text) ∧
    (∃ first second third, Token.Segments text first second third ∧
      ∀ c ∈ (first ++ second ++ third).toList, c.isAlphanum ∨ c = '-' ∨ c = '_') ∧
    ∃ t, Token.parse text = .ok t ∧ t.header = ⟨.es256, "JWT", s.keyId⟩ ∧ t.claims.issuer = s.issuer ∧
      ∀ m, s.sign m = .ok text → t.claims.issuedAt = some m.time.seconds := by
  rcases run_token member given with cached | ⟨m, hm, signed⟩
  · rw [fresh] at cached
    cases cached
  · obtain ⟨sig, rfl, parsed⟩ := parse_signed signed
    refine ⟨⟨m, hm, signed⟩, ⟨_, _, _, s.tokenText_segments m.time sig, ?_⟩, _, parsed, rfl, rfl, ?_⟩
    · intro c hc
      simp only [String.toList_append, List.mem_append] at hc
      rcases hc with (hc | hc) | hc
      · exact Token.mem_segment c hc
      · exact Token.mem_segment c hc
      · exact Token.mem_segment c hc
    · intro m' signed'
      -- the text was read once, so both moments have the same time
      obtain ⟨sig', -, parsed'⟩ := parse_signed signed'
      rw [parsed] at parsed'
      rw [Except.ok.inj parsed', issuedAt_issued]

/-- A signer with the scalar 1, an issuer that needs escapes and an empty key id. -/
def awkward : Signer where
  key := ⟨1, P256.generator, by decide +kernel⟩
  issuer := "a.\"\\\u0001é"
  keyId := ""

def earlier : Moment := ⟨⟨1600000000, by decide⟩, 2⟩

def later : Moment := ⟨⟨1800000000, by decide⟩, 3⟩

/-- The token of the second call comes from the cache and bears the time of the first. -/
theorem run_issued_cached : ∃ text t reply, reply ∈ (awkward.run [.token earlier, .token later]).1.tail ∧
    reply.token = some (.ok text) ∧ Token.parse text = .ok t ∧ t.header = ⟨.es256, "JWT", ""⟩ ∧
    t.claims.issuer = "a.\"\\\u0001é" ∧ t.claims.issuedAt = some 1600000000 := by
  have signs : (awkward.sign earlier).toOption.isSome = true := by decide +kernel
  cases signed : awkward.sign earlier with
  | error e =>
    rw [signed] at signs
    cases signs
  | ok text =>
    have first : awkward.token earlier = (.ok text, { awkward with cached := some text }) := by
      simp only [token, signed, show awkward.cached = none from rfl]
    have replies : (awkward.run [.token earlier, .token later]).1 =
        [⟨some (.ok text), awkward.tokenLog earlier⟩, ⟨some (.ok text), []⟩] := by
      simp only [run, perform, first]
      rfl
    have member : (⟨some (.ok text), []⟩ : Reply) ∈ (awkward.run [.token earlier, .token later]).1.tail := by
      rw [replies]
      exact List.mem_singleton_self _
    obtain ⟨-, -, t, parsed, header, issuer, time⟩ := run_issued rfl (List.mem_of_mem_tail member) rfl
    exact ⟨text, t, _, member, rfl, parsed, header, issuer, time earlier signed⟩

end Signer
end PushGateway
