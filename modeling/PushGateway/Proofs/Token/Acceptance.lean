import PushGateway.Proofs.Base64.Canonical
import PushGateway.Proofs.Token.Segments

namespace PushGateway.Token

open Json

def HeaderText (segment : String) (algorithm : Algorithm) (raw : RawHeader) : Prop :=
  ∃ octets, Utf8.encode segment = Base64.encode Base64.urlSafe octets ∧
    readAll headerRecord.read octets = .ok (algorithm, raw)

/-- The segment is base64 of claims in JSON, which pass as registered claims too. -/
def ClaimsText (segment : String) (claims : Claims) : Prop :=
  ∃ octets, Utf8.encode segment = Base64.encode Base64.urlSafe octets ∧
    readAll claimsRecord.read octets = .ok claims ∧ readAll registeredRecord.read octets = .ok ()

theorem decodeHeader_eq_ok {segment : String} {algorithm : Algorithm} {raw : RawHeader} :
    decodeHeader (Utf8.encode segment) = .ok (algorithm, raw) ↔ HeaderText segment algorithm raw := by
  simp only [HeaderText, ← Base64.decode_eq_ok Base64.urlSafe_legible]
  unfold decodeHeader
  cases Base64.decode Base64.urlSafe (Utf8.encode segment) with
  | error e => simp
  | ok octets => cases read : readAll headerRecord.read octets <;> simp [read]

theorem readClaims_eq_ok {octets : Bytes} {claims : Claims} :
    readClaims octets = .ok claims ↔
      readAll claimsRecord.read octets = .ok claims ∧ readAll registeredRecord.read octets = .ok () := by
  unfold readClaims
  cases readAll claimsRecord.read octets with
  | error e => simp
  | ok c => cases readAll registeredRecord.read octets <;> simp [Except.map]

theorem decodeClaims_eq_ok {segment : String} {claims : Claims} :
    decodeClaims (Utf8.encode segment) = .ok claims ↔ ClaimsText segment claims := by
  simp only [ClaimsText, ← Base64.decode_eq_ok Base64.urlSafe_legible, ← readClaims_eq_ok]
  unfold decodeClaims
  cases Base64.decode Base64.urlSafe (Utf8.encode segment) with
  | error e => simp
  | ok octets => cases read : readClaims octets <;> simp [read]

/-- What `parse` answers, whatever the text: its shape is judged first, then the header and the claims,
then the key id. Texts that differ in their third segments alone have the same answer. -/
theorem parse_outcome (text : String) :
    (parse text = .error .malformed ↔ ¬ ∃ first second third, Segments text first second third) ∧
    ∀ first second third, Segments text first second third →
      ((∃ e, parse text = .error (.refused e)) ↔
        (¬ ∃ algorithm raw, HeaderText first algorithm raw) ∨ ¬ ∃ claims, ClaimsText second claims) ∧
      (parse text = .error .missingKeyId ↔
        ∃ algorithm raw claims, HeaderText first algorithm raw ∧ ClaimsText second claims ∧
          raw.keyId = none) ∧
      (∀ t, parse text = .ok t ↔
        ∃ algorithm raw claims keyId, HeaderText first algorithm raw ∧ ClaimsText second claims ∧
          raw.keyId = some keyId ∧ t = ⟨⟨algorithm, raw.type.getD "", keyId⟩, claims, text⟩) ∧
      ∀ text' third', Segments text' first second third' →
        (parse text').map (fun t => (t.header, t.claims)) =
          (parse text).map (fun t => (t.header, t.claims)) := by
  refine ⟨parse_eq_malformed, fun first second third cut => ⟨?_, ?_, ?_, ?_⟩⟩
  · simp only [cut.parse_eq_refused, ← decodeHeader_eq_ok, ← decodeClaims_eq_ok]
    cases decodeHeader (Utf8.encode first) with
    | error e => simp
    | ok h =>
      obtain ⟨algorithm, raw⟩ := h
      cases decodeClaims (Utf8.encode second) <;> simp
  · simp only [cut.parse_eq_missingKeyId, decodeHeader_eq_ok, decodeClaims_eq_ok]
  · intro t
    simp only [cut.parse_eq_ok, decodeHeader_eq_ok, decodeClaims_eq_ok]
  · intro text' third' cut'
    rw [cut.parse_eq, cut'.parse_eq]
    cases decodeHeader (Utf8.encode first) with
    | error e => rfl
    | ok h =>
      cases decodeClaims (Utf8.encode second) with
      | error e => rfl
      | ok claims => cases keyId : h.2.keyId <;> simp [keyId, Except.map]

def providerHeader : String := "eyJhbGciOiJFUzI1NiIsInR5cCI6IkpXVCIsImtpZCI6IktFWTEifQ"

def providerClaims : String := "eyJpc3MiOiJURUFNMTIzIiwiaWF0IjoiMTcwMDAwMDAwMCJ9"

def providerSignature : String :=
  "fPJ7GI0DT36KUjgDBLUaw8CJaeJ38hs1pgtI_EdmmXgPBS-HKtMy_5g0qV-NzjH1ZuDesiUxtbB9InjrRQisSw"

def providerToken : String := providerHeader ++ "." ++ providerClaims ++ "." ++ providerSignature

/-- Both a token and the same one with another signature segment are accepted. -/
theorem parse_outcome_provider :
    Segments providerToken providerHeader providerClaims providerSignature ∧
    Segments (providerHeader ++ "." ++ providerClaims ++ "." ++ "=?") providerHeader providerClaims "=?" ∧
    (parse (providerHeader ++ "." ++ providerClaims ++ "." ++ "=?")).map (fun t => (t.header, t.claims)) =
      .ok (⟨.es256, "JWT", "KEY1"⟩, ⟨"TEAM123", "1700000000"⟩) := by
  have cut : Segments providerToken providerHeader providerClaims providerSignature :=
    ⟨rfl, by decide, by decide⟩
  have other : Segments (providerHeader ++ "." ++ providerClaims ++ "." ++ "=?") providerHeader
      providerClaims "=?" := ⟨rfl, by decide, by decide⟩
  have accepted : (parse providerToken).map (fun t => (t.header, t.claims)) =
      .ok (⟨.es256, "JWT", "KEY1"⟩, ⟨"TEAM123", "1700000000"⟩) := by decide +kernel
  refine ⟨cut, other, ?_⟩
  rw [((parse_outcome providerToken).2 _ _ _ cut).2.2.2 _ _ other]
  exact accepted

end PushGateway.Token
