import PushGateway.Proofs.Base64.RoundTrip
import PushGateway.Proofs.Json.Object
import PushGateway.Proofs.Key.Encoding
import PushGateway.Proofs.Token.Segments
import PushGateway.Token.Signer

namespace PushGateway

namespace Token

theorem encode_asciiText {bs : Bytes} (ascii : ∀ b ∈ bs, b < 128) :
    Utf8.encode (Signer.asciiText bs) = bs := by
  rw [Signer.asciiText, Utf8.encode_ofList]
  induction bs with
  | nil => rfl
  | cons b bs ih =>
    have first := Utf8.encodeChar_ascii (ascii b List.mem_cons_self)
    have others := ih fun c hc => ascii c (List.mem_cons_of_mem b hc)
    rw [List.map_cons, List.flatMap_cons, first, others, List.singleton_append]

def segment (octets : Bytes) : String := Signer.asciiText (Base64.encode Base64.urlSafe octets)

theorem encode_segment (octets : Bytes) :
    Utf8.encode (segment octets) = Base64.encode Base64.urlSafe octets :=
  encode_asciiText fun b hb => (Base64.mem_encode_urlSafe octets b hb).2

theorem segment_ne_empty {octets : Bytes} (filled : octets ≠ []) : segment octets ≠ "" := by
  have written : Base64.encode Base64.urlSafe octets ≠ [] := Base64.encode_ne_nil filled
  rw [← encode_segment] at written
  exact mt Utf8.encode_eq_nil.mpr written

theorem dot_not_mem_segment (octets : Bytes) : '.' ∉ (segment octets).toList := by
  intro member
  have written := (Utf8.mem_encode dot_ascii (segment octets)).mpr member
  rw [encode_segment] at written
  exact (Base64.mem_encode_urlSafe octets dot written).1 rfl

/-- Octets written as three segments, none of them empty. -/
theorem segments_of_octets {a b c : Bytes} (ha : a ≠ []) (hb : b ≠ []) (hc : c ≠ []) :
    Segments (segment a ++ "." ++ segment b ++ "." ++ segment c) (segment a) (segment b) (segment c) where
  joined := rfl
  filled := ⟨segment_ne_empty ha, segment_ne_empty hb, segment_ne_empty hc⟩
  undotted := ⟨dot_not_mem_segment a, dot_not_mem_segment b, dot_not_mem_segment c⟩

end Token

namespace Signer

open Json

variable (s : Signer) (time : UnixTime)

def headerMembers : List (String × Bytes) :=
  [("alg", quote "ES256"), ("typ", quote "JWT"), ("kid", quote s.keyId)]

def claimsMembers : List (String × Bytes) :=
  [("iss", quote s.issuer), ("iat", quote (toString time.seconds))]

theorem headerJson_eq : s.headerJson = objectText s.headerMembers := by
  have opening : Utf8.encode "\x7b\"alg\":\"ES256\",\"typ\":\"JWT\",\"kid\":" =
      Bracket.object.openMark :: (quote "alg" ++ colon :: (quote "ES256" ++
        comma :: (quote "typ" ++ colon :: (quote "JWT" ++ comma :: (quote "kid" ++ [colon]))))) := rfl
  simp only [headerJson, headerMembers, objectText, membersText, opening, if_true, Bool.false_eq_true,
    if_false, List.cons_append, List.nil_append, List.append_assoc]
  rfl

theorem claimsJson_eq : s.claimsJson time = objectText (s.claimsMembers time) := by
  have opening : Utf8.encode "\x7b\"iss\":" = Bracket.object.openMark :: (quote "iss" ++ [colon]) := rfl
  have middle : Utf8.encode ",\"iat\":" = comma :: (quote "iat" ++ [colon]) := rfl
  simp only [claimsJson, claimsMembers, objectText, membersText, opening, middle, if_true,
    Bool.false_eq_true, if_false, List.cons_append, List.nil_append, List.append_assoc]
  rfl

def rawHeader : Token.RawHeader where
  algorithm := some .es256
  type := some "JWT"
  keyId := some s.keyId

theorem header_accepted : Accepts Token.headerRecord [] {} s.headerMembers s.rawHeader := by
  have kid : Accepts Token.headerRecord ["typ", "alg"] { algorithm := some .es256, type := some "JWT" }
      [("kid", quote s.keyId)] s.rawHeader := by
    refine .known rfl (by decide) ?_ .done
    intro rest
    simp only [Reader.bind_apply, optional_quote]
    rfl
  have typ : Accepts Token.headerRecord ["alg"] { algorithm := some .es256 }
      [("typ", quote "JWT"), ("kid", quote s.keyId)] s.rawHeader := by
    refine .known rfl (by decide) ?_ kid
    intro rest
    simp only [Reader.bind_apply, optional_quote]
    rfl
  have listed : Token.Algorithm.names.lookup "ES256" = some .es256 := rfl
  refine .known rfl (by decide) ?_ typ
  intro rest
  simp only [Reader.bind_apply, variant_quote _ listed]
  rfl

theorem claims_accepted : Accepts Token.claimsRecord [] (none, none) (s.claimsMembers time)
    (some s.issuer, some (toString time.seconds)) := by
  have iat : Accepts Token.claimsRecord ["iss"] (some s.issuer, none)
      [("iat", quote (toString time.seconds))] (some s.issuer, some (toString time.seconds)) := by
    refine .known rfl (by decide) ?_ .done
    intro rest
    simp only [Reader.bind_apply, text_quote]
    rfl
  refine .known rfl (by decide) ?_ iat
  intro rest
  simp only [Reader.bind_apply, text_quote]
  rfl

theorem registered_accepted : Accepts Token.registeredRecord [] () (s.claimsMembers time) () := by
  refine .known rfl (by decide) ?_ (.unknown rfl ?_ .done)
  · intro rest
    simp only [Reader.tolerate_apply, optional_quote]
    rfl
  · intro rest
    exact skipValue_quote _

theorem decodeHeader_headerJson :
    Token.decodeHeader (Base64.encode Base64.urlSafe s.headerJson) = .ok (.es256, s.rawHeader) := by
  have read := readAll_objectText s.header_accepted (a := (Token.Algorithm.es256, s.rawHeader)) rfl
  simp only [Token.decodeHeader, Base64.decode_encode Base64.urlSafe_legible, headerJson_eq, read]

theorem decodeClaims_claimsJson :
    Token.decodeClaims (Base64.encode Base64.urlSafe (s.claimsJson time)) =
      .ok ⟨s.issuer, toString time.seconds⟩ := by
  have read := readAll_objectText (s.claims_accepted time)
    (a := (⟨s.issuer, toString time.seconds⟩ : Token.Claims)) rfl
  have again := readAll_objectText (s.registered_accepted time) (a := ()) rfl
  simp only [Token.decodeClaims, Base64.decode_encode Base64.urlSafe_legible, claimsJson_eq,
    Token.readClaims, read, again]
  rfl

theorem headerJson_ne_nil : s.headerJson ≠ [] := by
  rw [headerJson_eq]
  exact List.cons_ne_nil _ _

theorem claimsJson_ne_nil : s.claimsJson time ≠ [] := by
  rw [claimsJson_eq]
  exact List.cons_ne_nil _ _

def tokenText (sig : Signature) : String :=
  asciiText (s.signedPart time ++ Token.dot :: Base64.encode Base64.urlSafe sig.encodeFixed)

theorem tokenText_eq (sig : Signature) : s.tokenText time sig =
    Token.segment s.headerJson ++ "." ++ Token.segment (s.claimsJson time) ++ "." ++
      Token.segment sig.encodeFixed := by
  rw [← String.toList_inj]
  simp only [tokenText, signedPart, asciiText, Token.segment, String.toList_append, String.toList_ofList,
    List.map_append, List.map_cons, List.append_assoc, List.cons_append]
  rfl

theorem tokenText_segments (sig : Signature) : Token.Segments (s.tokenText time sig)
    (Token.segment s.headerJson) (Token.segment (s.claimsJson time)) (Token.segment sig.encodeFixed) := by
  have full : sig.encodeFixed ≠ [] :=
    List.ne_nil_of_length_pos (by rw [sig.length_encodeFixed]; decide)
  rw [tokenText_eq]
  exact Token.segments_of_octets s.headerJson_ne_nil (s.claimsJson_ne_nil time) full

theorem encode_signed : Utf8.encode (Token.segment s.headerJson ++ "." ++ Token.segment (s.claimsJson time)) =
    s.signedPart time := by
  rw [Token.encode_dotted, Token.encode_segment, Token.encode_segment, signedPart]

def issued (sig : Signature) : Token where
  header := ⟨.es256, "JWT", s.keyId⟩
  claims := ⟨s.issuer, toString time.seconds⟩
  encoded := s.tokenText time sig

theorem parse_issued (sig : Signature) : Token.parse (s.tokenText time sig) = .ok (s.issued time sig) := by
  have header := s.decodeHeader_headerJson
  have claims := s.decodeClaims_claimsJson time
  rw [← Token.encode_segment] at header claims
  exact (s.tokenText_segments time sig).parse_eq_ok.mpr ⟨_, _, _, _, header, claims, rfl, rfl⟩

end Signer
end PushGateway
