import Mathlib.Data.List.Basic
import PushGateway.Proofs.Text.Ascii
import PushGateway.Token.Basic

namespace PushGateway.Token

/-- Three non-empty segments joined by dots; no segment holds a dot itself. -/
structure Segments (text first second third : String) : Prop where
  joined : text = first ++ "." ++ second ++ "." ++ third
  filled : first ≠ "" ∧ second ≠ "" ∧ third ≠ ""
  undotted : '.' ∉ first.toList ∧ '.' ∉ second.toList ∧ '.' ∉ third.toList

theorem dot_ascii : dot < 128 := by decide

theorem dot_not_mem_encode {s : String} (undotted : '.' ∉ s.toList) : dot ∉ Utf8.encode s :=
  fun member => undotted ((Utf8.mem_encode dot_ascii s).mp member)

theorem encode_dotted (s t : String) : Utf8.encode (s ++ "." ++ t) = Utf8.encode s ++ dot :: Utf8.encode t := by
  have mark : Utf8.encode "." = [dot] := rfl
  simp only [Utf8.encode_append, mark, List.append_assoc, List.singleton_append]

namespace Segments

variable {text first second third : String}

theorem encode_text (h : Segments text first second third) :
    Utf8.encode text = Utf8.encode (first ++ "." ++ second) ++ dot :: Utf8.encode third := by
  rw [h.joined, encode_dotted]

theorem fields_eq (h : Segments text first second third) :
    Text.fields dot (Utf8.encode text) = [Utf8.encode first, Utf8.encode second, Utf8.encode third] := by
  rw [h.encode_text, encode_dotted, List.append_assoc, List.cons_append,
    Text.fields_append_separator (dot_not_mem_encode h.undotted.1),
    Text.fields_append_separator (dot_not_mem_encode h.undotted.2.1),
    Text.fields_eq_singleton (dot_not_mem_encode h.undotted.2.2)]

theorem well_shaped (h : Segments text first second third) :
    ¬ ((Text.fields dot (Utf8.encode text)).length ≠ 3 ∨ [] ∈ Text.fields dot (Utf8.encode text)) := by
  have first_filled := mt Utf8.encode_eq_nil.mp h.filled.1
  have second_filled := mt Utf8.encode_eq_nil.mp h.filled.2.1
  have third_filled := mt Utf8.encode_eq_nil.mp h.filled.2.2
  rw [h.fields_eq]
  rintro (count | empty)
  · exact count rfl
  · simp only [List.mem_cons, List.not_mem_nil, or_false] at empty
    rcases empty with empty | empty | empty
    · exact first_filled empty.symm
    · exact second_filled empty.symm
    · exact third_filled empty.symm

theorem of_shape (shaped : ¬ ((Text.fields dot (Utf8.encode text)).length ≠ 3 ∨
    [] ∈ Text.fields dot (Utf8.encode text))) : ∃ a b c, Segments text a b c := by
  -- the octets are parted where the characters are
  have parted := Utf8.fields_flatMap_encodeChar dot_ascii text.toList
  rw [← Utf8.encode_eq_flatMap, show Char.ofNat dot.toNat = '.' from rfl] at parted
  obtain ⟨count, filled⟩ := not_or.mp shaped
  rw [parted, List.length_map, ne_eq, Decidable.not_not] at count
  obtain ⟨a, b, c, cut⟩ := List.length_eq_three.mp count
  have whole := Text.intercalate_fields '.' text.toList
  have undotted : ∀ f ∈ Text.fields '.' text.toList, '.' ∉ f := Text.separator_not_mem_fields text.toList
  rw [parted, cut] at filled
  rw [cut] at whole undotted
  have nonempty : ∀ cs ∈ [a, b, c], String.ofList cs ≠ "" := by
    intro cs member empty
    refine filled (List.mem_map.mpr ⟨cs, member, ?_⟩)
    rw [← Utf8.encode_ofList, empty]
    rfl
  simp only [List.forall_mem_cons] at undotted nonempty
  refine ⟨String.ofList a, String.ofList b, String.ofList c, ?_, ?_, ?_⟩
  · rw [← String.toList_inj, ← whole]
    simp [List.intercalate]
  · exact ⟨nonempty.1, nonempty.2.1, nonempty.2.2.1⟩
  · simp only [String.toList_ofList]
    exact ⟨undotted.1, undotted.2.1, undotted.2.2.1⟩

theorem split_text (h : Segments text first second third) :
    split (Utf8.encode text) = .ok (Utf8.encode (first ++ "." ++ second), Utf8.encode third) := by
  rw [split, h.encode_text, Text.splitLast?_append _ (dot_not_mem_encode h.undotted.2.2)]

theorem split_message (h : Segments text first second third) :
    split (Utf8.encode (first ++ "." ++ second)) = .ok (Utf8.encode first, Utf8.encode second) := by
  rw [split, encode_dotted, Text.splitLast?_append _ (dot_not_mem_encode h.undotted.2.1)]

theorem decode_eq (h : Segments text first second third) (key? : Option Bytes) :
    decode key? (Utf8.encode text) =
      decodeHeader (Utf8.encode first) >>= fun header =>
        judge key? header.1 (Utf8.encode (first ++ "." ++ second)) (Utf8.encode third) >>= fun _ =>
          (decodeClaims (Utf8.encode second)).map (Content.mk header.1 header.2) := by
  simp only [decode, h.split_text, h.split_message, bind, Except.bind, pure, Except.pure]
  cases decodeHeader (Utf8.encode first) with
  | error e => rfl
  | ok header =>
    dsimp only
    cases judge key? header.1 (Utf8.encode (first ++ "." ++ second)) (Utf8.encode third) with
    | error e => rfl
    | ok _ => cases decodeClaims (Utf8.encode second) <;> rfl

/-- The signature segment has no part in what `parse` answers. -/
theorem parse_eq (h : Segments text first second third) :
    parse text =
      match decodeHeader (Utf8.encode first) with
      | .error e => .error (.refused e)
      | .ok header =>
        match decodeClaims (Utf8.encode second) with
        | .error e => .error (.refused e)
        | .ok claims =>
          match header.2.keyId with
          | none => .error .missingKeyId
          | some keyId => .ok ⟨⟨header.1, header.2.type.getD "", keyId⟩, claims, text⟩ := by
  rw [parse, if_neg h.well_shaped, h.decode_eq]
  cases decodeHeader (Utf8.encode first) with
  | error e => rfl
  | ok header => cases decodeClaims (Utf8.encode second) <;> rfl

theorem parse_eq_refused (h : Segments text first second third) {e : Refusal} :
    parse text = .error (.refused e) ↔
      decodeHeader (Utf8.encode first) = .error e ∨
      (∃ header, decodeHeader (Utf8.encode first) = .ok header) ∧
        decodeClaims (Utf8.encode second) = .error e := by
  rw [h.parse_eq]
  cases decodeHeader (Utf8.encode first) with
  | error e' => simp
  | ok header =>
    cases decodeClaims (Utf8.encode second) with
    | error e' => simp
    | ok claims => cases hk : header.2.keyId <;> simp [hk]

theorem parse_eq_missingKeyId (h : Segments text first second third) :
    parse text = .error .missingKeyId ↔
      ∃ algorithm raw claims, decodeHeader (Utf8.encode first) = .ok (algorithm, raw) ∧
        decodeClaims (Utf8.encode second) = .ok claims ∧ raw.keyId = none := by
  rw [h.parse_eq]
  cases decodeHeader (Utf8.encode first) with
  | error e' => simp
  | ok header =>
    cases decodeClaims (Utf8.encode second) with
    | error e' => simp
    | ok claims => cases hk : header.2.keyId <;> simp [hk, Prod.ext_iff]

theorem parse_eq_ok (h : Segments text first second third) {t : Token} :
    parse text = .ok t ↔
      ∃ algorithm raw claims keyId, decodeHeader (Utf8.encode first) = .ok (algorithm, raw) ∧
        decodeClaims (Utf8.encode second) = .ok claims ∧ raw.keyId = some keyId ∧
        t = ⟨⟨algorithm, raw.type.getD "", keyId⟩, claims, text⟩ := by
  rw [h.parse_eq]
  cases decodeHeader (Utf8.encode first) with
  | error e' => simp
  | ok header =>
    cases decodeClaims (Utf8.encode second) with
    | error e' => simp
    | ok claims => cases hk : header.2.keyId <;> simp [hk, Prod.ext_iff, eq_comm]

end Segments

theorem parse_eq_malformed {text : String} :
    parse text = .error .malformed ↔ ¬ ∃ first second third, Segments text first second third := by
  constructor
  · rintro malformed ⟨first, second, third, h⟩
    rw [h.parse_eq] at malformed
    split at malformed
    · cases malformed
    · split at malformed
      · cases malformed
      · split at malformed <;> cases malformed
  · intro none
    by_cases shaped : (Text.fields dot (Utf8.encode text)).length ≠ 3 ∨
        [] ∈ Text.fields dot (Utf8.encode text)
    · rw [parse, if_pos shaped]
    · exact absurd (Segments.of_shape shaped) none

end PushGateway.Token
