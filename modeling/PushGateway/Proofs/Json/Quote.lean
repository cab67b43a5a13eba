import PushGateway.Json.Text

namespace PushGateway.Json

theorem hex4?_control : ∀ n, n < 32 →
    hex4? '0'.toUInt8 '0'.toUInt8 (hexDigit (n / 16)) (hexDigit (n % 16)) = some n ∧
      isLowSurrogate n = false ∧ isHighSurrogate n = false ∧ codePoint n = [n.toUInt8] := by
  decide

theorem escape_cases (b : UInt8) :
    (escape b = [b] ∧ b ≠ quotationMark ∧ b ≠ backslash ∧ ¬ b < 0x20) ∨
    (∃ c, escape b = [backslash, c] ∧ escaped? c = some b) ∨
    (escape b = [backslash, 'u'.toUInt8, '0'.toUInt8, '0'.toUInt8, hexDigit (b.toNat / 16),
      hexDigit (b.toNat % 16)] ∧ b < 0x20) := by
  by_cases letter : ∃ c, escape b = [backslash, c] ∧ escaped? c = some b
  · exact .inr (.inl letter)
  · have other : ∀ c d : UInt8, escape d = [backslash, c] → escaped? c = some d → b ≠ d := by
      intro c d written value same
      subst same
      exact letter ⟨c, written, value⟩
    have h₁ : b ≠ quotationMark := other quotationMark _ rfl rfl
    have h₂ : b ≠ backslash := other backslash _ rfl rfl
    have h₃ : b ≠ 0x08 := other 'b'.toUInt8 _ rfl rfl
    have h₄ : b ≠ 0x0C := other 'f'.toUInt8 _ rfl rfl
    have h₅ : b ≠ 0x0A := other 'n'.toUInt8 _ rfl rfl
    have h₆ : b ≠ 0x0D := other 'r'.toUInt8 _ rfl rfl
    have h₇ : b ≠ 0x09 := other 't'.toUInt8 _ rfl rfl
    unfold escape
    simp only [h₁, h₂, h₃, h₄, h₅, h₆, h₇, if_false]
    by_cases h₈ : b < 0x20
    · exact .inr (.inr ⟨if_pos h₈, h₈⟩)
    · exact .inl ⟨if_neg h₈, h₁, h₂, h₈⟩

theorem backslash_ne : backslash ≠ quotationMark ∧ ¬ backslash < 0x20 := by decide

theorem textOctets_escape (b : UInt8) (more : Bytes) :
    textOctets (escape b ++ more) = (textOctets more).map (b :: ·) := by
  rcases escape_cases b with ⟨plain, hq, hs, hc⟩ | ⟨c, letter, value⟩ | ⟨number, hc⟩
  · rw [plain, List.singleton_append]
    rw [textOctets.eq_def]
    simp only [if_neg hq, if_neg hc, if_pos hs]
  · rw [letter, List.cons_append, List.singleton_append]
    rw [textOctets.eq_def]
    simp only [backslash_ne, ne_eq, not_true_eq_false, if_false, value]
  · have small : b.toNat < 32 := UInt8.lt_iff_toNat_lt.mp hc
    obtain ⟨digits, low, high, point⟩ := hex4?_control b.toNat small
    rw [number]
    simp only [List.cons_append, List.nil_append]
    rw [textOctets.eq_def]
    simp only [backslash_ne, ne_eq, not_true_eq_false, if_false, digits, low, high, point,
      show escaped? 'u'.toUInt8 = none from by decide, Bool.not_false, if_true, Bool.false_eq_true,
      List.singleton_append, UInt8.ofNat_toNat, Nat.toUInt8]

theorem skipText_escape (b : UInt8) (more : Bytes) : skipText (escape b ++ more) = skipText more := by
  rcases escape_cases b with ⟨plain, hq, hs, hc⟩ | ⟨c, letter, value⟩ | ⟨number, hc⟩
  · rw [plain, List.singleton_append]
    rw [skipText.eq_def]
    simp only [if_neg hq, if_neg hc, if_pos hs]
  · rw [letter, List.cons_append, List.singleton_append]
    rw [skipText.eq_def]
    simp only [backslash_ne, ne_eq, not_true_eq_false, if_false, value, Option.isSome_some, if_true]
  · have small : b.toNat < 32 := UInt8.lt_iff_toNat_lt.mp hc
    have digits := (hex4?_control b.toNat small).1
    rw [number]
    simp only [List.cons_append, List.nil_append]
    rw [skipText.eq_def]
    simp only [backslash_ne, ne_eq, not_true_eq_false, if_false, digits, Option.isSome_some, if_true,
      show escaped? 'u'.toUInt8 = none from by decide, Option.isSome_none, Bool.false_eq_true]

/-- Any octets between quotation marks are read back, whether they make up a text or not. -/
theorem textOctets_flatMap_escape (bs rest : Bytes) :
    textOctets (bs.flatMap escape ++ quotationMark :: rest) = .done bs rest := by
  induction bs with
  | nil =>
    rw [List.flatMap_nil, List.nil_append]
    unfold textOctets
    rw [if_pos rfl]
  | cons b bs ih =>
    rw [List.flatMap_cons, List.append_assoc, textOctets_escape, ih]
    rfl

def quoteTail (s : String) : Bytes := (Utf8.encode s).flatMap escape ++ [quotationMark]

theorem quote_eq (s : String) : quote s = quotationMark :: quoteTail s := rfl

theorem readText_quoteTail (s : String) (rest : Bytes) : readText (quoteTail s ++ rest) = .done s rest := by
  have octets : textOctets (quoteTail s ++ rest) = .done (Utf8.encode s) rest := by
    rw [quoteTail, List.append_assoc]
    exact textOctets_flatMap_escape (Utf8.encode s) rest
  rw [readText, octets]
  simp only [Utf8.decode?_encode]

theorem skipText_quoteTail (s : String) (rest : Bytes) : skipText (quoteTail s ++ rest) = .done () rest := by
  rw [quoteTail, List.append_assoc]
  induction Utf8.encode s with
  | nil =>
    rw [List.flatMap_nil, List.nil_append, List.singleton_append]
    unfold skipText
    rw [if_pos rfl]
  | cons b bs ih => rw [List.flatMap_cons, List.append_assoc, skipText_escape, ih]

end PushGateway.Json
