import PushGateway.Der.Element
import PushGateway.Proofs.Signature.Encoding

namespace PushGateway.Der

variable {bs rest : Bytes} {e : Element}

theorem longTag?_append {acc fuel n : Nat} (read : longTag? acc fuel bs = some (n, rest)) (more : Bytes) :
    longTag? acc fuel (bs ++ more) = some (n, rest ++ more) := by
  induction fuel generalizing acc bs with
  | zero => simp [longTag?] at read
  | succ fuel ih =>
    cases bs with
    | nil => simp [longTag?] at read
    | cons b bs =>
      simp only [longTag?, List.cons_append] at read ⊢
      split at read
      · next last =>
        cases read
        rw [if_pos last]
      · next further =>
        rw [if_neg further]
        exact ih read

theorem tag?_append {first : UInt8} {n : Nat} (read : tag? first bs = some (n, rest)) (more : Bytes) :
    tag? first (bs ++ more) = some (n, rest ++ more) := by
  simp only [tag?] at read ⊢
  split at read
  · next long => rw [if_pos long, longTag?_append read]
  · next short =>
    cases read
    rw [if_neg short]

theorem length?_append {n : Nat} (read : length? bs = some (n, rest)) (more : Bytes) :
    length? (bs ++ more) = some (n, rest ++ more) := by
  cases bs with
  | nil => cases read
  | cons b bs =>
    simp only [length?, List.cons_append] at read ⊢
    split at read
    · next short =>
      cases read
      rw [if_pos short]
    · next long =>
      split at read
      · cases read
      · next definite =>
        split at read
        · cases read
        · next room =>
          obtain ⟨k, number, same⟩ := Option.map_eq_some_iff.mp read
          have count : b.toNat - 0x80 ≤ bs.length := Nat.le_of_not_lt room
          have room' : ¬ (bs ++ more).length < b.toNat - 0x80 := by
            rw [List.length_append]
            omega
          rw [if_neg long, if_neg definite, if_neg room', List.take_append_of_le_length count,
            List.drop_append_of_le_length count, number]
          cases same
          rfl

theorem element?_append (read : element? bs = some (e, rest)) (more : Bytes) :
    element? (bs ++ more) = some (e, rest ++ more) := by
  cases bs with
  | nil => cases read
  | cons b bs =>
    simp only [element?, List.cons_append, Option.bind_eq_some_iff] at read ⊢
    obtain ⟨⟨tag, bs₁⟩, readTag, ⟨n, bs₂⟩, readLength, content⟩ := read
    refine ⟨_, tag?_append readTag more, _, length?_append readLength more, ?_⟩
    dsimp only at content ⊢
    split at content
    · next room =>
      have room' : n ≤ (bs₂ ++ more).length := by
        rw [List.length_append]
        omega
      cases content
      rw [if_pos room', List.take_append_of_le_length room, List.drop_append_of_le_length room]
    · cases content

theorem tagged?_eq_some {tag : Nat} :
    tagged? tag bs = some (e, rest) ↔ element? bs = some (e, rest) ∧ e.tag = tag := by
  unfold tagged?
  cases element? bs with
  | none => simp
  | some read =>
    obtain ⟨e', rest'⟩ := read
    dsimp only
    split
    · next same => simp only [Option.some.injEq, Prod.mk.injEq]; grind
    · next other => simp only [Option.some.injEq, Prod.mk.injEq]; grind

theorem length_longTag? {acc fuel n : Nat} (read : longTag? acc fuel bs = some (n, rest)) :
    rest.length ≤ bs.length := by
  induction fuel generalizing acc bs with
  | zero => simp [longTag?] at read
  | succ fuel ih =>
    cases bs with
    | nil => simp [longTag?] at read
    | cons b bs =>
      simp only [longTag?] at read
      split at read
      · cases read
        exact Nat.le_succ _
      · exact Nat.le_succ_of_le (ih read)

theorem length_length? {n : Nat} (read : length? bs = some (n, rest)) : rest.length < bs.length := by
  cases bs with
  | nil => cases read
  | cons b bs =>
    simp only [length?] at read
    split at read
    · cases read
      exact Nat.lt_succ_self _
    · split at read
      · cases read
      · split at read
        · cases read
        · obtain ⟨k, -, same⟩ := Option.map_eq_some_iff.mp read
          cases same
          rw [List.length_drop, List.length_cons]
          omega

theorem length_element? (read : element? bs = some (e, rest)) :
    e.content.length + rest.length + 2 ≤ bs.length := by
  cases bs with
  | nil => cases read
  | cons b bs =>
    simp only [element?, Option.bind_eq_some_iff] at read
    obtain ⟨⟨tag, bs₁⟩, readTag, ⟨n, bs₂⟩, readLength, content⟩ := read
    have shorter : bs₁.length ≤ bs.length := by
      simp only [tag?] at readTag
      split at readTag
      · exact length_longTag? readTag
      · cases readTag
        exact Nat.le_refl _
    have lengthOctet := length_length? readLength
    dsimp only at content lengthOctet
    split at content
    · next room =>
      cases content
      simp only [List.length_take, List.length_drop, List.length_cons]
      omega
    · cases content

theorem element?_encode (tag : UInt8) (low : tag.toNat % 32 ≠ 31) {content : Bytes}
    (short : content.length < 0x80) (rest : Bytes) :
    element? (Strict.encode tag content ++ rest) =
      some (⟨tag.toNat / 64, tag.toNat / 32 % 2 = 1, tag.toNat % 32, content⟩, rest) := by
  have octet : content.length.toUInt8.toNat = content.length := Nat.mod_eq_of_lt (by omega)
  have small : content.length.toUInt8 < 0x80 := by
    rw [UInt8.lt_iff_toNat_lt, octet]
    exact short
  rw [Strict.encode, Strict.encodeLength_short short]
  simp only [List.cons_append, element?, tag?, if_neg low, length?, if_pos small, octet, Option.bind_some]
  simp

end PushGateway.Der
