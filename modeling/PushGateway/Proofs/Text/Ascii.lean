import PushGateway.Text.Fields
import PushGateway.Text.Utf8
/-!
ASCII inside encoded text: an octet below 128 stands for its own character wherever it occurs.
-/

namespace PushGateway.Utf8

theorem encode_eq_flatMap (s : String) : encode s = s.toList.flatMap encodeChar := by
  rw [encode, String.toUTF8_eq_toByteArray, ← String.utf8Encode_toList, List.utf8Encode,
    List.data_toByteArray]
  rfl

theorem encode_ofList (cs : List Char) : encode (String.ofList cs) = cs.flatMap encodeChar := by
  rw [encode_eq_flatMap, String.toList_ofList]

theorem encode_append (s t : String) : encode (s ++ t) = encode s ++ encode t := by
  simp only [encode_eq_flatMap, String.toList_append, List.flatMap_append]

theorem encodeChar_ne_nil (c : Char) : encodeChar c ≠ [] := String.utf8EncodeChar_ne_nil

theorem flatMap_encodeChar_eq_nil {cs : List Char} : cs.flatMap encodeChar = [] ↔ cs = [] := by
  cases cs with
  | nil => simp
  | cons c cs => simp [encodeChar_ne_nil]

theorem encode_eq_nil {s : String} : encode s = [] ↔ s = "" := by
  rw [encode_eq_flatMap, flatMap_encodeChar_eq_nil, String.toList_eq_nil_iff]

theorem encodeChar_ascii {b : UInt8} (ascii : b < 128) : encodeChar (Char.ofNat b.toNat) = [b] := by
  have codes : ∀ n, n < 128 → encodeChar (Char.ofNat n) = [n.toUInt8] := by decide
  have code := codes b.toNat (UInt8.lt_iff_toNat_lt.mp ascii)
  rwa [show b.toNat.toUInt8 = b from UInt8.ofNat_toNat] at code

theorem eq_of_mem_encodeChar {b : UInt8} {c : Char} (ascii : b < 128) (member : b ∈ encodeChar c) :
    c = Char.ofNat b.toNat := by
  have small : b.toNat < 128 := UInt8.lt_iff_toNat_lt.mp ascii
  unfold encodeChar String.utf8EncodeChar at member
  dsimp only at member
  split at member
  · next one =>
    have value : b.toNat = c.toNat := by
      rw [List.mem_singleton.mp member, UInt8.toNat_ofNat', Char.toNat_val]
      rw [Char.toNat_val] at one
      omega
    rw [value, Char.ofNat_toNat]
  · exfalso
    split at member
    · simp only [List.mem_cons, List.not_mem_nil, or_false] at member
      rcases member with rfl | rfl <;> rw [UInt8.toNat_ofNat'] at small <;> omega
    · split at member
      · simp only [List.mem_cons, List.not_mem_nil, or_false] at member
        rcases member with rfl | rfl | rfl <;> rw [UInt8.toNat_ofNat'] at small <;> omega
      · simp only [List.mem_cons, List.not_mem_nil, or_false] at member
        rcases member with rfl | rfl | rfl | rfl <;> rw [UInt8.toNat_ofNat'] at small <;> omega

theorem mem_encode {b : UInt8} (ascii : b < 128) (s : String) :
    b ∈ encode s ↔ Char.ofNat b.toNat ∈ s.toList := by
  rw [encode_eq_flatMap, List.mem_flatMap]
  constructor
  · rintro ⟨c, hc, member⟩
    exact eq_of_mem_encodeChar ascii member ▸ hc
  · intro member
    exact ⟨_, member, by rw [encodeChar_ascii ascii]; exact List.mem_singleton_self b⟩

theorem fields_flatMap_encodeChar {b : UInt8} (ascii : b < 128) (cs : List Char) :
    Text.fields b (cs.flatMap encodeChar) =
      (Text.fields (Char.ofNat b.toNat) cs).map (·.flatMap encodeChar) := by
  induction cs with
  | nil => rfl
  | cons c cs ih =>
    rw [List.flatMap_cons]
    by_cases separator : c = Char.ofNat b.toNat
    · rw [separator, encodeChar_ascii ascii, List.singleton_append]
      simp only [Text.fields, if_true, ih, List.map_cons, List.flatMap_nil]
    · have absent : b ∉ encodeChar c := fun member => separator (eq_of_mem_encodeChar ascii member)
      rw [Text.fields_append absent, ih, Text.fields, if_neg separator]
      cases hf : Text.fields (Char.ofNat b.toNat) cs with
      | nil => exact absurd hf (Text.fields_ne_nil _ cs)
      | cons f fs => simp only [List.map_cons, List.headD_cons, List.tail_cons, List.flatMap_cons]

section Occurrence

variable {b : UInt8} {ps xs rest : Bytes} {cs : List Char}

theorem infix_append_right (absent : b ∉ xs) (found : b :: ps <:+: xs ++ rest) : b :: ps <:+: rest := by
  induction xs with
  | nil => exact found
  | cons x xs ih =>
    rcases List.infix_cons_iff.mp found with here | later
    · exact absurd ((List.cons_prefix_cons.mp here).1 ▸ List.mem_cons_self) absent
    · exact ih (List.not_mem_of_not_mem_cons absent) later

theorem prefix_of_octets (ascii : ps.all (· < 128)) (found : ps <+: cs.flatMap encodeChar) :
    ps.map (fun b => Char.ofNat b.toNat) <+: cs := by
  induction ps generalizing cs with
  | nil => exact List.nil_prefix
  | cons b ps ih =>
    simp only [List.all_cons, Bool.and_eq_true, decide_eq_true_eq] at ascii
    obtain ⟨small, ascii⟩ := ascii
    cases cs with
    | nil => cases List.prefix_nil.mp found
    | cons c cs =>
      obtain ⟨lead, more, octets⟩ := List.exists_cons_of_ne_nil (encodeChar_ne_nil c)
      rw [List.flatMap_cons, octets, List.cons_append, List.cons_prefix_cons] at found
      have char : c = Char.ofNat b.toNat := eq_of_mem_encodeChar small (by simp [octets, found.1])
      rw [char, encodeChar_ascii small] at octets
      rw [(List.cons.inj octets).2.symm] at found
      rw [List.map_cons, char]
      exact List.cons_prefix_cons.mpr ⟨rfl, ih ascii found.2⟩

/-- ASCII in the octets of a text stands for its characters. -/
theorem infix_of_octets (ascii : ps.all (· < 128)) (found : ps <:+: cs.flatMap encodeChar) :
    ps.map (fun b => Char.ofNat b.toNat) <:+: cs := by
  cases ps with
  | nil => exact List.nil_infix
  | cons b ps =>
    have small := of_decide_eq_true (List.all_eq_true.mp ascii b List.mem_cons_self)
    induction cs with
    | nil => cases List.infix_nil.mp found
    | cons c cs ih =>
      rw [List.flatMap_cons] at found
      by_cases member : b ∈ encodeChar c
      · have octets : encodeChar c = [b] := eq_of_mem_encodeChar small member ▸ encodeChar_ascii small
        have whole : (c :: cs).flatMap encodeChar = b :: cs.flatMap encodeChar := by
          rw [List.flatMap_cons, octets, List.singleton_append]
        rw [octets, List.singleton_append] at found
        rcases List.infix_cons_iff.mp found with here | later
        · exact (prefix_of_octets ascii (whole ▸ here)).isInfix
        · exact (ih later).trans (List.suffix_cons c cs).isInfix
      · exact (ih (infix_append_right member found)).trans (List.suffix_cons c cs).isInfix

end Occurrence

end PushGateway.Utf8
