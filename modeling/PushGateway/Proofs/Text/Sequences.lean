import PushGateway.Proofs.Text.Ascii
/-!
Characters in a row of octets: where one begins and where it ends can be told from the octets alone.
-/

namespace PushGateway.Utf8

/-- An octet that goes on with a character of several octets. -/
def Continues (b : UInt8) : Prop := 0x80 ≤ b.toNat ∧ b.toNat < 0xC0

theorem not_continues_of_ascii {b : UInt8} (ascii : b < 128) : ¬ Continues b := by
  have small : b.toNat < 128 := UInt8.lt_iff_toNat_lt.mp ascii
  rw [Continues]
  omega

theorem encodeChar_lead (c : Char) : ∃ b ks, encodeChar c = b :: ks ∧ ¬ Continues b ∧ ∀ k ∈ ks, Continues k := by
  have more (n : Nat) : Continues (UInt8.ofNat (n % 64 + 128)) := by
    rw [Continues, UInt8.toNat_ofNat']
    omega
  have lead {n : Nat} (high : n < 128 ∨ 192 ≤ n ∧ n < 256) : ¬ Continues (UInt8.ofNat n) := by
    rw [Continues, UInt8.toNat_ofNat']
    omega
  unfold encodeChar String.utf8EncodeChar
  dsimp only
  split
  · exact ⟨_, [], rfl, lead (by omega), nofun⟩
  split
  · exact ⟨_, [_], rfl, lead (by omega), by simp only [List.forall_mem_singleton, more]⟩
  split
  · exact ⟨_, [_, _], rfl, lead (by omega), by
      simp only [List.forall_mem_cons, List.not_mem_nil, more, true_and, false_imp_iff, implies_true]⟩
  · exact ⟨_, [_, _, _], rfl, lead (by omega), by
      simp only [List.forall_mem_cons, List.not_mem_nil, more, true_and, false_imp_iff, implies_true]⟩

theorem encodeChar_append_inj {c d : Char} {x y : Bytes} (same : encodeChar c ++ x = encodeChar d ++ y) :
    c = d ∧ x = y := by
  have read (c : Char) (x : Bytes) : ByteArray.utf8DecodeChar? (encodeChar c ++ x).toByteArray 0 = some c := by
    rw [List.toByteArray_append]
    exact ByteArray.utf8DecodeChar?_utf8EncodeChar_append
  obtain rfl : c = d := Option.some.inj ((read c x).symm.trans (same ▸ read d y))
  exact ⟨rfl, List.append_cancel_left same⟩

end PushGateway.Utf8
