import Mathlib.Data.Nat.Digits.Defs
import PushGateway.Decimal.Unsigned

namespace PushGateway.Decimal

variable {acc limit n : Nat} {c : Char} {cs : List Char} {s : String}

abbrev IsDigit (c : Char) : Prop := '0' ≤ c ∧ c ≤ '9'

/-- The value of digits, the last of which counts ones. -/
def value (digits : List Char) : Nat :=
  Nat.ofDigits 10 (digits.reverse.map fun c => c.toNat - '0'.toNat)

def Numeral (s : String) (n : Nat) : Prop :=
  ∃ digits : List Char, digits ≠ [] ∧ (∀ c ∈ digits, IsDigit c) ∧
    (s.toList = digits ∨ s.toList = '+' :: digits) ∧ value digits = n

theorem value_cons (c : Char) (cs : List Char) :
    value (c :: cs) = (c.toNat - '0'.toNat) * 10 ^ cs.length + value cs := by
  simp only [value, List.reverse_cons, List.map_append, List.map_cons, List.map_nil, Nat.ofDigits_append,
    Nat.ofDigits_singleton, List.length_map, List.length_reverse]
  rw [Nat.add_comm, Nat.mul_comm]

theorem digit?_eq (c : Char) : digit? c = if IsDigit c then some (c.toNat - '0'.toNat) else none := rfl

theorem readDigits?_eq_some :
    readDigits? acc cs = some n ↔ (∀ c ∈ cs, IsDigit c) ∧ acc * 10 ^ cs.length + value cs = n := by
  induction cs generalizing acc with
  | nil => simp [readDigits?, value]
  | cons c cs ih =>
    rw [readDigits?, digit?_eq, value_cons, List.forall_mem_cons]
    by_cases digit : IsDigit c
    · have shifted : (acc * 10 + (c.toNat - '0'.toNat)) * 10 ^ cs.length + value cs =
          acc * 10 ^ (c :: cs).length + ((c.toNat - '0'.toNat) * 10 ^ cs.length + value cs) := by
        rw [List.length_cons]
        ring
      rw [if_pos digit, Option.bind_some, ih, shifted]
      exact and_congr_left fun _ => (and_iff_right digit).symm
    · rw [if_neg digit, Option.bind_none]
      simp only [digit, false_and, reduceCtorEq]

theorem unsigned_cases (cs : List Char) : cs = unsigned cs ∨ cs = '+' :: unsigned cs := by
  unfold unsigned
  split
  · exact .inr rfl
  · exact .inl rfl

theorem unsigned_digits (digits : ∀ c ∈ cs, IsDigit c) : unsigned cs = cs := by
  unfold unsigned
  split
  · exact absurd (digits '+' List.mem_cons_self) (by decide)
  · rfl

theorem read?_eq_some : read? limit s = some n ↔ Numeral s n ∧ n ≤ limit := by
  have whole : read? limit s = some n ↔
      unsigned s.toList ≠ [] ∧ readDigits? 0 (unsigned s.toList) = some n ∧ n ≤ limit := by
    unfold read?
    split
    · next empty => simp [empty]
    · next filled => simp [Option.filter_eq_some_iff, show unsigned s.toList ≠ [] from filled]
  rw [whole, readDigits?_eq_some, Nat.zero_mul, Nat.zero_add]
  constructor
  · rintro ⟨filled, ⟨digits, value⟩, bound⟩
    exact ⟨⟨unsigned s.toList, filled, digits, unsigned_cases s.toList, value⟩, bound⟩
  · rintro ⟨⟨cs, filled, digits, plain | signed, value⟩, bound⟩
    · rw [plain, unsigned_digits digits]
      exact ⟨filled, ⟨digits, value⟩, bound⟩
    · rw [signed]
      exact ⟨filled, ⟨digits, value⟩, bound⟩

end PushGateway.Decimal
