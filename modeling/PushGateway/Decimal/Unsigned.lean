/-!
Unsigned decimal text: an optional plus sign and one or more ASCII digits, with a bound on the value. Main
statement: a number within the bound is read back from its digits.
-/

namespace PushGateway.Decimal

def maxU64 : Nat := 18446744073709551615

/-- How far a signed 64-bit number can lie below zero. -/
def minI64 : Nat := 9223372036854775808

def maxU16 : Nat := 65535

def digit? (c : Char) : Option Nat :=
  if '0' ≤ c ∧ c ≤ '9' then some (c.toNat - '0'.toNat) else none

/-- Reads digits to the end of the text, continuing the value `acc`. -/
def readDigits? (acc : Nat) : List Char → Option Nat
  | [] => some acc
  | c :: cs => (digit? c).bind fun d => readDigits? (acc * 10 + d) cs

/-- The digits after an optional plus sign. -/
def unsigned : List Char → List Char
  | '+' :: cs => cs
  | cs => cs

/-- Reads an unsigned number that is at most `limit`. -/
def read? (limit : Nat) (s : String) : Option Nat :=
  match unsigned s.toList with
  | [] => none
  | cs => (readDigits? 0 cs).filter (· ≤ limit)

theorem digit?_digitChar {d : Nat} (small : d < 10) : digit? d.digitChar = some d := by
  have digits : ∀ d, d < 10 → digit? (Nat.digitChar d) = some d := by decide
  exact digits d small

theorem readDigits?_append (acc : Nat) (xs ys : List Char) :
    readDigits? acc (xs ++ ys) = (readDigits? acc xs).bind fun n => readDigits? n ys := by
  induction xs generalizing acc with
  | nil => rfl
  | cons x xs ih =>
    simp only [List.cons_append, readDigits?]
    cases digit? x with
    | none => rfl
    | some d => exact ih _

theorem readDigits?_toDigits (n : Nat) : readDigits? 0 (Nat.toDigits 10 n) = some n := by
  induction n using Nat.strongRecOn with
  | ind n ih =>
    by_cases small : n < 10
    · rw [Nat.toDigits_of_lt_base small, readDigits?, digit?_digitChar small]
      simp only [Option.bind_some, readDigits?, Nat.zero_mul, Nat.zero_add]
    · have last : n % 10 < 10 := Nat.mod_lt n (by decide)
      have cut : Nat.toDigits 10 (n / 10) ++ Nat.toDigits 10 (n % 10) = Nat.toDigits 10 n := by
        rw [Nat.toDigits_append_toDigits (by decide) (by omega) last, Nat.div_add_mod]
      rw [← cut, readDigits?_append, ih (n / 10) (by omega), Nat.toDigits_of_lt_base last,
        Option.bind_some, readDigits?, digit?_digitChar last, Option.bind_some, readDigits?,
        Nat.div_add_mod']

theorem unsigned_toDigits (n : Nat) : unsigned (Nat.toDigits 10 n) = Nat.toDigits 10 n := by
  unfold unsigned
  split
  · next cs digits =>
    have plus : '+' ∈ Nat.toDigits 10 n := digits ▸ List.mem_cons_self
    exact absurd (Nat.isDigit_of_mem_toDigits (by decide) (by decide) plus) (by decide)
  · rfl

theorem read?_toString {limit n : Nat} (bound : n ≤ limit) : read? limit (toString n) = some n := by
  have digits : (toString n).toList = Nat.toDigits 10 n := String.toList_ofList
  unfold read?
  rw [digits, unsigned_toDigits]
  split
  · next none => exact absurd none Nat.toDigits_ne_nil
  · rw [readDigits?_toDigits]
    simp only [Option.filter, bound, decide_true, if_true]

end PushGateway.Decimal
