/-!
The fields between separators: n separators make n + 1 fields. Joined by separators they are the whole again,
none of them holds a separator, and parting at the last separator finds it. Then texts without blank
characters at either end.
-/

namespace PushGateway.Text

/-- The parts between separators, at least one. -/
def fields {α : Type} [DecidableEq α] (separator : α) : List α → List (List α)
  | [] => [[]]
  | a :: rest =>
    if a = separator then [] :: fields separator rest
    else match fields separator rest with
      | first :: others => (a :: first) :: others
      | [] => [[a]]

theorem fields_ne_nil {α : Type} [DecidableEq α] (separator : α) (xs : List α) :
    fields separator xs ≠ [] := by
  induction xs with
  | nil => simp [fields]
  | cons x xs ih => grind [fields]

/-- The fields between separators, joined by them, are the whole. -/
theorem intercalate_fields {α : Type} [DecidableEq α] (separator : α) (xs : List α) :
    [separator].intercalate (fields separator xs) = xs := by
  induction xs with
  | nil => rfl
  | cons x xs ih =>
    rw [fields]
    split
    · next h =>
      subst h
      cases hf : fields x xs with
      | nil => exact absurd hf (fields_ne_nil x xs)
      | cons f fs => simpa [hf, List.intercalate, List.intersperse] using ih
    · cases hf : fields separator xs with
      | nil => exact absurd hf (fields_ne_nil separator xs)
      | cons f fs =>
        rw [hf] at ih
        cases fs <;> simp_all [List.intercalate]

/-- The parts before and after the last separator. -/
def splitLast? {α : Type} [DecidableEq α] (separator : α) : List α → Option (List α × List α)
  | [] => none
  | a :: rest =>
    match splitLast? separator rest with
    | some (before, after) => some (a :: before, after)
    | none => if a = separator then some ([], rest) else none

section Parts

variable {α : Type} [DecidableEq α] {separator : α} {xs ys : List α}

theorem fields_append (absent : separator ∉ xs) (ys : List α) :
    fields separator (xs ++ ys) =
      (xs ++ (fields separator ys).headD []) :: (fields separator ys).tail := by
  induction xs with
  | nil =>
    cases hf : fields separator ys with
    | nil => exact absurd hf (fields_ne_nil separator ys)
    | cons f fs => simp [hf]
  | cons x xs ih =>
    have tail := ih (List.not_mem_of_not_mem_cons absent)
    have other : x ≠ separator := fun same => absent (same ▸ List.mem_cons_self)
    simp only [List.cons_append, fields, if_neg other, tail]

theorem fields_eq_singleton (absent : separator ∉ xs) : fields separator xs = [xs] := by
  simpa [fields] using fields_append absent []

theorem fields_append_separator (absent : separator ∉ xs) (ys : List α) :
    fields separator (xs ++ separator :: ys) = xs :: fields separator ys := by
  simpa [fields] using fields_append absent (separator :: ys)

theorem separator_not_mem_fields (xs : List α) : ∀ f ∈ fields separator xs, separator ∉ f := by
  induction xs with
  | nil => simp [fields]
  | cons x xs ih =>
    cases hf : fields separator xs with
    | nil => exact absurd hf (fields_ne_nil separator xs)
    | cons f fs =>
      rw [hf] at ih
      by_cases other : x = separator
      · simpa [fields, other, hf] using ih
      · have first := List.not_mem_cons_of_ne_of_not_mem (Ne.symm other) (ih f List.mem_cons_self)
        simp only [fields, if_neg other, hf]
        exact List.forall_mem_cons.mpr ⟨first, fun g hg => ih g (List.mem_cons_of_mem f hg)⟩

theorem splitLast?_eq_none (absent : separator ∉ xs) : splitLast? separator xs = none := by
  induction xs with
  | nil => rfl
  | cons x xs ih =>
    have tail := ih (List.not_mem_of_not_mem_cons absent)
    have other : x ≠ separator := fun same => absent (same ▸ List.mem_cons_self)
    simp only [splitLast?, tail, if_neg other]

theorem splitLast?_append (xs : List α) (absent : separator ∉ ys) :
    splitLast? separator (xs ++ separator :: ys) = some (xs, ys) := by
  induction xs with
  | nil => simp only [List.nil_append, splitLast?, splitLast?_eq_none absent, if_true]
  | cons x xs ih => simp only [List.cons_append, splitLast?, ih]

end Parts

/-- Whether a character has the property White_Space. -/
def isBlank (c : Char) : Bool :=
  c.isWhitespace || c = '\x0B' || c = '\x0C' || c = '\u0085' || c = '\u00A0' || c = '\u1680' ||
    ('\u2000' ≤ c && c ≤ '\u200A') || c = '\u2028' || c = '\u2029' || c = '\u202F' || c = '\u205F' ||
    c = '\u3000'

def trim (s : String) : String :=
  String.ofList (((s.toList.dropWhile isBlank).reverse.dropWhile isBlank).reverse)

end PushGateway.Text
