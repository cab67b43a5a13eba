import PushGateway.Certificate.Principal
/-!
Attributes in a rendered name. Escapes are undone by reading, and they neither hide a `UID=` nor make one.
-/

namespace PushGateway

open Principal Certificate

def Principal.mark : List Char := ['U', 'I', 'D', '=']

/-- What all characters of a short text satisfy is decided over the text, not over all characters. -/
theorem forall_mem_of_all {text : List Char} {P : Char → Prop} [DecidablePred P]
    (all : text.all (fun c => P c) = true) : ∀ c ∈ text, P c :=
  fun c hc => of_decide_eq_true (List.all_eq_true.mp all c hc)

section Search

theorem afterUserId_cons {c : Char} {s : List Char} (unmarked : ¬ mark <+: c :: s) :
    afterUserId (c :: s) = afterUserId s := by
  rw [afterUserId]
  rintro rest rfl rfl
  exact unmarked ⟨rest, rfl⟩

theorem afterUserId_mark (s : List Char) : afterUserId (mark ++ s) = some s := by
  rw [mark, List.cons_append, List.cons_append, List.cons_append, List.singleton_append, afterUserId]

theorem afterUserId_eq_none {s : List Char} : afterUserId s = none ↔ ¬ mark <:+: s := by
  induction s with
  | nil => simp [afterUserId, mark]
  | cons c s ih =>
    rw [List.infix_cons_iff]
    by_cases marked : mark <+: c :: s
    · obtain ⟨rest, hr⟩ := marked
      simp [← hr, afterUserId_mark]
    · rw [afterUserId_cons marked, ih]
      simp only [marked, false_or]

theorem afterUserId_skip {c : Char} (other : c ≠ 'U') (s : List Char) :
    afterUserId (c :: s) = afterUserId s := by
  refine afterUserId_cons ?_
  intro marked
  exact other (List.cons_prefix_cons.mp marked).1.symm

theorem unescape_escaped (c : Char) (s : List Char) : unescape ('\\' :: c :: s) = c :: unescape s := by
  rw [unescape]

theorem unescape_cons {c : Char} (comma : c ≠ ',') (backslash : c ≠ '\\') (s : List Char) :
    unescape (c :: s) = c :: unescape s := by
  rw [unescape, if_neg]
  · exact fun h => h.elim comma backslash
  · rintro d rest rfl rfl
    exact absurd rfl backslash

end Search

section Escapes

variable {first : Bool} {value rest : List Char}

/-- What may follow a value, so that no mark runs over its end. -/
def Ends (rest : List Char) : Prop := ∀ c ∈ rest.head?, c ∉ mark

theorem escapeFrom_cases (first : Bool) (c : Char) (value : List Char) :
    (escapeFrom first (c :: value) = '\\' :: c :: escapeFrom false value ∧ c ∉ mark) ∨
    (escapeFrom first (c :: value) = c :: escapeFrom false value ∧ c ≠ ',' ∧ c ≠ '\\') := by
  rw [escapeFrom]
  split
  · next h =>
    refine .inl ⟨rfl, ?_⟩
    rintro hc
    have plain : ∀ c ∈ mark, isSpecial c = false ∧ c ≠ '#' ∧ c ≠ ' ' :=
      forall_mem_of_all (by decide)
    obtain ⟨ordinary, hash, space⟩ := plain c hc
    simp [ordinary, hash, space] at h
  · next h =>
    refine .inr ⟨rfl, ?_, ?_⟩
    · rintro rfl
      exact h (.inl (by decide))
    · rintro rfl
      exact h (.inl (by decide))

theorem unescape_escapeFrom (first : Bool) (value rest : List Char) :
    unescape (escapeFrom first value ++ rest) = value ++ unescape rest := by
  induction value generalizing first with
  | nil => rfl
  | cons c value ih =>
    rcases escapeFrom_cases first c value with ⟨escaped, _⟩ | ⟨plain, comma, backslash⟩
    · rw [escaped, List.cons_append, List.cons_append, unescape_escaped, ih]
      rfl
    · rw [plain, List.cons_append, unescape_cons comma backslash, ih]
      rfl

theorem escapeFrom_mark (first : Bool) (value : List Char) :
    escapeFrom first (mark ++ value) = mark ++ escapeFrom false value := by
  simp [mark, escapeFrom, isSpecial]

theorem prefix_escapeFrom {word : List Char} (part : ∀ c ∈ word, c ∈ mark) (ends : Ends rest) :
    word <+: escapeFrom first value ++ rest ↔ word <+: value := by
  induction word generalizing first value with
  | nil => simp
  | cons x word ih =>
    have hx : x ∈ mark := part x List.mem_cons_self
    have tail := fun c hc => part c (List.mem_cons_of_mem x hc)
    cases value with
    | nil =>
      rw [escapeFrom, List.nil_append]
      constructor
      · intro h
        obtain ⟨s, hs⟩ := h
        have head : x ∈ rest.head? := by simp [← hs]
        exact absurd hx (ends x head)
      · intro h
        cases List.prefix_nil.mp h
    | cons c value =>
      -- neither a backslash nor the character it escapes is a letter of the mark
      rcases escapeFrom_cases first c value with ⟨escaped, other⟩ | ⟨plain, _⟩
      · rw [escaped, List.cons_append, List.cons_prefix_cons, List.cons_prefix_cons]
        constructor
        · rintro ⟨rfl, _⟩
          exact absurd hx (by decide)
        · rintro ⟨rfl, _⟩
          exact absurd hx other
      · rw [plain, List.cons_append, List.cons_prefix_cons, List.cons_prefix_cons, ih tail]

/-- The search finds in an escaped value what it finds in the value, and else goes on after it. -/
theorem afterUserId_escapeFrom (first : Bool) (value : List Char) (ends : Ends rest) :
    afterUserId (escapeFrom first value ++ rest) =
      ((afterUserId value).map fun u => escapeFrom false u ++ rest).or (afterUserId rest) := by
  induction value generalizing first with
  | nil => rfl
  | cons c value ih =>
    by_cases marked : mark <+: c :: value
    · obtain ⟨u, hu⟩ := marked
      rw [← hu, escapeFrom_mark, List.append_assoc, afterUserId_mark, afterUserId_mark]
      rfl
    · -- escaping makes no mark: one at the head of the text would be one at the head of the value
      have unmarked : ¬ mark <+: escapeFrom first (c :: value) ++ rest :=
        fun h => marked ((prefix_escapeFrom (fun _ hc => hc) ends).mp h)
      rw [afterUserId_cons marked, ← ih false]
      rcases escapeFrom_cases first c value with ⟨escaped, other⟩ | ⟨plain, _⟩
      · have hc : c ≠ 'U' := by
          rintro rfl
          exact other (by decide)
        rw [escaped, List.cons_append, List.cons_append, afterUserId_skip (by decide), afterUserId_skip hc]
      · rw [plain, List.cons_append] at unmarked ⊢
        rw [afterUserId_cons unmarked]

end Escapes

section Labels

def Certificate.userId : String := "0.9.2342.19200300.100.1.1"

def Certificate.Attribute.IsUserId (a : Attribute) : Prop := a.type.text = userId

instance (a : Attribute) : Decidable a.IsUserId := inferInstanceAs (Decidable (a.type.text = userId))

/-- A character of a label: none of the search's own but those of `UID`, and none that ends a value. -/
def Neutral (c : Char) : Prop := c ≠ 'I' ∧ c ≠ ',' ∧ c ≠ '\\'

instance (c : Char) : Decidable (Neutral c) :=
  inferInstanceAs (Decidable (c ≠ 'I' ∧ c ≠ ',' ∧ c ≠ '\\'))

def OidChar (c : Char) : Prop := c.isDigit = true ∨ c ∈ ['a', 'b', 'c', 'd', 'e', 'f', '.', ' ']

instance (c : Char) : Decidable (OidChar c) :=
  inferInstanceAs (Decidable (c.isDigit = true ∨ c ∈ ['a', 'b', 'c', 'd', 'e', 'f', '.', ' ']))

theorem forall_mem_intercalate {P : Char → Prop} {separator : List Char} {texts : List (List Char)}
    (hs : ∀ c ∈ separator, P c) (ht : ∀ t ∈ texts, ∀ c ∈ t, P c) : ∀ c ∈ separator.intercalate texts, P c := by
  induction texts with
  | nil => nofun
  | cons t texts ih =>
    have others := ih fun u hu => ht u (List.mem_cons_of_mem t hu)
    cases texts with
    | nil => simpa using ht t List.mem_cons_self
    | cons u texts =>
      intro c hc
      rw [List.intercalate_cons_cons, List.mem_append, List.mem_append] at hc
      rcases hc with (hc | hc) | hc
      · exact ht t List.mem_cons_self c hc
      · exact hs c hc
      · exact others c hc

theorem oidChar_digits (n : Nat) : ∀ c ∈ (toString n).toList, OidChar c := by
  intro c hc
  refine .inl (Nat.isDigit_of_mem_toDigits (b := 10) (n := n) (by decide) (by decide) ?_)
  simpa using hc

theorem oidChar_hexOctet (b : UInt8) : ∀ c ∈ (Der.Oid.hexOctet b).toList, OidChar c := by
  have digits : ∀ n, n < 16 → OidChar (Nat.digitChar n) := by decide
  have high : b.toNat / 16 < 16 := Nat.div_lt_of_lt_mul b.toNat_lt
  have low : b.toNat % 16 < 16 := Nat.mod_lt _ (by decide)
  intro c hc
  simp only [Der.Oid.hexOctet, String.toList_ofList, List.mem_cons, List.not_mem_nil, or_false] at hc
  rcases hc with rfl | rfl
  · exact digits _ high
  · exact digits _ low

theorem oidChar_text (o : Der.Oid) : ∀ c ∈ o.text.toList, OidChar c := by
  unfold Der.Oid.text
  split
  · rw [String.toList_intercalate]
    refine forall_mem_intercalate (forall_mem_of_all (by decide)) ?_
    intro t ht
    simp only [List.map_map, List.mem_map] at ht
    obtain ⟨b, _, rfl⟩ := ht
    exact oidChar_hexOctet b
  · rw [String.toList_intercalate]
    refine forall_mem_intercalate (forall_mem_of_all (by decide)) ?_
    intro t ht
    simp only [List.map_map, List.mem_map] at ht
    obtain ⟨n, _, rfl⟩ := ht
    exact oidChar_digits n

theorem OidChar.neutral {c : Char} (h : OidChar c) : Neutral c := by
  refine ⟨?_, ?_, ?_⟩ <;>
  · rintro rfl
    exact absurd h (by decide)

/-- A type without a short name is written in digits, which read as no short name. -/
theorem label_cases (a : Attribute) :
    (a.IsUserId ∧ a.label.toList = ['U', 'I', 'D']) ∨
    (¬ a.IsUserId ∧ ∀ c ∈ a.label.toList, Neutral c) := by
  have table : ∀ e ∈ shortNames, (e.1 = userId ∧ e.2.toList = ['U', 'I', 'D']) ∨
      (e.1 ≠ userId ∧ e.2.toList.all (fun c => Neutral c) = true) := by decide
  unfold Attribute.label Attribute.IsUserId
  cases named : shortNames.lookup a.type.text with
  | none =>
    refine .inr ⟨?_, fun c hc => (oidChar_text a.type c hc).neutral⟩
    intro same
    rw [same] at named
    exact absurd named (by decide)
  | some label =>
    obtain ⟨before, after, split, _⟩ := List.lookup_eq_some_iff.mp named
    refine (table (a.type.text, label) (by simp [split])).imp id ?_
    exact fun other => ⟨other.1, forall_mem_of_all other.2⟩

theorem label_unescaped (a : Attribute) : ∀ c ∈ a.label.toList, c ≠ ',' ∧ c ≠ '\\' := by
  rcases label_cases a with ⟨_, label⟩ | ⟨_, neutral⟩
  · rw [label]
    exact forall_mem_of_all (by decide)
  · exact fun c hc => (neutral c hc).2

theorem afterUserId_label {label : List Char} (neutral : ∀ c ∈ label, Neutral c) (rest : List Char) :
    afterUserId (label ++ '=' :: rest) = afterUserId rest := by
  induction label with
  | nil => exact afterUserId_skip (by decide) rest
  | cons c label ih =>
    rw [List.cons_append, afterUserId_cons, ih fun d hd => neutral d (List.mem_cons_of_mem c hd)]
    -- the mark's second letter is neither in the label nor the sign after it
    intro marked
    have second := (List.cons_prefix_cons.mp marked).2
    cases label with
    | nil => exact absurd (List.cons_prefix_cons.mp second).1 (by decide)
    | cons d label =>
      have letter := (List.cons_prefix_cons.mp second).1
      exact (neutral d (by simp)).1 letter.symm

theorem unescape_unescaped {text : List Char} (plain : ∀ c ∈ text, c ≠ ',' ∧ c ≠ '\\') (rest : List Char) :
    unescape (text ++ rest) = text ++ unescape rest := by
  induction text with
  | nil => rfl
  | cons c text ih =>
    have head := plain c List.mem_cons_self
    rw [List.cons_append, unescape_cons head.1 head.2, ih fun d hd => plain d (List.mem_cons_of_mem c hd)]
    rfl

end Labels

namespace Certificate.Attribute

variable {rest : List Char}

def plain (a : Attribute) : List Char := a.label.toList ++ '=' :: a.value.toList

/-- What stands behind the first mark in the attribute, if there is one: the whole value of a user id,
and of any other attribute the part of the value that follows the mark. -/
def marked? (a : Attribute) : Option (List Char) :=
  if a.IsUserId then some a.value.toList else afterUserId a.value.toList

def Marked (a : Attribute) : Prop := a.IsUserId ∨ mark <:+: a.value.toList

theorem marked?_eq_none {a : Attribute} : a.marked? = none ↔ ¬ a.Marked := by
  unfold marked? Marked
  by_cases user : a.IsUserId
  · simp [user]
  · simp only [user, if_false, false_or, afterUserId_eq_none]

theorem marked?_userId {a : Attribute} (user : a.IsUserId) : a.marked? = some a.value.toList := if_pos user

theorem afterUserId_render (a : Attribute) (ends : Ends rest) :
    ∃ first, afterUserId (a.render ++ rest) =
      (a.marked?.map fun u => escapeFrom first u ++ rest).or (afterUserId rest) := by
  rcases label_cases a with ⟨user, label⟩ | ⟨other, neutral⟩
  · have text : a.render ++ rest = mark ++ (escapeFrom true a.value.toList ++ rest) := by
      rw [render, label]
      rfl
    refine ⟨true, ?_⟩
    rw [text, afterUserId_mark, marked?_userId user]
    rfl
  · refine ⟨false, ?_⟩
    rw [render, List.append_assoc, List.cons_append, afterUserId_label neutral, escape,
      afterUserId_escapeFrom true a.value.toList ends, marked?, if_neg other]

theorem unescape_render (a : Attribute) (rest : List Char) :
    unescape (a.render ++ rest) = a.plain ++ unescape rest := by
  rw [render, List.append_assoc, List.cons_append, unescape_unescaped (label_unescaped a),
    unescape_cons (by decide) (by decide), escape, unescape_escapeFrom, plain, List.append_assoc]
  rfl

end Certificate.Attribute
end PushGateway
