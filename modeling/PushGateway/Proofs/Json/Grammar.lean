import PushGateway.Proofs.Json.Object
/-!
JSON as octets, with any blanks, any spelling of strings and numbers, and any nesting.
-/

namespace PushGateway.Json

section Grammar

def Blank (w : Bytes) : Prop := ∀ b ∈ w, isBlank b = true

inductive TextTail : Bytes → Prop where
  | close : TextTail [quotationMark]
  | plain {b : UInt8} {w : Bytes} : b ≠ quotationMark → b ≠ backslash → ¬ b < 0x20 → TextTail w →
      TextTail (b :: w)
  | letter {c : UInt8} {w : Bytes} : (escaped? c).isSome → TextTail w → TextTail (backslash :: c :: w)
  | number {a b c d : UInt8} {w : Bytes} : (hex4? a b c d).isSome → TextTail w →
      TextTail (backslash :: 'u'.toUInt8 :: a :: b :: c :: d :: w)

def Digits (w : Bytes) : Prop := ∀ b ∈ w, isDigit b = true

inductive Whole : Bytes → Prop where
  | zero : Whole ['0'.toUInt8]
  | digits {b : UInt8} {ds : Bytes} : isDigit b = true → b ≠ '0'.toUInt8 → Digits ds → Whole (b :: ds)

inductive Fraction : Bytes → Prop where
  | none : Fraction []
  | digits {d : UInt8} {ds : Bytes} : isDigit d = true → Digits ds → Fraction ('.'.toUInt8 :: d :: ds)

inductive Exponent : Bytes → Prop where
  | none : Exponent []
  | unsigned {e d : UInt8} {ds : Bytes} : isExponentMark e = true → isDigit d = true → Digits ds →
      Exponent (e :: d :: ds)
  | signed {e s d : UInt8} {ds : Bytes} : isExponentMark e = true → s = '+'.toUInt8 ∨ s = minus →
      isDigit d = true → Digits ds → Exponent (e :: s :: d :: ds)

inductive Magnitude : Bytes → Prop where
  | parts {w f e : Bytes} : Whole w → Fraction f → Exponent e → Magnitude (w ++ (f ++ e))

/-- The parts of a text: a value, one item between brackets, all items with the closing bracket, and what
stands after an item. -/
inductive Form where
  | value
  | item (f : Bracket)
  | items (f : Bracket)
  | tail (f : Bracket)

inductive Written : Form → Bytes → Prop where
  | null : Written .value [110, 117, 108, 108]
  | yes : Written .value [116, 114, 117, 101]
  | no : Written .value [102, 97, 108, 115, 101]
  | positive {w : Bytes} : Magnitude w → Written .value w
  | negative {w : Bytes} : Magnitude w → Written .value (minus :: w)
  | text {w : Bytes} : TextTail w → Written .value (quotationMark :: w)
  | empty {f : Bracket} {a : Bytes} : Blank a → Written .value (f.openMark :: (a ++ [f.closeMark]))
  | filled {f : Bracket} {w : Bytes} : Written (.items f) w → Written .value (f.openMark :: w)
  | element {v : Bytes} : Written .value v → Written (.item .list) v
  | member {n b c v : Bytes} : TextTail n → Blank b → Blank c → Written .value v →
      Written (.item .object) (quotationMark :: (n ++ (b ++ colon :: (c ++ v))))
  | items {f : Bracket} {a i t : Bytes} : Blank a → Written (.item f) i → Written (.tail f) t →
      Written (.items f) (a ++ (i ++ t))
  | last {f : Bracket} {a : Bytes} : Blank a → Written (.tail f) (a ++ [f.closeMark])
  | next {f : Bracket} {a w : Bytes} : Blank a → Written (.items f) w → Written (.tail f) (a ++ comma :: w)

def Undigit (rest : Bytes) : Prop := ∀ b ∈ rest.head?, isDigit b = false

/-- The text does not go on with what could belong to a number before it. -/
def Follows (rest : Bytes) : Prop :=
  ∀ b ∈ rest.head?, isDigit b = false ∧ b ≠ '.'.toUInt8 ∧ isExponentMark b = false

end Grammar

section Boundaries

variable {a rest : Bytes}

theorem skipBlank_append (blank : Blank a) (rest : Bytes) : skipBlank (a ++ rest) = skipBlank rest := by
  rw [skipBlank, List.dropWhile_append_of_pos blank]
  rfl

theorem skipBlank_solid {b : UInt8} {w : Bytes} (blank : Blank a) (solid : isBlank b = false) :
    skipBlank (a ++ b :: w) = b :: w := by
  rw [skipBlank_append blank, skipBlank_cons solid]

theorem readColon_append (blank : Blank a) (rest : Bytes) : readColon (a ++ colon :: rest) = .done () rest := by
  simp only [readColon, skipBlank_solid blank isBlank_marks.2.2.1, if_true]

theorem Blank.nil : Blank [] := nofun

theorem Blank.append {b : Bytes} (ha : Blank a) (hb : Blank b) : Blank (a ++ b) :=
  List.forall_mem_append.mpr ⟨ha, hb⟩

theorem isBlank_of_isDigit {b : UInt8} (digit : isDigit b = true) : isBlank b = false := by
  refine eq_false_of_ne_true fun blank => ?_
  rcases of_decide_eq_true blank with rfl | rfl | rfl | rfl <;> exact absurd digit (by decide)

theorem closeMark_solid (f : Bracket) : isBlank f.closeMark = false := by cases f <;> decide

theorem follows_nil : Follows [] := nofun

theorem follows_colon (rest : Bytes) : Follows (colon :: rest) := by
  intro c hc
  cases Option.mem_some_iff.mp hc
  decide

theorem Follows.undigit (follows : Follows rest) : Undigit rest := fun b hb => (follows b hb).1

theorem Follows.blank (blank : Blank a) (follows : Follows rest) : Follows (a ++ rest) := by
  cases a with
  | nil => exact follows
  | cons b a =>
    intro c hc
    cases Option.mem_some_iff.mp hc
    rcases of_decide_eq_true (blank b List.mem_cons_self) with rfl | rfl | rfl | rfl <;> decide

theorem follows_comma (rest : Bytes) : Follows (comma :: rest) := by
  intro c hc
  cases Option.mem_some_iff.mp hc
  decide

theorem follows_closeMark (f : Bracket) (rest : Bytes) : Follows (f.closeMark :: rest) := by
  intro c hc
  cases Option.mem_some_iff.mp hc
  cases f <;> decide

theorem Written.follows {f : Bracket} {t : Bytes} (written : Written (.tail f) t) (rest : Bytes) :
    Follows (t ++ rest) := by
  cases written with
  | last blank =>
    rw [List.append_assoc]
    exact (follows_closeMark f rest).blank blank
  | next blank _ =>
    rw [List.append_assoc]
    exact (follows_comma _).blank blank

theorem isDigit_letter {b : UInt8} (digit : isDigit b = true) : b ≠ 'n'.toUInt8 ∧ b ≠ 't'.toUInt8 ∧
    b ≠ 'f'.toUInt8 ∧ b ≠ minus ∧ b ≠ quotationMark := by
  refine ⟨?_, ?_, ?_, ?_, ?_⟩ <;> rintro rfl <;> exact absurd digit (by decide)

theorem Magnitude.head {w : Bytes} (magnitude : Magnitude w) : ∃ b t, w = b :: t ∧ isDigit b = true := by
  cases magnitude with
  | parts whole _ _ =>
    cases whole with
    | zero => exact ⟨_, _, rfl, by decide⟩
    | digits digit _ _ => exact ⟨_, _, rfl, digit⟩

def separators : Bytes := [comma, Bracket.list.closeMark, Bracket.object.closeMark]

theorem mem_separators {b : UInt8} : b ∈ separators ↔ b = comma ∨ ∃ f : Bracket, b = f.closeMark := by
  simp only [separators, List.mem_cons, List.not_mem_nil, or_false]
  constructor
  · rintro (comma | list | object)
    · exact .inl comma
    · exact .inr ⟨.list, list⟩
    · exact .inr ⟨.object, object⟩
  · rintro (comma | ⟨_ | _, close⟩)
    · exact .inl comma
    · exact .inr (.inl close)
    · exact .inr (.inr close)

theorem isDigit_separators {b : UInt8} (digit : isDigit b = true) : b ∉ separators := by
  intro member
  rcases mem_separators.mp member with rfl | ⟨_ | _, rfl⟩ <;> exact absurd digit (by decide)

/-- How a value begins: with no blank and no separator. -/
theorem Written.head {v : Bytes} (written : Written .value v) :
    ∃ b t, v = b :: t ∧ isBlank b = false ∧ b ∉ separators := by
  cases written with
  | null => exact ⟨_, _, rfl, by decide⟩
  | yes => exact ⟨_, _, rfl, by decide⟩
  | no => exact ⟨_, _, rfl, by decide⟩
  | positive magnitude =>
    obtain ⟨b, t, rfl, digit⟩ := magnitude.head
    exact ⟨b, t, rfl, isBlank_of_isDigit digit, isDigit_separators digit⟩
  | negative _ => exact ⟨_, _, rfl, by decide⟩
  | text _ => exact ⟨_, _, rfl, by decide⟩
  | @empty f _ _ => cases f <;> exact ⟨_, _, rfl, by decide⟩
  | @filled f _ _ => cases f <;> exact ⟨_, _, rfl, by decide⟩

theorem Written.item_head {f : Bracket} {i : Bytes} (written : Written (.item f) i) :
    ∃ b t, i = b :: t ∧ isBlank b = false ∧ b ∉ separators := by
  cases written with
  | element value => exact value.head
  | member _ _ _ _ => exact ⟨_, _, rfl, by decide⟩

theorem Written.items_head {f : Bracket} {w : Bytes} (written : Written (.items f) w) :
    ∃ b t, (∀ rest, skipBlank (w ++ rest) = b :: (t ++ rest)) ∧ isBlank b = false ∧ b ∉ separators := by
  cases written with
  | @items _ a i t blank item _ =>
    obtain ⟨b, i, rfl, solid, mark⟩ := item.item_head
    refine ⟨b, i ++ t, fun rest => ?_, solid, mark⟩
    simpa only [List.append_assoc, List.cons_append] using skipBlank_solid blank solid

end Boundaries

section Numbers

variable {ds w f e rest : Bytes}

theorem takeWhile_digits (digits : Digits ds) (other : Undigit rest) : (ds ++ rest).takeWhile isDigit = ds := by
  rw [List.takeWhile_append_of_pos digits]
  cases rest with
  | nil => simp
  | cons b rest => simp [other b rfl]

theorem dropWhile_digits (digits : Digits ds) (other : Undigit rest) : (ds ++ rest).dropWhile isDigit = rest := by
  rw [List.dropWhile_append_of_pos digits]
  cases rest with
  | nil => rfl
  | cons b rest => simp [other b rfl]

theorem isExponentMark_undigit {b : UInt8} (mark : isExponentMark b = true) :
    isDigit b = false ∧ b ≠ '.'.toUInt8 := by
  rcases of_decide_eq_true mark with rfl | rfl <;> decide

theorem isDigit_unsigned {b : UInt8} (digit : isDigit b = true) : b ≠ '+'.toUInt8 ∧ b ≠ minus := by
  constructor <;> rintro rfl <;> exact absurd digit (by decide)

theorem Exponent.undigit (exponent : Exponent e) (follows : Follows rest) : Undigit (e ++ rest) := by
  cases exponent with
  | none => exact follows.undigit
  | unsigned mark _ _ =>
    intro b hb
    cases Option.mem_some_iff.mp hb
    exact (isExponentMark_undigit mark).1
  | signed mark _ _ _ =>
    intro b hb
    cases Option.mem_some_iff.mp hb
    exact (isExponentMark_undigit mark).1

theorem Fraction.undigit (fraction : Fraction f) (exponent : Exponent e) (follows : Follows rest) :
    Undigit (f ++ (e ++ rest)) := by
  cases fraction with
  | none => exact exponent.undigit follows
  | digits _ _ =>
    intro b hb
    cases Option.mem_some_iff.mp hb
    decide

end Numbers

section Skipping

variable {w f e rest : Bytes}

theorem TextTail.skip (tail : TextTail w) (rest : Bytes) : skipText (w ++ rest) = .done () rest := by
  induction tail with
  | close =>
    rw [List.singleton_append, skipText.eq_def]
    simp only [if_true]
  | plain quote back control _ ih =>
    rw [List.cons_append, skipText.eq_def]
    simp only [if_neg quote, if_neg control, if_pos back, ih]
  | letter known _ ih =>
    rw [List.cons_append, List.cons_append, skipText.eq_def]
    simp only [backslash_ne, ne_eq, not_true_eq_false, if_false, known, if_true, ih]
  | number digits _ ih =>
    rw [List.cons_append, skipText.eq_def]
    simp only [backslash_ne, ne_eq, not_true_eq_false, if_false, List.cons_append, digits, if_true, ih,
      show escaped? 'u'.toUInt8 = none from by decide, Option.isSome_none, Bool.false_eq_true]

theorem Exponent.skip (exponent : Exponent e) (follows : Follows rest) :
    skipAfterWhole (e ++ rest) = .done () rest := by
  cases exponent with
  | none =>
    cases rest with
    | nil => rfl
    | cons b rest =>
      obtain ⟨-, point, mark⟩ := follows b rfl
      simp only [List.nil_append, skipAfterWhole, if_neg point, mark, Bool.false_eq_true, if_false]
  | unsigned mark digit digits =>
    simp only [List.cons_append, skipAfterWhole, if_neg (isExponentMark_undigit mark).2, mark, if_true,
      skipExponent, isDigit_unsigned digit, or_self, if_false, digit, dropWhile_digits digits follows.undigit]
  | signed mark sign digit digits =>
    simp only [List.cons_append, skipAfterWhole, if_neg (isExponentMark_undigit mark).2, mark, if_true,
      skipExponent, if_pos sign, digit, dropWhile_digits digits follows.undigit]

theorem Fraction.skip (fraction : Fraction f) (exponent : Exponent e) (follows : Follows rest) :
    skipAfterWhole (f ++ (e ++ rest)) = .done () rest := by
  cases fraction with
  | none => exact exponent.skip follows
  | digits digit digits =>
    have after := exponent.skip follows
    have undigit := exponent.undigit follows
    rw [skipAfterWhole.eq_def] at after ⊢
    simp only [List.cons_append, if_true, skipFraction, digit, Bool.not_true, Bool.false_eq_true, if_false,
      dropWhile_digits digits undigit]
    -- the digits of the fraction end where an exponent or the rest begins, never at a second point
    cases exponent with
    | none =>
      cases rest with
      | nil => rfl
      | cons b rest => simp [(follows b rfl).2.2]
    | unsigned mark _ _ => simpa [mark, isExponentMark_undigit mark] using after
    | signed mark _ _ _ => simpa [mark, isExponentMark_undigit mark] using after

theorem Magnitude.skip (magnitude : Magnitude w) (follows : Follows rest) :
    skipNumber (w ++ rest) = .done () rest := by
  cases magnitude with
  | @parts w f e whole fraction exponent =>
    have after := fraction.skip exponent follows
    have undigit := fraction.undigit exponent follows
    rw [List.append_assoc, List.append_assoc]
    cases whole with
    | zero =>
      rw [List.singleton_append, skipNumber.eq_def]
      simp only [if_true]
      cases next : f ++ (e ++ rest) with
      | nil =>
        rw [next] at after
        exact after
      | cons c more =>
        rw [next] at after undigit
        simp only [undigit c rfl, Bool.false_eq_true, if_false, after]
    | digits digit nonzero digits =>
      rw [List.cons_append, skipNumber.eq_def]
      simp only [if_neg nonzero, digit, if_true, dropWhile_digits digits undigit, after]

theorem Magnitude.skipHead {bs : Bytes} (magnitude : Magnitude w) (follows : Follows rest)
    (head : skipBlank bs = w ++ rest) : skipHead bs = .done none rest := by
  have skipped := magnitude.skip follows
  obtain ⟨b, t, rfl, digit⟩ := magnitude.head
  rw [List.cons_append] at head skipped
  simp only [Json.skipHead, head, isDigit_letter digit, digit, if_false, if_true, skipped]
  rfl

/-- What passing over a value comes to once the brackets that it opens or closes are known. -/
def proceed (fuel : Nat) : Outcome (List Bracket) → Outcome Unit
  | .failed e rest => .failed e rest
  | .done [] rest => .done () rest
  | .done (.list :: fs) rest => skipWithin fuel (.list :: fs) rest
  | .done (.object :: fs) rest =>
    match skipName rest with
    | .failed e rest => .failed e rest
    | .done _ rest => skipWithin fuel (.object :: fs) rest

theorem skipWithin_succ {fuel : Nat} {fs : List Bracket} {head : Option Bracket} {bs : Bytes}
    (first : skipHead bs = .done head rest) :
    skipWithin (fuel + 1) fs bs =
      proceed fuel (match head with
        | none => closeBrackets fs rest
        | some f => openBracket f fs rest) := by
  rw [skipWithin]
  simp only [first]
  cases head with
  | none => cases closeBrackets fs rest with
    | failed e rest => rfl
    | done fs rest => rcases fs with _ | ⟨_ | _, fs⟩ <;> rfl
  | some f => cases openBracket f fs rest with
    | failed e rest => rfl
    | done fs rest => rcases fs with _ | ⟨_ | _, fs⟩ <;> rfl

/-- Passing over a part of a text takes a number of rounds, no more than the part has octets, and then goes on
as after a value of the bracket around it. -/
def Passed : Form → Bytes → Prop
  | .value, v => ∃ n ≤ v.length, ∀ fuel fs bs rest, Follows rest → skipBlank bs = v ++ rest →
      skipWithin (fuel + n) fs bs = proceed fuel (closeBrackets fs rest)
  | .item f, i => ∃ n ≤ i.length, ∀ fuel fs bs rest, Follows rest → skipBlank bs = i ++ rest →
      proceed (fuel + n) (.done (f :: fs) bs) = proceed fuel (closeBrackets (f :: fs) rest)
  | .items f, w => ∃ n ≤ w.length, ∀ fuel fs bs rest, skipBlank bs = skipBlank (w ++ rest) →
      proceed (fuel + n) (.done (f :: fs) bs) = proceed fuel (closeBrackets fs rest)
  | .tail f, t => ∃ n ≤ t.length, ∀ fuel fs rest,
      proceed (fuel + n) (closeBrackets (f :: fs) (t ++ rest)) = proceed fuel (closeBrackets fs rest)

theorem passed_scalar {v : Bytes} (filled : 0 < v.length)
    (head : ∀ bs rest, Follows rest → skipBlank bs = v ++ rest → skipHead bs = .done none rest) :
    Passed .value v :=
  ⟨1, filled, fun _ _ bs rest follows start => skipWithin_succ (head bs rest follows start)⟩

theorem skipHead_openMark {f : Bracket} {bs w : Bytes} (head : skipBlank bs = f.openMark :: w) :
    skipHead bs = .done (some f) w := by
  cases f <;> simp only [skipHead, head] <;> rfl

theorem closeBrackets_last {f : Bracket} {fs : List Bracket} {a : Bytes} (blank : Blank a) (rest : Bytes) :
    closeBrackets (f :: fs) (a ++ f.closeMark :: rest) = closeBrackets fs rest := by
  rw [closeBrackets, skipBlank_solid blank (closeMark_solid f)]
  cases f <;> simp only [if_true] <;> rfl

theorem passed_empty {f : Bracket} {a : Bytes} (blank : Blank a) :
    Passed .value (f.openMark :: (a ++ [f.closeMark])) := by
  refine ⟨1, Nat.succ_pos _, fun fuel fs bs rest _ start => ?_⟩
  rw [List.cons_append, List.append_assoc, List.singleton_append] at start
  rw [skipWithin_succ (skipHead_openMark start)]
  simp only [openBracket, skipBlank_solid blank (closeMark_solid f), if_true]

theorem passed_filled {f : Bracket} {w : Bytes} (items : Written (.items f) w) (inside : Passed (.items f) w) :
    Passed .value (f.openMark :: w) := by
  obtain ⟨n, bound, pass⟩ := inside
  refine ⟨n + 1, Nat.succ_le_succ bound, fun fuel fs bs rest _ start => ?_⟩
  obtain ⟨b, t, first, solid, mark⟩ := items.items_head
  have other : b ≠ f.closeMark := fun same => mark (mem_separators.mpr (.inr ⟨f, same⟩))
  have opened : openBracket f fs (w ++ rest) = .done (f :: fs) (b :: (t ++ rest)) := by
    simp only [openBracket, first, if_neg other]
  rw [List.cons_append] at start
  rw [← Nat.add_assoc, skipWithin_succ (skipHead_openMark start)]
  simp only [opened]
  exact pass fuel fs _ rest (by rw [first, skipBlank_cons solid])

theorem passed_element {v : Bytes} (inside : Passed .value v) : Passed (.item .list) v := by
  obtain ⟨n, bound, pass⟩ := inside
  exact ⟨n, bound, fun fuel fs bs rest follows start => pass fuel (.list :: fs) bs rest follows start⟩

theorem passed_member {n b c v : Bytes} (name : TextTail n) (blank : Blank b) (blank' : Blank c)
    (value : Written .value v) (inside : Passed .value v) :
    Passed (.item .object) (quotationMark :: (n ++ (b ++ colon :: (c ++ v)))) := by
  obtain ⟨m, bound, pass⟩ := inside
  have short : v.length ≤ (quotationMark :: (n ++ (b ++ colon :: (c ++ v)))).length := by
    simp only [List.length_cons, List.length_append]
    omega
  refine ⟨m, Nat.le_trans bound short, fun fuel fs bs rest follows start => ?_⟩
  obtain ⟨d, v, rfl, solid, -⟩ := value.head
  have named : skipName bs = .done () (c ++ (d :: v ++ rest)) := by
    simp only [skipName, start, List.cons_append, if_true, Reader.bind_apply, List.append_assoc, name.skip,
      readColon_append blank]
  rw [proceed]
  simp only [named]
  exact pass fuel (.object :: fs) _ rest follows (skipBlank_solid blank' solid)

theorem passed_items {f : Bracket} {a i t : Bytes} (blank : Blank a) (item : Written (.item f) i)
    (tail : Written (.tail f) t) (first : Passed (.item f) i) (others : Passed (.tail f) t) :
    Passed (.items f) (a ++ (i ++ t)) := by
  obtain ⟨n, bound, pass⟩ := first
  obtain ⟨m, bound', pass'⟩ := others
  refine ⟨m + n, by simp only [List.length_append]; omega, fun fuel fs bs rest start => ?_⟩
  obtain ⟨b, i, rfl, solid, -⟩ := item.item_head
  rw [← Nat.add_assoc, pass (fuel + m) fs bs (t ++ rest) (tail.follows rest), pass']
  simpa only [start, List.append_assoc, List.cons_append] using skipBlank_solid blank solid

theorem passed_last {f : Bracket} {a : Bytes} (blank : Blank a) : Passed (.tail f) (a ++ [f.closeMark]) := by
  refine ⟨0, Nat.zero_le _, fun fuel fs rest => ?_⟩
  rw [List.append_assoc, List.singleton_append, closeBrackets_last blank, Nat.add_zero]

theorem passed_next {f : Bracket} {a w : Bytes} (blank : Blank a) (inside : Passed (.items f) w) :
    Passed (.tail f) (a ++ comma :: w) := by
  obtain ⟨n, bound, pass⟩ := inside
  refine ⟨n, by simp only [List.length_append, List.length_cons]; omega, fun fuel fs rest => ?_⟩
  rw [← pass fuel fs (w ++ rest) rest rfl, List.append_assoc, List.cons_append, closeBrackets,
    skipBlank_solid blank isBlank_marks.2.1]
  simp only [if_true]

theorem Written.passed {form : Form} {w : Bytes} (written : Written form w) : Passed form w := by
  -- along the grammar; only a number looks at what follows it
  induction written with
  | null | yes | no =>
    refine passed_scalar (by decide) fun bs rest _ start => ?_
    simp only [Json.skipHead, start, List.cons_append]
    rfl
  | positive magnitude =>
    obtain ⟨b, t, rfl, -⟩ := magnitude.head
    exact passed_scalar (Nat.succ_pos _) fun bs rest follows start => magnitude.skipHead follows start
  | negative magnitude =>
    refine passed_scalar (Nat.succ_pos _) fun bs rest follows start => ?_
    simp only [Json.skipHead, start, List.cons_append, magnitude.skip follows]
    rfl
  | text tail =>
    refine passed_scalar (Nat.succ_pos _) fun bs rest _ start => ?_
    simp only [Json.skipHead, start, List.cons_append, tail.skip]
    rfl
  | empty blank => exact passed_empty blank
  | filled items ih => exact passed_filled items ih
  | element _ ih => exact passed_element ih
  | member name blank blank' value ih => exact passed_member name blank blank' value ih
  | items blank item tail first others => exact passed_items blank item tail first others
  | last blank => exact passed_last blank
  | next blank _ ih => exact passed_next blank ih

theorem Written.skip {a v : Bytes} (written : Written .value v) (blank : Blank a) (follows : Follows rest) :
    skipValue (a ++ (v ++ rest)) = .done () rest := by
  obtain ⟨n, bound, pass⟩ := written.passed
  obtain ⟨b, v, rfl, solid, -⟩ := written.head
  have start : skipBlank (a ++ (b :: v ++ rest)) = b :: v ++ rest := skipBlank_solid blank solid
  have enough : (a ++ (b :: v ++ rest)).length + 1 = (a ++ (b :: v ++ rest)).length + 1 - n + n := by
    simp only [List.length_append] at *
    omega
  rw [skipValue, enough, pass _ [] _ rest follows start]
  rfl

end Skipping

end PushGateway.Json
