import PushGateway.Proofs.Json.Scan
/-!
Where a reader comes to when it is given a value that it need not like: to its end, or to a place inside.
-/

namespace PushGateway.Json

section Astray

def Closed (w : Bytes) : Prop := Scan .outside w .outside []

/-- The rest of a text where a reader has lost its place: no separator comes next, or the place is inside a
string, or it is between the members of an inner object, of which some are still to come. -/
inductive Astray (ends : Bytes → Prop) : Bytes → Prop where
  | stuck {bs t : Bytes} {b : UInt8} : skipBlank bs = b :: t → b ∉ separators → Astray ends bs
  | inside {bs : Bytes} : Scan .inside bs .outside [] → Astray ends bs
  | nested {a w u : Bytes} : Blank a → Written (.items .object) w → ends u → Astray ends (a ++ comma :: (w ++ u))

variable {w v left t : Bytes} {ends ends' : Bytes → Prop}

theorem Closed.append (hw : Closed w) (hv : Closed v) : Closed (w ++ v) :=
  (Scan.append hw v).trans hv

theorem Written.closed {form : Form} (written : Written form w) : Closed w := by
  have scanned := written.scan []
  rwa [List.append_nil] at scanned

theorem split_of_skipBlank {bs : Bytes} {b : UInt8} (first : skipBlank bs = b :: t) :
    ∃ a, Blank a ∧ bs = a ++ b :: t := by
  refine ⟨bs.takeWhile isBlank, fun c hc => List.mem_takeWhile_imp hc, ?_⟩
  rw [← first]
  exact List.takeWhile_append_dropWhile.symm

theorem solid_of_skipBlank {bs : Bytes} {b : UInt8} (first : skipBlank bs = b :: t) : isBlank b = false := by
  have head := List.head?_dropWhile_not isBlank bs
  rw [show bs.dropWhile isBlank = b :: t from first] at head
  simpa using head

theorem skipBlank_eq_cons {bs : Bytes} {b : UInt8} (first : skipBlank bs = b :: t) (more : Bytes) :
    skipBlank (bs ++ more) = b :: (t ++ more) := by
  have solid := solid_of_skipBlank first
  obtain ⟨a, blank, rfl⟩ := split_of_skipBlank first
  rw [List.append_assoc, List.cons_append, skipBlank_solid blank solid]

theorem Astray.append (astray : Astray ends left) (closed : Closed t)
    (more : ∀ u, ends u → ends' (u ++ t)) : Astray ends' (left ++ t) := by
  cases astray with
  | stuck first mark => exact .stuck (skipBlank_eq_cons first t) mark
  | inside scan => exact .inside ((Scan.append scan t).trans closed)
  | @nested a w u blank items ending =>
    have reassociated : a ++ comma :: (w ++ u) ++ t = a ++ comma :: (w ++ (u ++ t)) := by
      simp only [List.append_assoc, List.cons_append]
    rw [reassociated]
    exact .nested blank items (more u ending)

theorem Astray.closed_append (astray : Astray Closed left) (closed : Closed t) : Astray Closed (left ++ t) :=
  astray.append closed fun _ inner => inner.append closed

theorem Astray.value {a v : Bytes} (blank : Blank a) (written : Written .value v) : Astray ends (a ++ v) := by
  obtain ⟨b, t, rfl, solid, mark⟩ := written.head
  exact .stuck (skipBlank_solid blank solid) mark

end Astray

section Halting

variable {α β : Type} {r : Reader α} {w v : Bytes}

/-- The reader comes to the end of the octets with a value or with an error, or it is left astray inside them;
which of these, and with what, what follows has no part in. -/
inductive Halts (r : Reader α) (w : Bytes) : Prop where
  | read (a : α) : (∀ rest, Follows rest → r (w ++ rest) = .done a rest) → Halts r w
  | ended (e : Error) : (∀ rest, Follows rest → r (w ++ rest) = .failed e rest) → Halts r w
  | within (e : Error) (left : Bytes) : Astray Closed left →
      (∀ rest, Follows rest → r (w ++ rest) = .failed e (left ++ rest)) → Halts r w

theorem Halts.map {r' : Reader β} (f : α → β) (halts : Halts r w)
    (same : ∀ rest, Follows rest → r' (v ++ rest) = (r (w ++ rest)).map f) : Halts r' v := by
  cases halts with
  | read a h => exact .read (f a) fun rest follows => by rw [same rest follows, h rest follows]; rfl
  | ended e h => exact .ended e fun rest follows => by rw [same rest follows, h rest follows]; rfl
  | within e left astray h =>
    exact .within e left astray fun rest follows => by rw [same rest follows, h rest follows]; rfl

theorem Halts.congr {r' : Reader α} (halts : Halts r w)
    (same : ∀ rest, Follows rest → r' (v ++ rest) = r (w ++ rest)) : Halts r' v := by
  refine halts.map id fun rest follows => ?_
  rw [same rest follows]
  cases r (w ++ rest) <;> rfl

/-- A reader that goes on after another is halted by the first of the two that fails. -/
theorem Halts.bind {f : α → Reader β} (halts : Halts r w) (next : ∀ a, Halts (f a) v)
    (apart : ∀ rest, Follows (v ++ rest)) (astray : Astray Closed v) (closed : Closed v) :
    Halts (r >>= f) (w ++ v) := by
  cases halts with
  | read a h =>
    refine (next a).congr fun rest follows => ?_
    rw [List.append_assoc, Reader.bind_apply, h _ (apart rest)]
  | ended e h =>
    refine .within e v astray fun rest _ => ?_
    rw [List.append_assoc, Reader.bind_apply, h _ (apart rest)]
  | within e left inner h =>
    refine .within e (left ++ v) (inner.closed_append closed) fun rest _ => ?_
    rw [List.append_assoc, Reader.bind_apply, h _ (apart rest), List.append_assoc]

theorem Halts.refuse {r' : Reader β} {f : α → Error} (halts : Halts r w)
    (same : ∀ rest, Follows rest → r' (v ++ rest) = match r (w ++ rest) with
      | .done a rest => .failed (f a) rest
      | .failed e rest => .failed e rest) : Halts r' v := by
  cases halts with
  | read a h => exact .ended (f a) fun rest follows => by rw [same rest follows, h rest follows]
  | ended e h => exact .ended e fun rest follows => by rw [same rest follows, h rest follows]
  | within e left astray h =>
    exact .within e left astray fun rest follows => by rw [same rest follows, h rest follows]

theorem Halts.judge {f : α → Reader β} (halts : Halts r w)
    (judges : ∀ a, (∃ b, f a = Reader.pure b) ∨ ∃ e, f a = Reader.fail e) : Halts (r >>= f) w := by
  cases halts with
  | read a h =>
    rcases judges a with ⟨b, accepts⟩ | ⟨e, refuses⟩
    · exact .read b fun rest follows => by
        rw [Reader.bind_apply, h rest follows]
        exact congrFun accepts rest
    · exact .ended e fun rest follows => by
        rw [Reader.bind_apply, h rest follows]
        exact congrFun refuses rest
  | ended e h => exact .ended e fun rest follows => by rw [Reader.bind_apply, h rest follows]
  | within e left astray h =>
    exact .within e left astray fun rest follows => by rw [Reader.bind_apply, h rest follows]

end Halting

section Texts

variable {w rest : Bytes}

theorem TextTail.closes (tail : TextTail w) : Scan .inside w .outside [] := by
  simpa using tail.scan []

theorem escaped?_letter {c : UInt8} (known : (escaped? c).isSome) : c ≠ 'u'.toUInt8 := by
  rintro rfl
  exact absurd known (by decide)

def afterHigh (n : Nat) : Reader Bytes
  | [] => .failed (.ended .text) []
  | d :: rest =>
    if d ≠ backslash then .failed .endOfHexEscape rest
    else match rest with
      | [] => .failed (.ended .text) []
      | e :: rest =>
        if e ≠ 'u'.toUInt8 then .failed .endOfHexEscape rest
        else match rest with
          | w :: x :: y :: z :: rest =>
            match hex4? w x y z with
            | none => .failed .invalidEscape rest
            | some m =>
              if isLowSurrogate m then (textOctets rest).map (surrogatePair n m ++ ·)
              else .failed .loneSurrogate rest
          | _ => .failed (.ended .text) []

theorem textOctets_number {a b c d : UInt8} {n : Nat} (hex : hex4? a b c d = some n) (more : Bytes) :
    textOctets (backslash :: 'u'.toUInt8 :: a :: b :: c :: d :: more) =
      if isLowSurrogate n then .failed .loneSurrogate more
      else if isHighSurrogate n then afterHigh n more
      else (textOctets more).map (codePoint n ++ ·) := by
  rw [textOctets.eq_def]
  simp only [backslash_ne, ne_eq, not_true_eq_false, if_false, hex, show escaped? 'u'.toUInt8 = none from by decide]
  cases isLowSurrogate n with
  | true => rfl
  | false => cases isHighSurrogate n <;> rfl

theorem TextTail.afterHigh_halts {n : Nat} (tail : TextTail w)
    (shorter : ∀ {w' : Bytes}, w'.length < w.length → TextTail w' → Halts textOctets w') :
    Halts (afterHigh n) w := by
  cases tail with
  | close => exact .ended .endOfHexEscape fun rest _ => rfl
  | plain _ back _ tail =>
    refine .within .endOfHexEscape _ (.inside tail.closes) fun rest _ => ?_
    simp only [List.cons_append, afterHigh, if_pos back]
  | letter known tail =>
    refine .within .endOfHexEscape _ (.inside tail.closes) fun rest _ => ?_
    simp only [List.cons_append, afterHigh, ne_eq, not_true_eq_false, if_false, escaped?_letter known,
      not_false_eq_true, if_true]
  | number hex tail =>
    obtain ⟨m, hex⟩ := Option.isSome_iff_exists.mp hex
    cases low : isLowSurrogate m with
    | true =>
      have pair := shorter (by simp only [List.length_cons]; omega) tail
      refine pair.map (surrogatePair n m ++ ·) fun rest _ => ?_
      simp only [List.cons_append, afterHigh, ne_eq, not_true_eq_false, if_false, hex, low, if_true]
    | false =>
      refine .within .loneSurrogate _ (.inside tail.closes) fun rest _ => ?_
      simp only [List.cons_append, afterHigh, ne_eq, not_true_eq_false, if_false, hex, low, Bool.false_eq_true]

theorem TextTail.octets_halt (tail : TextTail w) : Halts textOctets w := by
  -- by length: a pair of escapes is taken at once
  induction size : w.length using Nat.strong_induction_on generalizing w with
  | _ n ih =>
    subst size
    cases tail with
    | close =>
      refine .read [] fun rest _ => ?_
      rw [List.singleton_append, textOctets.eq_def]
      simp only [if_true]
    | @plain b w quote back control tail =>
      refine (ih _ (Nat.lt_succ_self _) tail rfl).map (b :: ·) fun rest _ => ?_
      rw [List.cons_append, textOctets.eq_def]
      simp only [if_neg quote, if_neg control, if_pos back]
    | @letter c w known tail =>
      obtain ⟨v, value⟩ := Option.isSome_iff_exists.mp known
      refine (ih _ (by simp only [List.length_cons]; omega) tail rfl).map (v :: ·) fun rest _ => ?_
      rw [List.cons_append, List.cons_append, textOctets.eq_def]
      simp only [backslash_ne, ne_eq, not_true_eq_false, if_false, value]
    | @number a b c d w hex tail =>
      obtain ⟨n, hex⟩ := Option.isSome_iff_exists.mp hex
      have shorter {w' : Bytes} (short : w'.length ≤ w.length) (tail' : TextTail w') : Halts textOctets w' :=
        ih _ (by simp only [List.length_cons]; omega) tail' rfl
      cases low : isLowSurrogate n with
      | true =>
        refine .within .loneSurrogate w (.inside tail.closes) fun rest _ => ?_
        simp only [List.cons_append, textOctets_number hex, low, if_true]
      | false =>
        cases high : isHighSurrogate n with
        | false =>
          refine (shorter (Nat.le_refl _) tail).map (codePoint n ++ ·) fun rest _ => ?_
          simp only [List.cons_append, textOctets_number hex, low, high, Bool.false_eq_true, if_false]
        | true =>
          have second := tail.afterHigh_halts (n := n) fun short => shorter (Nat.le_of_lt short)
          refine second.congr fun rest _ => ?_
          simp only [List.cons_append, textOctets_number hex, low, high, Bool.false_eq_true, if_false, if_true]

theorem TextTail.halts (tail : TextTail w) : Halts readText w := by
  cases tail.octets_halt with
  | read octets h =>
    cases decoded : Utf8.decode? octets with
    | some s => exact .read s fun rest follows => by simp only [readText, h rest follows, decoded]
    | none => exact .ended .invalidCodePoint fun rest follows => by simp only [readText, h rest follows, decoded]
  | ended e h => exact .ended e fun rest follows => by simp only [readText, h rest follows]
  | within e left astray h =>
    exact .within e left astray fun rest follows => by simp only [readText, h rest follows]

end Texts

section Numbers

variable {w f e ds rest : Bytes}

theorem floatNumber_halts (negative : Bool) (significand : Nat) (exponent : Int) :
    Halts (floatNumber negative significand exponent) [] := by
  cases value : Decimal.Binary64.ofDecimal significand exponent with
  | none => exact .ended .numberOutOfRange fun rest _ => by rw [List.nil_append, floatNumber, value]
  | some x =>
    exact .read (.float { x with negative := negative }) fun rest _ => by rw [List.nil_append, floatNumber, value]

theorem Digits.tail {d : UInt8} (digits : Digits (d :: ds)) : isDigit d = true ∧ Digits ds :=
  List.forall_mem_cons.mp digits

theorem exponentDigits_halt (digits : Digits ds) (acc : Nat) :
    (∃ e, ∀ rest, Undigit rest → exponentDigits acc (ds ++ rest) = (some e, rest)) ∨
      ∃ left, Digits left ∧ ∀ rest, Undigit rest → exponentDigits acc (ds ++ rest) = (none, left ++ rest) := by
  induction ds generalizing acc with
  | nil =>
    refine .inl ⟨acc, fun rest other => ?_⟩
    cases rest with
    | nil => rfl
    | cons b rest => simp only [List.nil_append, exponentDigits, other b rfl, Bool.false_eq_true, if_false]
  | cons d ds ih =>
    obtain ⟨digit, digits⟩ := digits.tail
    by_cases large : maxExponent < acc * 10 + digitValue d
    · exact .inr ⟨ds, digits, fun rest _ => by
        simp only [List.cons_append, exponentDigits, digit, if_true, large]⟩
    · have next : ∀ rest, exponentDigits acc (d :: ds ++ rest) =
          exponentDigits (acc * 10 + digitValue d) (ds ++ rest) := fun rest => by
        simp only [List.cons_append, exponentDigits, digit, if_true, large, if_false]
      simpa only [next] using ih digits (acc * 10 + digitValue d)

theorem Astray.digits {d : UInt8} {ends : Bytes → Prop} (digits : Digits (d :: ds)) : Astray ends (d :: ds) := by
  have digit := digits.tail.1
  exact .stuck (skipBlank_cons (isBlank_of_isDigit digit)) (isDigit_separators digit)

theorem readExponent_halts {d : UInt8} (digit : isDigit d = true) (digits : Digits ds) (negative : Bool)
    (significand : Nat) (start : Int) (down : Bool) :
    Halts (readExponent negative significand start down) (d :: ds) := by
  rcases exponentDigits_halt digits (digitValue d) with ⟨e, taken⟩ | ⟨left, others, taken⟩
  · refine (floatNumber_halts negative significand (if down then start - e else start + e)).congr
      fun rest follows => ?_
    simp only [List.cons_append, readExponent, digit, Bool.not_true, Bool.false_eq_true, if_false,
      taken rest follows.undigit, List.nil_append]
  have reached : ∀ rest, Follows rest → readExponent negative significand start down (d :: ds ++ rest) =
      if significand ≠ 0 ∧ !down then .failed .numberOutOfRange (left ++ rest)
      else floatNumber negative 0 0 rest := fun rest follows => by
    simp only [List.cons_append, readExponent, digit, Bool.not_true, Bool.false_eq_true, if_false,
      taken rest follows.undigit, dropWhile_digits others follows.undigit]
  by_cases large : significand ≠ 0 ∧ !down
  · cases left with
    | nil => exact .ended .numberOutOfRange fun rest follows => by rw [reached rest follows, if_pos large]; rfl
    | cons c left =>
      exact .within .numberOutOfRange _ (.digits others) fun rest follows => by
        rw [reached rest follows, if_pos large]
  · exact (floatNumber_halts negative 0 0).congr fun rest follows => by
      rw [reached rest follows, if_neg large, List.nil_append]

theorem Exponent.readScale_halts (exponent : Exponent e) (negative : Bool) (significand : Nat) (start : Int) :
    Halts (readScale negative significand start) e := by
  cases exponent with
  | none =>
    refine (floatNumber_halts negative significand start).congr fun rest follows => ?_
    cases rest with
    | nil => rfl
    | cons b rest =>
      simp only [List.nil_append, readScale, (follows b rfl).2.2, Bool.false_eq_true, if_false]
  | unsigned mark digit digits =>
    refine (readExponent_halts digit digits negative significand start false).congr fun rest _ => ?_
    simp only [List.cons_append, readScale, mark, if_true, isDigit_unsigned digit, if_false]
  | signed mark sign digit digits =>
    rcases sign with rfl | rfl
    · refine (readExponent_halts digit digits negative significand start false).congr fun rest _ => ?_
      simp only [List.cons_append, readScale, mark, if_true]
    · refine (readExponent_halts digit digits negative significand start true).congr fun rest _ => ?_
      simp only [List.cons_append, readScale, mark, if_true, show minus ≠ '+'.toUInt8 from by decide, if_false]

theorem integer_halts (negative : Bool) (whole : Significand) :
    Halts (readAfterWhole.integer negative whole) [] := by
  cases negative with
  | false => exact .read (.count whole.value) fun rest _ => rfl
  | true =>
    by_cases float : whole.value = 0 ∨ Decimal.minI64 < whole.value
    · exact (floatNumber_halts true whole.value 0).congr fun rest _ => by
        simp only [readAfterWhole.integer, Bool.not_true, Bool.false_eq_true, if_false, if_pos float]
    · exact .read (.negative whole.value) fun rest _ => by
        simp only [readAfterWhole.integer, Bool.not_true, Bool.false_eq_true, if_false, if_neg float,
          List.nil_append]

theorem Fraction.readAfterWhole_halts (fraction : Fraction f) (exponent : Exponent e) (negative : Bool)
    (whole : Significand) : Halts (readAfterWhole negative whole) (f ++ e) := by
  cases fraction with
  | @digits d ds digit digits =>
    have all : Digits (d :: ds) := List.forall_mem_cons.mpr ⟨digit, digits⟩
    let s := (d :: ds).foldl Significand.push ⟨whole.value, 0, 0⟩
    refine (exponent.readScale_halts negative s.value (whole.dropped - s.taken)).congr fun rest follows => ?_
    have undigit := exponent.undigit follows
    rw [List.append_assoc, List.cons_append, readAfterWhole, if_pos rfl, readFraction,
      takeWhile_digits all undigit, dropWhile_digits all undigit]
    exact if_neg (List.cons_ne_nil d ds)
  | none =>
    rw [List.nil_append]
    have scale := exponent.readScale_halts negative whole.value whole.dropped
    cases exponent with
    | none =>
      by_cases full : whole.dropped ≠ 0
      · refine scale.congr fun rest follows => ?_
        cases rest with
        | nil => simp only [List.append_nil, readAfterWhole, if_pos full]
        | cons b rest =>
          simp only [List.nil_append, readAfterWhole, if_neg (follows b rfl).2.1, if_pos (Or.inr full)]
      · refine (integer_halts negative whole).congr fun rest follows => ?_
        cases rest with
        | nil => simp only [List.append_nil, readAfterWhole, if_neg full]
        | cons b rest =>
          obtain ⟨-, point, mark⟩ := follows b rfl
          simp only [List.nil_append, readAfterWhole, if_neg point, mark, full, Bool.false_eq_true, or_self,
            if_false]
    | unsigned mark digit digits =>
      refine scale.congr fun rest _ => ?_
      simp only [List.cons_append, readAfterWhole, if_neg (isExponentMark_undigit mark).2, mark, true_or, if_true]
    | signed mark sign digit digits =>
      refine scale.congr fun rest _ => ?_
      simp only [List.cons_append, readAfterWhole, if_neg (isExponentMark_undigit mark).2, mark, true_or, if_true]

theorem Magnitude.halts (magnitude : Magnitude w) (negative : Bool) : Halts (readNumber negative) w := by
  cases magnitude with
  | @parts w f e whole fraction exponent =>
    cases whole with
    | zero =>
      refine (fraction.readAfterWhole_halts exponent negative ⟨0, 0, 0⟩).congr fun rest follows => ?_
      have undigit := fraction.undigit exponent follows
      rw [← List.append_assoc] at undigit
      rw [List.append_assoc, List.singleton_append, readNumber.eq_def]
      cases next : f ++ e ++ rest with
      | nil => simp only [if_true]
      | cons c more =>
        rw [next] at undigit
        simp only [if_true, undigit c rfl, Bool.false_eq_true, if_false]
    | @digits b ds digit nonzero digits =>
      let s := ds.foldl Significand.push ⟨digitValue b, 1, 0⟩
      refine (fraction.readAfterWhole_halts exponent negative s).congr fun rest follows => ?_
      have undigit := fraction.undigit exponent follows
      rw [← List.append_assoc] at undigit
      rw [List.append_assoc, List.cons_append, readNumber.eq_def]
      simp only [if_neg nonzero, digit, if_true, takeWhile_digits digits undigit, dropWhile_digits digits undigit]
      rfl

end Numbers

section Values

variable {α : Type} {a v w : Bytes}

/-- What is told about an unexpected value takes as much of it as a reader of such values would. -/
theorem Written.unexpected_halts (written : Written .value v) (expected : String) :
    Halts (unexpected expected : Reader α) v := by
  have bracket {f : Bracket} {w : Bytes} (written : Written .value (f.openMark :: w)) :
      Halts (unexpected expected : Reader α) (f.openMark :: w) := by
    cases f with
    | list => exact .within (.invalidType .sequence expected) _ (.value .nil written) fun rest _ => rfl
    | object => exact .within (.invalidType .map expected) _ (.value .nil written) fun rest _ => rfl
  cases written with
  | null => exact .ended (.invalidType .null expected) fun rest _ => rfl
  | yes => exact .ended (.invalidType (.boolean true) expected) fun rest _ => rfl
  | no => exact .ended (.invalidType (.boolean false) expected) fun rest _ => rfl
  | positive magnitude =>
    refine (magnitude.halts false).refuse (f := fun n => .invalidType (.number n) expected) fun rest _ => ?_
    obtain ⟨b, t, rfl, digit⟩ := magnitude.head
    cases read : readNumber false (b :: (t ++ rest)) <;>
      simp only [List.cons_append, unexpected, isDigit_letter digit, digit, if_false, if_true, read]
  | negative magnitude =>
    exact (magnitude.halts true).refuse (f := fun n => .invalidType (.number n) expected) fun rest _ => rfl
  | text tail => exact tail.halts.refuse (f := fun s => .invalidType (.text s) expected) fun rest _ => rfl
  | empty blank => exact bracket (.empty blank)
  | filled items => exact bracket (.filled items)

theorem Halts.onFirst {f : UInt8 → Reader α} (written : Written .value v) (blank : Blank a)
    (halts : ∀ b t, v = b :: t → Halts (f b) v) : Halts (onFirst f) (a ++ v) := by
  obtain ⟨b, t, rfl, solid, -⟩ := written.head
  refine (halts b t rfl).congr fun rest _ => ?_
  rw [List.append_assoc, Json.onFirst, List.cons_append, skipBlank_solid blank solid]

theorem Written.null_of_head {t : Bytes} (written : Written .value ('n'.toUInt8 :: t)) : t = [117, 108, 108] := by
  generalize same : 'n'.toUInt8 :: t = v at written
  cases written with
  | null => exact (List.cons.inj same).2
  | positive magnitude =>
    obtain ⟨b, _, rfl, digit⟩ := magnitude.head
    exact absurd (List.cons.inj same).1.symm (isDigit_letter digit).1
  | @empty f _ _ => cases f <;> cases same
  | @filled f _ _ => cases f <;> cases same
  | _ => cases same

theorem Written.text_of_head {t : Bytes} (written : Written .value (quotationMark :: t)) : TextTail t := by
  generalize same : quotationMark :: t = v at written
  cases written with
  | text tail =>
    cases same
    exact tail
  | positive magnitude =>
    obtain ⟨b, _, rfl, digit⟩ := magnitude.head
    exact absurd (List.cons.inj same).1.symm (isDigit_letter digit).2.2.2.2
  | @empty f _ _ => cases f <;> cases same
  | @filled f _ _ => cases f <;> cases same
  | _ => cases same

theorem Written.negative_of_head {t : Bytes} (written : Written .value (minus :: t)) : Magnitude t := by
  generalize same : minus :: t = v at written
  cases written with
  | negative magnitude =>
    cases same
    exact magnitude
  | positive magnitude =>
    obtain ⟨b, _, rfl, digit⟩ := magnitude.head
    exact absurd (List.cons.inj same).1.symm (isDigit_letter digit).2.2.2.1
  | @empty f _ _ => cases f <;> cases same
  | @filled f _ _ => cases f <;> cases same
  | _ => cases same

theorem Written.positive_of_head {b : UInt8} {t : Bytes} (written : Written .value (b :: t))
    (digit : isDigit b = true) : Magnitude (b :: t) := by
  generalize same : b :: t = v at written
  cases written with
  | positive magnitude => exact magnitude
  | @empty f _ _ => cases f <;> cases same <;> cases digit
  | @filled f _ _ => cases f <;> cases same <;> cases digit
  | _ =>
    cases same
    cases digit

theorem openMark_inj {f g : Bracket} (same : f.openMark = g.openMark) : f = g := by
  cases f <;> cases g <;> first | rfl | exact absurd same (by decide)

theorem Written.bracketed {f : Bracket} (written : Written .value (f.openMark :: w)) :
    (∃ a, Blank a ∧ w = a ++ [f.closeMark]) ∨ Written (.items f) w := by
  generalize same : f.openMark :: w = v at written
  cases written with
  | @empty g a blank =>
    obtain ⟨mark, rfl⟩ := List.cons.inj same
    obtain rfl := openMark_inj mark
    exact .inl ⟨a, blank, rfl⟩
  | filled items =>
    obtain ⟨mark, rfl⟩ := List.cons.inj same
    obtain rfl := openMark_inj mark
    exact .inr items
  | positive magnitude =>
    obtain ⟨b, _, same', digit⟩ := magnitude.head
    obtain ⟨rfl, -⟩ := List.cons.inj (same.trans same')
    cases f <;> exact absurd digit (by decide)
  | _ => cases f <;> exact absurd (List.cons.inj same).1 (by decide)

theorem Written.text_halts (written : Written .value v) (blank : Blank a) (expected : String) :
    Halts (Json.text expected) (a ++ v) := by
  refine .onFirst written blank fun b t same => ?_
  subst same
  by_cases quote : b = quotationMark
  · subst quote
    exact written.text_of_head.halts.congr fun rest _ => rfl
  · rw [if_neg quote]
    exact written.unexpected_halts expected

theorem Written.count_halts (written : Written .value v) (blank : Blank a) : Halts count (a ++ v) := by
  refine .onFirst written blank fun b t same => ?_
  subst same
  by_cases negative : b = minus
  · subst negative
    rw [if_pos rfl]
    refine Halts.judge ((written.negative_of_head.halts true).congr fun rest _ => rfl) fun n => ?_
    cases n with
    | count n => exact .inl ⟨n, rfl⟩
    | _ => exact .inr ⟨_, rfl⟩
  cases digit : isDigit b with
  | true =>
    simp only [if_neg negative, if_true]
    refine ((written.positive_of_head digit).halts false).judge fun n => ?_
    cases n with
    | count n => exact .inl ⟨n, rfl⟩
    | _ => exact .inr ⟨_, rfl⟩
  | false =>
    simp only [if_neg negative, Bool.false_eq_true, if_false]
    exact written.unexpected_halts "u64"

theorem Written.optional_halts {r : Reader α} (written : Written .value v) (blank : Blank a) (halts : Halts r v) :
    Halts (optional r) (a ++ v) := by
  obtain ⟨b, t, rfl, solid, -⟩ := written.head
  by_cases letter : b = 'n'.toUInt8
  · subst letter
    obtain rfl := written.null_of_head
    refine .read none fun rest _ => ?_
    rw [List.append_assoc, optional, List.cons_append, skipBlank_solid blank solid]
    rfl
  · refine halts.map some fun rest _ => ?_
    rw [List.append_assoc, optional, List.cons_append, skipBlank_solid blank solid]
    exact if_neg letter

end Values

section Closing

variable {α : Type} {f : Bracket} {a w t left : Bytes}

def close : Bracket → Reader Unit
  | .list => closeList
  | .object => closeObject

theorem close_closeMark (blank : Blank a) (rest : Bytes) : close f (a ++ f.closeMark :: rest) = .done () rest := by
  cases f <;> simp only [close, closeList, closeObject, skipBlank_solid blank (closeMark_solid _), if_true]

theorem close_solid {left t : Bytes} {b : UInt8} (first : skipBlank left = b :: t) (mark : b ∉ separators) :
    Astray Closed (b :: t) ∧ ∀ rest, close f (left ++ rest) = .failed .trailingCharacters (b :: t ++ rest) := by
  refine ⟨.stuck (skipBlank_cons (solid_of_skipBlank first)) mark, fun rest => ?_⟩
  have start := skipBlank_eq_cons first rest
  have notComma : b ≠ comma := fun same => mark (mem_separators.mpr (.inl same))
  have notClose (g : Bracket) : b ≠ g.closeMark := fun same => mark (mem_separators.mpr (.inr ⟨g, same⟩))
  cases f <;> simp only [close, closeList, closeObject, start, notComma, notClose, if_false, List.cons_append]

theorem closeList_comma {b : UInt8} (blank : Blank a) (first : skipBlank w = b :: t)
    (mark : b ≠ Bracket.list.closeMark) (rest : Bytes) :
    closeList (a ++ comma :: (w ++ rest)) = .failed .trailingCharacters (b :: t ++ rest) := by
  simp only [closeList, skipBlank_solid blank isBlank_marks.2.1, skipBlank_eq_cons first, if_neg mark,
    show comma ≠ Bracket.list.closeMark from by decide, if_false, if_true, List.cons_append]

theorem closeObject_comma (blank : Blank a) (rest : Bytes) :
    closeObject (a ++ comma :: rest) = .failed .trailingComma (comma :: rest) := by
  simp only [closeObject, skipBlank_solid blank isBlank_marks.2.1,
    show comma ≠ Bracket.object.closeMark from by decide, if_false, if_true]

theorem inside_structural {b : UInt8} (scan : Scan .inside (b :: t) .outside []) (plain : structural b = true) :
    Scan .inside t .outside [] := by
  cases scan with
  | step next scan =>
    cases (step_inside (structural_ne plain)).symm.trans next
    exact scan

theorem skipBlank_inside (scan : Scan .inside left .outside []) :
    ∃ b t, skipBlank left = b :: t ∧ Scan .inside (b :: t) .outside [] := by
  induction left with
  | nil => cases scan
  | cons b left ih =>
    cases blank : isBlank b with
    | false => exact ⟨b, left, skipBlank_cons blank, scan⟩
    | true =>
      have same : skipBlank (b :: left) = skipBlank left :=
        skipBlank_append (a := [b]) (by simpa [Blank] using blank) left
      rw [same]
      exact ih (inside_structural scan (structural_blank blank))

/-- Inside a string, closing a bracket may take a mark of the string for its own, but stays inside. -/
theorem close_inside (scan : Scan .inside left .outside []) :
    ∃ left', Scan .inside left' .outside [] ∧ ∀ rest, (close f (left ++ rest)).rest = left' ++ rest := by
  obtain ⟨b, t, first, scan⟩ := skipBlank_inside scan
  have start := skipBlank_eq_cons first
  by_cases mark : b = f.closeMark
  · refine ⟨t, inside_structural scan (mark ▸ (structural_brackets f).2), fun rest => ?_⟩
    subst mark
    cases f <;> simp only [close, closeList, closeObject, start, if_true, Outcome.rest]
  cases f with
  | object =>
    refine ⟨b :: t, scan, fun rest => ?_⟩
    simp only [close, closeObject, start, if_neg mark, Outcome.rest, List.cons_append]
  | list =>
    by_cases separated : b = comma
    · subst separated
      obtain ⟨c, t', second, scan'⟩ := skipBlank_inside (inside_structural scan (by decide))
      refine ⟨c :: t', scan', fun rest => ?_⟩
      simp only [close, closeList, start, if_neg mark, if_true, skipBlank_eq_cons second, Outcome.rest,
        List.cons_append]
    · refine ⟨b :: t, scan, fun rest => ?_⟩
      simp only [close, closeList, start, if_neg mark, if_neg separated, Outcome.rest, List.cons_append]

/-- Where reading the content of a bracket may fail: before the tail of an item, or astray. -/
def Broken (f : Bracket) (left : Bytes) : Prop := Written (.tail f) left ∨ Astray Closed left

theorem Broken.closing (broken : Broken f left) :
    ∃ left', (left' = [] ∨ Astray Closed left') ∧ ∀ rest, (close f (left ++ rest)).rest = left' ++ rest := by
  -- a comma that an item follows is passed over in a list, and not in an object
  have item {a w u : Bytes} {g : Bracket} (blank : Blank a) (items : Written (.items g) w) (ending : Closed u)
      (within : f = .object → g = .object) : ∃ left', (left' = [] ∨ Astray Closed left') ∧
        ∀ rest, (close f (a ++ comma :: (w ++ u) ++ rest)).rest = left' ++ rest := by
    cases f with
    | list =>
      obtain ⟨b, t, first, solid, mark⟩ := items.items_head
      have notClose : b ≠ Bracket.list.closeMark := fun same => mark (mem_separators.mpr (.inr ⟨_, same⟩))
      refine ⟨b :: (t ++ u), .inr (.stuck (skipBlank_cons solid) mark), fun rest => ?_⟩
      rw [List.append_assoc, List.cons_append, close, closeList_comma blank (first u) notClose]
      rfl
    | object =>
      obtain rfl := within rfl
      refine ⟨comma :: (w ++ u), .inr (.nested (a := []) .nil items ending), fun rest => ?_⟩
      rw [List.append_assoc, List.cons_append, close, closeObject_comma blank]
      rfl
  rcases broken with tail | astray
  · cases tail with
    | last blank =>
      refine ⟨[], .inl rfl, fun rest => ?_⟩
      rw [List.append_assoc, List.singleton_append, close_closeMark blank]
      rfl
    | @next _ a w blank items =>
      have bare := item blank items (u := []) .refl (fun same => same)
      rwa [List.append_nil] at bare
  · cases astray with
    | stuck first mark =>
      obtain ⟨astray, stops⟩ := close_solid (f := f) first mark
      exact ⟨_, .inr astray, fun rest => by rw [stops]; rfl⟩
    | inside scan =>
      obtain ⟨left', scan, stops⟩ := close_inside (f := f) scan
      exact ⟨left', .inr (.inside scan), stops⟩
    | nested blank items ending => exact item blank items ending fun _ => rfl

end Closing

end PushGateway.Json
