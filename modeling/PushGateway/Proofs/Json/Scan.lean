import Mathlib.Data.List.TakeWhile
import PushGateway.Proofs.Json.Grammar
/-!
Whether a place in a JSON text lies inside a string.
-/

namespace PushGateway.Json

section Places

inductive Place where
  | outside
  | inside
  /-- After a backslash inside a string. -/
  | escaped
  deriving DecidableEq

def structural (b : UInt8) : Bool :=
  isBlank b || isDigit b || isExponentMark b || b ∈ separators ||
    b ∈ ['+', '-', '.', ':', '[', '\x7b', 'n', 'u', 'l', 't', 'r', 'f', 'a', 's'].map Char.toUInt8

def Place.step : Place → UInt8 → Option Place
  | .outside, b => if structural b then some .outside else if b = quotationMark then some .inside else none
  | .inside, b =>
    if b = quotationMark then some .outside else if b = backslash then some .escaped else some .inside
  | .escaped, _ => some .inside

/-- A reader at the first place of a text gets to the second place with the rest of the text. -/
inductive Scan : Place → Bytes → Place → Bytes → Prop where
  | refl {p : Place} {bs : Bytes} : Scan p bs p bs
  | step {p p' q : Place} {b : UInt8} {bs rest : Bytes} : p.step b = some p' → Scan p' bs q rest →
      Scan p (b :: bs) q rest

variable {p q r : Place} {bs mid rest w : Bytes} {b : UInt8}

theorem Scan.trans (first : Scan p bs q mid) (second : Scan q mid r rest) : Scan p bs r rest := by
  induction first with
  | refl => exact second
  | step next _ ih => exact .step next (ih second)

theorem Scan.append (scan : Scan p bs q rest) (more : Bytes) : Scan p (bs ++ more) q (rest ++ more) := by
  induction scan with
  | refl => exact .refl
  | step next _ ih => exact .step next ih

theorem Scan.single (next : p.step b = some q) : Scan p (b :: rest) q rest := .step next .refl

theorem Scan.all (within : ∀ b ∈ w, structural b = true) (rest : Bytes) :
    Scan .outside (w ++ rest) .outside rest := by
  induction w with
  | nil => exact .refl
  | cons b w ih =>
    refine .step ?_ (ih fun c hc => within c (List.mem_cons_of_mem b hc))
    simp only [Place.step, within b List.mem_cons_self, if_true]

theorem step_outside (next : Place.outside.step b = some q) :
    structural b = true ∧ q = .outside ∨ b = quotationMark ∧ q = .inside := by
  simp only [Place.step] at next
  split at next
  case isTrue plain => exact .inl ⟨plain, (Option.some.inj next).symm⟩
  case isFalse _ =>
    obtain ⟨quote, same⟩ := Option.ite_none_right_eq_some.mp next
    exact .inr ⟨quote, (Option.some.inj same).symm⟩

theorem structural_ne (plain : structural b = true) : b ≠ quotationMark ∧ b ≠ backslash := by
  constructor <;> rintro rfl <;> exact absurd plain (by decide)

/-- One reader takes for a string what the other does not. -/
inductive Opposite : Place → Place → Prop where
  | within : Opposite .outside .inside
  | without : Opposite .inside .outside

theorem opposite_next {q' : Place} (next : Place.outside.step b = some q)
    (next' : Place.inside.step b = some q') : q = .outside ∧ q' = .inside ∨ q = .inside ∧ q' = .outside := by
  rcases step_outside next with ⟨plain, rfl⟩ | ⟨rfl, rfl⟩
  · obtain ⟨quote, solidus⟩ := structural_ne plain
    simp only [Place.step, quote, solidus, if_false, Option.some.injEq] at next'
    exact .inl ⟨rfl, next'.symm⟩
  · simp only [Place.step, if_true, Option.some.injEq] at next'
    exact .inr ⟨rfl, next'.symm⟩

theorem opposite_step {p p' q q' : Place} (opposite : Opposite p p') (next : p.step b = some q)
    (next' : p'.step b = some q') : Opposite q q' := by
  cases opposite with
  | within => rcases opposite_next next next' with ⟨rfl, rfl⟩ | ⟨rfl, rfl⟩ <;> constructor
  | without => rcases opposite_next next' next with ⟨rfl, rfl⟩ | ⟨rfl, rfl⟩ <;> constructor

/-- Whatever one of them reads, the other has read it in the opposite sense, and goes on so. -/
theorem Scan.opposite {p' : Place} (scan : Scan p bs q rest) (opposite : Opposite p p')
    (other : Scan p' bs r []) : ∃ q', Opposite q q' ∧ Scan q' rest r [] := by
  induction scan generalizing p' with
  | refl => exact ⟨p', opposite, other⟩
  | step next _ ih =>
    cases other with
    | step next' other => exact ih (opposite_step opposite next next') other

end Places

section Writing

variable {w rest : Bytes}

theorem hexValue?_plain {b : UInt8} (hex : (hexValue? b).isSome) : b ≠ quotationMark ∧ b ≠ backslash := by
  constructor <;> rintro rfl <;> exact absurd hex (by decide)

theorem hex4?_plain {a b c d : UInt8} (hex : (hex4? a b c d).isSome) :
    (a ≠ quotationMark ∧ a ≠ backslash) ∧ (b ≠ quotationMark ∧ b ≠ backslash) ∧
      (c ≠ quotationMark ∧ c ≠ backslash) ∧ d ≠ quotationMark ∧ d ≠ backslash := by
  obtain ⟨n, hex⟩ := Option.isSome_iff_exists.mp hex
  simp only [hex4?, Option.bind_eq_bind, Option.bind_eq_some_iff] at hex
  obtain ⟨_, ha, _, hb, _, hc, _, hd, -⟩ := hex
  exact ⟨hexValue?_plain (ha ▸ rfl), hexValue?_plain (hb ▸ rfl), hexValue?_plain (hc ▸ rfl),
    hexValue?_plain (hd ▸ rfl)⟩

theorem step_inside {b : UInt8} (plain : b ≠ quotationMark ∧ b ≠ backslash) :
    Place.inside.step b = some .inside := by
  simp only [Place.step, plain, if_false]

theorem scan_letter (c : UInt8) (rest : Bytes) : Scan .inside (backslash :: c :: rest) .inside rest :=
  .step rfl (.single rfl)

theorem scan_number {a b c d : UInt8} (hex : (hex4? a b c d).isSome) (rest : Bytes) :
    Scan .inside (backslash :: 'u'.toUInt8 :: a :: b :: c :: d :: rest) .inside rest := by
  obtain ⟨ha, hb, hc, hd⟩ := hex4?_plain hex
  exact (scan_letter _ _).trans (.step (step_inside ha) (.step (step_inside hb) (.step (step_inside hc)
    (.single (step_inside hd)))))

theorem TextTail.scan (tail : TextTail w) (rest : Bytes) : Scan .inside (w ++ rest) .outside rest := by
  induction tail with
  | close => exact .single rfl
  | plain quote back _ _ ih => exact .step (step_inside ⟨quote, back⟩) ih
  | letter _ _ ih => exact (scan_letter _ _).trans ih
  | number hex _ ih => exact (scan_number hex _).trans ih

theorem structural_blank {b : UInt8} (blank : isBlank b = true) : structural b = true := by
  simp [structural, blank]

theorem structural_digit {b : UInt8} (digit : isDigit b = true) : structural b = true := by
  simp [structural, digit]

theorem structural_mark {b : UInt8} (mark : isExponentMark b = true) : structural b = true := by
  simp [structural, mark]

theorem Blank.scan {a : Bytes} (blank : Blank a) (rest : Bytes) : Scan .outside (a ++ rest) .outside rest :=
  .all (fun b hb => structural_blank (blank b hb)) rest

theorem Digits.structural {ds : Bytes} (digits : Digits ds) : ∀ b ∈ ds, structural b = true :=
  fun b hb => structural_digit (digits b hb)

theorem Magnitude.structural {w : Bytes} (magnitude : Magnitude w) : ∀ b ∈ w, structural b = true := by
  have point : Json.structural '.'.toUInt8 = true := by decide
  have zero : Json.structural '0'.toUInt8 = true := by decide
  have signs : Json.structural '+'.toUInt8 = true ∧ Json.structural minus = true := by decide
  cases magnitude with
  | parts whole fraction exponent =>
    simp only [List.mem_append]
    rintro b (hb | hb | hb)
    · cases whole with
      | zero => simpa [List.mem_singleton.mp hb] using zero
      | digits digit _ digits =>
        rcases List.mem_cons.mp hb with rfl | hb
        · exact structural_digit digit
        · exact digits.structural b hb
    · cases fraction with
      | none => cases hb
      | digits digit digits =>
        simp only [List.mem_cons] at hb
        rcases hb with rfl | rfl | hb
        · exact point
        · exact structural_digit digit
        · exact digits.structural b hb
    · cases exponent with
      | none => cases hb
      | unsigned mark digit digits =>
        simp only [List.mem_cons] at hb
        rcases hb with rfl | rfl | hb
        · exact structural_mark mark
        · exact structural_digit digit
        · exact digits.structural b hb
      | signed mark sign digit digits =>
        simp only [List.mem_cons] at hb
        rcases hb with rfl | rfl | rfl | hb
        · exact structural_mark mark
        · rcases sign with rfl | rfl
          · exact signs.1
          · exact signs.2
        · exact structural_digit digit
        · exact digits.structural b hb

theorem structural_brackets (f : Bracket) : structural f.openMark = true ∧ structural f.closeMark = true := by
  cases f <;> decide

theorem scan_plain {b : UInt8} (plain : structural b = true) (rest : Bytes) :
    Scan .outside (b :: rest) .outside rest :=
  .single (if_pos plain)

theorem scan_quotationMark (rest : Bytes) : Scan .outside (quotationMark :: rest) .inside rest := .single rfl

theorem Written.scan {form : Form} (written : Written form w) (rest : Bytes) :
    Scan .outside (w ++ rest) .outside rest := by
  induction written generalizing rest with
  | null => exact .all (List.all_eq_true.mp (by decide)) rest
  | yes => exact .all (List.all_eq_true.mp (by decide)) rest
  | no => exact .all (List.all_eq_true.mp (by decide)) rest
  | positive magnitude => exact .all magnitude.structural rest
  | negative magnitude => exact (scan_plain (by decide) _).trans (.all magnitude.structural rest)
  | text tail => exact (scan_quotationMark _).trans (tail.scan rest)
  | @empty f a blank =>
    rw [List.cons_append, List.append_assoc]
    exact (scan_plain (structural_brackets f).1 _).trans ((blank.scan _).trans
      (scan_plain (structural_brackets f).2 rest))
  | @filled f w _ ih => exact (scan_plain (structural_brackets f).1 _).trans (ih rest)
  | element _ ih => exact ih rest
  | member name blank blank' _ ih =>
    simp only [List.cons_append, List.append_assoc]
    exact (scan_quotationMark _).trans ((name.scan _).trans ((blank.scan _).trans
      ((scan_plain (by decide) _).trans ((blank'.scan _).trans (ih rest)))))
  | items blank _ _ ihItem ihTail =>
    simp only [List.append_assoc]
    exact (blank.scan _).trans ((ihItem _).trans (ihTail rest))
  | @last f a blank =>
    rw [List.append_assoc]
    exact (blank.scan _).trans (scan_plain (structural_brackets f).2 rest)
  | next blank _ ih =>
    rw [List.append_assoc]
    exact (blank.scan _).trans ((scan_plain (by decide) _).trans (ih rest))

end Writing

section Results

variable {α β : Type} {o : Outcome α} {a : α} {b : β} {r r' bs : Bytes} {e : Error}

theorem Outcome.map_eq_done {f : α → β} : o.map f = .done b r ↔ ∃ a, o = .done a r ∧ f a = b := by
  cases o with
  | done a r' =>
    simp only [Outcome.map, Outcome.done.injEq]
    constructor
    · rintro ⟨rfl, rfl⟩
      exact ⟨a, ⟨rfl, rfl⟩, rfl⟩
    · rintro ⟨_, ⟨rfl, rfl⟩, rfl⟩
      exact ⟨rfl, rfl⟩
  | failed e r' => simp [Outcome.map]

theorem Outcome.of_ite {c : Prop} [Decidable c] (read : (if c then o else .failed e r') = .done a r) :
    c ∧ o = .done a r := by
  split at read
  case isTrue holds => exact ⟨holds, read⟩
  case isFalse => cases read

theorem Outcome.of_ite_not {c : Prop} [Decidable c] (read : (if c then .failed e r' else o) = .done a r) :
    ¬ c ∧ o = .done a r := by
  split at read
  case isTrue => cases read
  case isFalse fails => exact ⟨fails, read⟩

theorem Reader.bind_eq_done {reader : Reader α} {f : α → Reader β} :
    (reader >>= f) bs = .done b r ↔ ∃ a mid, reader bs = .done a mid ∧ f a mid = .done b r := by
  rw [Reader.bind_apply]
  cases reader bs with
  | done a mid =>
    constructor
    · intro next
      exact ⟨a, mid, rfl, next⟩
    · rintro ⟨_, _, ⟨⟩, next⟩
      exact next
  | failed e mid => simp

end Results

section Reading

variable {bs rest : Bytes}

theorem scan_skipBlank (bs : Bytes) : Scan .outside bs .outside (skipBlank bs) := by
  have split : bs = bs.takeWhile isBlank ++ skipBlank bs := List.takeWhile_append_dropWhile.symm
  have blank : Blank (bs.takeWhile isBlank) := fun b hb => List.mem_takeWhile_imp hb
  have scanned := blank.scan (skipBlank bs)
  rwa [← split] at scanned

theorem scan_first {b : UInt8} (first : skipBlank bs = b :: rest) : Scan .outside bs .outside (b :: rest) :=
  first ▸ scan_skipBlank bs

theorem scan_digits (bs : Bytes) : Scan .outside bs .outside (bs.dropWhile isDigit) := by
  have digits : Digits (bs.takeWhile isDigit) := fun b hb => List.mem_takeWhile_imp hb
  have scanned := Scan.all digits.structural (bs.dropWhile isDigit)
  rwa [List.takeWhile_append_dropWhile] at scanned

theorem skipText_scan (read : skipText bs = .done () rest) : Scan .inside bs .outside rest := by
  fun_induction skipText bs with
  | case2 more =>
    cases read
    exact .single rfl
  | case4 b more quote _ plain ih => exact .step (step_inside ⟨quote, plain⟩) (ih read)
  | case6 b _ _ solidus c more _ ih =>
    obtain rfl := not_not.mp solidus
    exact (scan_letter c more).trans (ih read)
  | case8 b _ _ solidus c _ letter w x y z more hex ih =>
    obtain rfl := not_not.mp solidus
    obtain rfl := not_not.mp letter
    exact (scan_number hex more).trans (ih read)
  | _ => cases read

theorem textOctets_scan {octets : Bytes} (read : textOctets bs = .done octets rest) :
    Scan .inside bs .outside rest := by
  fun_induction textOctets bs generalizing octets with
  | case2 more =>
    cases read
    exact .single rfl
  | case4 b more quote _ plain ih =>
    obtain ⟨_, read, -⟩ := Outcome.map_eq_done.mp read
    exact .step (step_inside ⟨quote, plain⟩) (ih read)
  | case6 b _ _ solidus c more _ _ ih =>
    obtain rfl := not_not.mp solidus
    obtain ⟨_, read, -⟩ := Outcome.map_eq_done.mp read
    exact (scan_letter c more).trans (ih read)
  | case10 b _ _ solidus c _ letter w x y z more n hex _ _ ih =>
    obtain rfl := not_not.mp solidus
    obtain rfl := not_not.mp letter
    obtain ⟨_, read, -⟩ := Outcome.map_eq_done.mp read
    exact (scan_number (hex ▸ rfl) more).trans (ih read)
  | case16 b _ _ solidus c _ letter w x y z n hex _ _ d solidus' e letter' w' x' y' z' more m hex' _ ih =>
    obtain rfl := not_not.mp solidus
    obtain rfl := not_not.mp letter
    obtain rfl := not_not.mp solidus'
    obtain rfl := not_not.mp letter'
    obtain ⟨_, read, -⟩ := Outcome.map_eq_done.mp read
    exact (scan_number (hex ▸ rfl) _).trans ((scan_number (hex' ▸ rfl) more).trans (ih read))
  | _ => cases read

theorem textOctets_structural {octets : Bytes} {q : Place} (read : textOctets bs = .done octets rest)
    (plain : Scan .outside bs q []) : ∀ b ∈ octets, structural b = true := by
  fun_induction textOctets bs generalizing octets with
  | case2 more =>
    cases read
    nofun
  | case4 b more quote _ _ ih =>
    obtain ⟨octets, inner, rfl⟩ := Outcome.map_eq_done.mp read
    cases plain with
    | step next plain =>
      rcases step_outside next with ⟨known, rfl⟩ | ⟨same, -⟩
      · exact List.forall_mem_cons.mpr ⟨known, ih inner plain⟩
      · exact absurd same quote
  | case1 => cases read
  | case3 => cases read
  | _ b _ _ solidus =>
    obtain rfl := not_not.mp solidus
    cases plain with
    | step next _ => cases next

theorem readText_octets {name : String} (read : readText bs = .done name rest) :
    textOctets bs = .done (Utf8.encode name) rest := by
  unfold readText at read
  split at read
  case h_1 => cases read
  case h_2 octets more octetsRead =>
    split at read
    case h_2 => cases read
    case h_1 s decoded =>
      cases read
      rw [octetsRead, Utf8.encode_of_decode? decoded]

theorem readIdent_scan {word : Bytes} (plain : ∀ b ∈ word, structural b = true)
    (read : readIdent word bs = .done () rest) : Scan .outside bs .outside rest := by
  induction word generalizing bs with
  | nil =>
    cases read
    exact .refl
  | cons e word ih =>
    cases bs with
    | nil => cases read
    | cons b bs =>
      obtain ⟨known, others⟩ := List.forall_mem_cons.mp plain
      obtain ⟨rfl, inner⟩ := Outcome.of_ite read
      exact (scan_plain known bs).trans (ih others inner)

theorem readColon_scan (read : readColon bs = .done () rest) : Scan .outside bs .outside rest := by
  unfold readColon at read
  split at read
  case h_1 => cases read
  case h_2 b more first =>
    have blank := scan_first first
    obtain ⟨rfl, read⟩ := Outcome.of_ite read
    cases read
    exact blank.trans (scan_plain (by decide) _)

theorem scan_digit {b : UInt8} (digit : isDigit b = true) (rest : Bytes) :
    Scan .outside (b :: rest) .outside (rest.dropWhile isDigit) :=
  (scan_plain (structural_digit digit) rest).trans (scan_digits rest)

theorem skipExponent_scan (read : skipExponent bs = .done () rest) : Scan .outside bs .outside rest := by
  have unsigned {b : UInt8} {more : Bytes} (read : (if isDigit b then .done () (more.dropWhile isDigit) else
      .failed .invalidNumber more) = Outcome.done () rest) : Scan .outside (b :: more) .outside rest := by
    obtain ⟨digit, read⟩ := Outcome.of_ite read
    cases read
    exact scan_digit digit more
  cases bs with
  | nil => cases read
  | cons s more =>
    simp only [skipExponent] at read
    by_cases sign : s = '+'.toUInt8 ∨ s = minus
    · have plain : structural s = true := by rcases sign with rfl | rfl <;> decide
      rw [if_pos sign] at read
      cases more with
      | nil => cases read
      | cons b more => exact (scan_plain plain _).trans (unsigned read)
    · rw [if_neg sign] at read
      exact unsigned read

theorem skipFraction_scan (read : skipFraction bs = .done () rest) : Scan .outside bs .outside rest := by
  cases bs with
  | nil => cases read
  | cons b more =>
    obtain ⟨digit, read⟩ := Outcome.of_ite_not read
    have digits := scan_digit (by simpa using digit) more
    cases next : more.dropWhile isDigit with
    | nil =>
      rw [next] at read digits
      cases read
      exact digits
    | cons c more =>
      rw [next] at read digits
      dsimp only at read
      split at read
      case isTrue mark => exact digits.trans ((scan_plain (structural_mark mark) _).trans (skipExponent_scan read))
      case isFalse =>
        cases read
        exact digits

theorem skipAfterWhole_scan (read : skipAfterWhole bs = .done () rest) : Scan .outside bs .outside rest := by
  cases bs with
  | nil =>
    cases read
    exact .refl
  | cons b more =>
    simp only [skipAfterWhole] at read
    split at read
    case isTrue point => exact (scan_plain (point ▸ by decide) _).trans (skipFraction_scan read)
    case isFalse =>
      split at read
      case isTrue mark => exact (scan_plain (structural_mark mark) _).trans (skipExponent_scan read)
      case isFalse =>
        cases read
        exact .refl

theorem skipNumber_scan (read : skipNumber bs = .done () rest) : Scan .outside bs .outside rest := by
  cases bs with
  | nil => cases read
  | cons b more =>
    rw [skipNumber.eq_def] at read
    dsimp only at read
    split at read
    case isTrue zero =>
      subst zero
      refine (scan_plain (by decide) more).trans ?_
      cases more with
      | nil =>
        cases read
        exact .refl
      | cons c more => exact skipAfterWhole_scan (Outcome.of_ite_not read).2
    case isFalse =>
      obtain ⟨digit, read⟩ := Outcome.of_ite read
      exact (scan_digit digit more).trans (skipAfterWhole_scan read)

theorem skipHead_scan {head : Option Bracket} (read : skipHead bs = .done head rest) :
    Scan .outside bs .outside rest := by
  unfold skipHead at read
  split at read
  case h_1 => cases read
  case h_2 b more first =>
    have blank := scan_first first
    have after (plain : structural b = true) : Scan .outside bs .outside more := blank.trans (scan_plain plain more)
    have scalar {o : Outcome Unit} {start : Bytes}
        (read : (o.map fun _ => (none : Option Bracket)) = .done head rest)
        (scan : o = .done () rest → Scan .outside start .outside rest) (before : Scan .outside bs .outside start) :
        Scan .outside bs .outside rest := by
      obtain ⟨_, inner, -⟩ := Outcome.map_eq_done.mp read
      exact before.trans (scan inner)
    have ident {word : Bytes} (read : ((readIdent word more).map fun _ => (none : Option Bracket)) = .done head rest)
        (letters : word.all structural = true) (mark : structural b = true) : Scan .outside bs .outside rest :=
      scalar read (readIdent_scan (List.all_eq_true.mp letters)) (after mark)
    split at read
    case isTrue same => exact ident read (by decide) (same ▸ by decide)
    split at read
    case isTrue same => exact ident read (by decide) (same ▸ by decide)
    split at read
    case isTrue same => exact ident read (by decide) (same ▸ by decide)
    split at read
    case isTrue same => exact scalar read skipNumber_scan (after (same ▸ by decide))
    split at read
    case isTrue => exact scalar read skipNumber_scan blank
    split at read
    case isTrue same =>
      subst same
      obtain ⟨_, inner, -⟩ := Outcome.map_eq_done.mp read
      exact blank.trans ((scan_quotationMark more).trans (skipText_scan inner))
    split at read
    case isTrue same =>
      cases read
      exact after (same ▸ by decide)
    obtain ⟨same, read⟩ := Outcome.of_ite read
    cases read
    exact after (same ▸ by decide)

theorem closeBrackets_scan {fs fs' : List Bracket} (read : closeBrackets fs bs = .done fs' rest) :
    Scan .outside bs .outside rest := by
  induction fs generalizing bs with
  | nil =>
    cases read
    exact .refl
  | cons f fs ih =>
    unfold closeBrackets at read
    split at read
    case h_1 => cases read
    case h_2 b more first =>
      have blank := scan_first first
      split at read
      case isTrue same =>
        cases read
        exact blank.trans (scan_plain (same ▸ by decide) _)
      case isFalse =>
        obtain ⟨rfl, inner⟩ := Outcome.of_ite read
        exact blank.trans ((scan_plain (structural_brackets f).2 more).trans (ih inner))

theorem openBracket_scan {f : Bracket} {fs fs' : List Bracket} (read : openBracket f fs bs = .done fs' rest) :
    Scan .outside bs .outside rest := by
  unfold openBracket at read
  split at read
  case h_1 => cases read
  case h_2 b more first =>
    have blank := scan_first first
    split at read
    case isTrue same => exact blank.trans ((scan_plain (same ▸ (structural_brackets f).2) more).trans
      (closeBrackets_scan read))
    case isFalse =>
      cases read
      exact blank

theorem skipName_scan (read : skipName bs = .done () rest) : Scan .outside bs .outside rest := by
  unfold skipName at read
  split at read
  case h_1 => cases read
  case h_2 b more first =>
    have blank := scan_first first
    obtain ⟨rfl, read⟩ := Outcome.of_ite read
    obtain ⟨_, mid, name, colon⟩ := Reader.bind_eq_done.mp read
    exact blank.trans ((scan_quotationMark more).trans ((skipText_scan name).trans (readColon_scan colon)))

theorem proceed_scan {fuel : Nat} {fs : List Bracket} {mid : Bytes}
    (within : ∀ fs bs, skipWithin fuel fs bs = .done () rest → Scan .outside bs .outside rest)
    (read : proceed fuel (.done fs mid) = .done () rest) : Scan .outside mid .outside rest := by
  rcases fs with _ | ⟨_ | _, fs⟩
  · cases read
    exact .refl
  · exact within _ _ read
  · simp only [proceed] at read
    cases name : skipName mid with
    | failed e more => simp [name] at read
    | done _ more =>
      rw [name] at read
      exact (skipName_scan name).trans (within _ _ read)

theorem skipWithin_scan {fuel : Nat} {fs : List Bracket} (read : skipWithin fuel fs bs = .done () rest) :
    Scan .outside bs .outside rest := by
  induction fuel generalizing fs bs with
  | zero =>
    cases read
    exact .refl
  | succ fuel ih =>
    cases head : skipHead bs with
    | failed e more => simp [skipWithin, head] at read
    | done head' more =>
      rw [skipWithin_succ head] at read
      refine (skipHead_scan head).trans ?_
      cases head' with
      | none =>
        cases next : closeBrackets fs more with
        | failed e more => simp [next, proceed] at read
        | done fs' mid =>
          simp only [next] at read
          exact (closeBrackets_scan next).trans (proceed_scan (fun _ _ => ih) read)
      | some f =>
        cases next : openBracket f fs more with
        | failed e more => simp [next, proceed] at read
        | done fs' mid =>
          simp only [next] at read
          exact (openBracket_scan next).trans (proceed_scan (fun _ _ => ih) read)

theorem skipValue_scan (read : skipValue bs = .done () rest) : Scan .outside bs .outside rest :=
  skipWithin_scan read

theorem moreMembers_end {first : Bool} (read : moreMembers first bs = .done false rest) :
    Scan .outside bs .outside rest := by
  unfold moreMembers at read
  split at read
  case h_1 => cases read
  case h_2 b more start =>
    split at read
    case isTrue =>
      cases read
      exact scan_first start
    case isFalse => split at read <;> split at read <;> grind

theorem moreMembers_scan (read : moreMembers false bs = .done true rest) : Scan .outside bs .inside rest := by
  unfold moreMembers at read
  split at read
  case h_1 => cases read
  case h_2 b more first =>
    have blank := scan_first first
    split at read
    case isTrue => cases read
    simp only [Bool.false_eq_true, if_false] at read
    obtain ⟨rfl, next⟩ := Outcome.of_ite read
    split at next
    case h_1 => cases next
    case h_2 c more' second =>
      have blank' := scan_first second
      split at next
      case isTrue same =>
        cases next
        subst same
        exact blank.trans ((scan_plain (by decide) _).trans (blank'.trans (scan_quotationMark _)))
      case isFalse => split at next <;> cases next

end Reading

end PushGateway.Json
