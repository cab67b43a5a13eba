import PushGateway.Proofs.Pem.Body
import PushGateway.Proofs.Pem.Lines
import PushGateway.Proofs.Text.Ascii
/-!
Files as they are written: sections, their base64 broken into lines of any width, and lines of text around them.
-/

namespace PushGateway.Pem

inductive Ending where
  | lf
  | crlf
  deriving DecidableEq, Repr

def Ending.octets : Ending → Bytes
  | .lf => [newline]
  | .crlf => [carriageReturn, newline]

def header (label : String) : Bytes := Utf8.encode ("-----BEGIN " ++ label ++ "-----")

def footer (label : String) : Bytes := Utf8.encode ("-----END " ++ label ++ "-----")

/-- A section as it is written; the lines of its body may have any width. -/
structure WrittenSection where
  label : String
  content : Bytes
  afterHeader : Ending
  body : List (Bytes × Ending)
  afterFooter : Ending
  /-- A label may hold letters, spaces and more, but nothing that would end it. -/
  clean : '-' ∉ label.toList ∧ '\n' ∉ label.toList ∧ '\r' ∉ label.toList
  spelled : body.flatMap Prod.fst = Base64.encode Base64.standard content

inductive Part where
  | armored (s : WrittenSection)
  | text (line : String) (ending : Ending) (unmarked : ¬ "-----BEGIN".toList <:+: line.toList)

def bodyOctets (lines : List (Bytes × Ending)) : Bytes := lines.flatMap fun l => l.1 ++ l.2.octets

def WrittenSection.octets (s : WrittenSection) : Bytes :=
  header s.label ++ s.afterHeader.octets ++ bodyOctets s.body ++ footer s.label ++ s.afterFooter.octets

def Part.octets : Part → Bytes
  | .armored s => s.octets
  | .text line ending _ => Utf8.encode line ++ ending.octets

/-- The file is made of these parts; the ending of its last line may be missing. -/
def Consists (file : Bytes) (parts : List Part) : Prop :=
  file = parts.flatMap Part.octets ∨ ∃ e : Ending, file ++ e.octets = parts.flatMap Part.octets

def Part.section? : Part → Option Section
  | .armored s => (Kind.ofLabel? (Utf8.encode s.label)).map fun kind => ⟨kind, s.content⟩
  | .text _ _ _ => none

variable {b : UInt8} {label xs rest : Bytes} {s : WrittenSection}

theorem header_eq (label : String) :
    header label = beginMark ++ (Utf8.encode label ++ List.replicate 5 dash) := by
  have close : Utf8.encode "-----" = List.replicate 5 dash := by decide
  rw [header, Utf8.encode_append, Utf8.encode_append, close, List.append_assoc, beginMark]

theorem footer_eq (label : String) : footer label = endMark (Utf8.encode label) := by
  have close : Utf8.encode "-----" = List.replicate 5 dash := by decide
  rw [footer, Utf8.encode_append, Utf8.encode_append, close, endMark]

section Labels

theorem takeWhile_append_stop {α : Type} {p : α → Bool} {y : α} (stop : p y = false) (xs ys : List α) :
    (xs ++ y :: ys).takeWhile p = xs.takeWhile p := by
  induction xs with
  | nil => simp [stop]
  | cons x xs ih => simp [List.takeWhile_cons, ih]

theorem trailing_header (isBreak : IsBreak b) (undashed : dash ∉ label) :
    ∃ spaces, dash ∉ spaces ∧
      ((beginMark ++ (label ++ List.replicate 5 dash) ++ [b]).reverse.takeWhile isTrailing).reverse =
        spaces ++ (List.replicate 5 dash ++ [b]) := by
  -- the run cannot pass the last letter of the mark
  have mark : beginMark.reverse = ' '.toUInt8 :: 'N'.toUInt8 :: (Utf8.encode "-----BEGI").reverse := by decide
  have reversed : (beginMark ++ (label ++ List.replicate 5 dash) ++ [b]).reverse =
      (b :: List.replicate 5 dash) ++ ((label.reverse ++ [' '.toUInt8]) ++
        'N'.toUInt8 :: (Utf8.encode "-----BEGI").reverse) := by
    simp [mark]
  have closing : ∀ x ∈ b :: List.replicate 5 dash, isTrailing x := by
    intro x member
    rcases List.mem_cons.mp member with rfl | dashes
    · rcases isBreak with rfl | rfl <;> decide
    · exact List.eq_of_mem_replicate dashes ▸ by decide
  refine ⟨((label.reverse ++ [' '.toUInt8]).takeWhile isTrailing).reverse, ?_, ?_⟩
  · intro member
    have member := (List.takeWhile_prefix isTrailing).subset (List.mem_reverse.mp member)
    simp only [List.mem_append, List.mem_reverse, undashed, List.mem_singleton, false_or] at member
    exact absurd member (by decide)
  · rw [reversed, List.takeWhile_append_of_pos closing, takeWhile_append_stop (by decide)]
    simp

theorem beginLabel?_header (isBreak : IsBreak b) (undashed : dash ∉ label) :
    beginLabel? (beginMark ++ (label ++ List.replicate 5 dash) ++ [b]) = some label := by
  obtain ⟨spaces, bare, trailing⟩ := trailing_header isBreak undashed
  have other : b ≠ dash := (ne_of_isBreak isBreak (by decide)).symm
  have dashes : (spaces ++ (List.replicate 5 dash ++ [b])).count dash = 5 := by
    simp [List.count_eq_zero_of_not_mem bare, other]
  have close : ((spaces ++ (List.replicate 5 dash ++ [b])).dropWhile (· ≠ dash)).length = 6 := by
    have skipped : ∀ x ∈ spaces, decide (x ≠ dash) := by
      intro x member
      exact decide_eq_true fun same => bare (same ▸ member)
    rw [List.dropWhile_append_of_pos skipped]
    simp [List.replicate]
  have cut : beginMark ++ (label ++ List.replicate 5 dash) ++ [b] =
      beginMark ++ label ++ (List.replicate 5 dash ++ [b]) := by
    simp only [List.append_assoc]
  have front : (beginMark ++ label).length = (beginMark ++ label ++ (List.replicate 5 dash ++ [b])).length - 6 := by
    simp only [List.length_append, List.length_replicate, List.length_singleton]
    omega
  unfold beginLabel?
  dsimp only
  rw [trailing, if_pos dashes, close, cut, List.take_left' front, List.drop_left]

theorem Kind.label_injective : Function.Injective Kind.label := by
  intro k l same
  cases k <;> cases l <;> simp [Kind.label] at same ⊢

theorem Kind.mem_all (k : Kind) : k ∈ Kind.all := by cases k <;> decide

theorem Kind.ofLabel?_eq_some {label : String} {k : Kind} :
    Kind.ofLabel? (Utf8.encode label) = some k ↔ k.label = label := by
  have same (k : Kind) : Utf8.encode k.label = Utf8.encode label ↔ k.label = label :=
    ⟨fun h => Option.some.inj ((Utf8.decode?_encode _).symm.trans ((congrArg Utf8.decode? h).trans
      (Utf8.decode?_encode _))), congrArg Utf8.encode⟩
  unfold ofLabel?
  constructor
  · intro found
    have labels := List.find?_some found
    exact (same k).mp (of_decide_eq_true labels)
  · rintro rfl
    cases found : Kind.all.find? fun l => Utf8.encode l.label = Utf8.encode k.label with
    | none => exact absurd (decide_eq_true rfl) (List.find?_eq_none.mp found k k.mem_all)
    | some l =>
      have labels := List.find?_some found
      rw [Kind.label_injective ((same l).mp (of_decide_eq_true labels))]

theorem unbroken {xs : Bytes} (noFeed : newline ∉ xs) (noReturn : carriageReturn ∉ xs) :
    ∀ x ∈ xs, ¬ IsBreak x := by
  rintro x member (rfl | rfl)
  · exact noFeed member
  · exact noReturn member

theorem WrittenSection.undashed (s : WrittenSection) : dash ∉ Utf8.encode s.label :=
  fun member => s.clean.1 ((Utf8.mem_encode (by decide) s.label).mp member)

theorem WrittenSection.unbroken_marked (s : WrittenSection) {mark : Bytes} (noFeed : newline ∉ mark)
    (noReturn : carriageReturn ∉ mark) :
    ∀ x ∈ mark ++ (Utf8.encode s.label ++ List.replicate 5 dash), ¬ IsBreak x := by
  have label : ∀ x ∈ Utf8.encode s.label, ¬ IsBreak x :=
    unbroken (fun member => s.clean.2.1 ((Utf8.mem_encode (by decide) s.label).mp member))
      fun member => s.clean.2.2 ((Utf8.mem_encode (by decide) s.label).mp member)
  intro x member
  simp only [List.mem_append, List.mem_replicate] at member
  rcases member with member | member | ⟨-, rfl⟩
  · exact unbroken noFeed noReturn x member
  · exact label x member
  · decide

theorem WrittenSection.unbroken_header (s : WrittenSection) : ∀ x ∈ header s.label, ¬ IsBreak x := by
  rw [header_eq]
  exact s.unbroken_marked (by decide) (by decide)

theorem WrittenSection.unbroken_footer (s : WrittenSection) : ∀ x ∈ footer s.label, ¬ IsBreak x := by
  rw [footer_eq, endMark, List.append_assoc]
  exact s.unbroken_marked (by decide) (by decide)

end Labels

section Reading

/-- What is left of an ending once its first octet has ended the line. -/
def Feed (more : Bytes) : Prop := more = [] ∨ more = [newline]

theorem Ending.octets_eq (e : Ending) : ∃ b more, IsBreak b ∧ e.octets = b :: more ∧ Feed more := by
  cases e with
  | lf => exact ⟨newline, [], .inl rfl, rfl, .inl rfl⟩
  | crlf => exact ⟨carriageReturn, [newline], .inr rfl, rfl, .inr rfl⟩

/-- A line and its ending; the line feed of a pair is a line of its own. -/
theorem lines_line (plain : ∀ x ∈ xs, ¬ IsBreak x) (e : Ending) (rest : Bytes) :
    ∃ b more, IsBreak b ∧ e.octets = b :: more ∧ Feed more ∧
      lines (xs ++ (e.octets ++ rest)) = (xs ++ [b]) :: lines (more ++ rest) := by
  obtain ⟨b, more, isBreak, octets, kind⟩ := e.octets_eq
  refine ⟨b, more, isBreak, octets, kind, ?_⟩
  rw [octets, List.cons_append, lines_append isBreak, lines_plain isBreak plain, List.singleton_append]

theorem readLines_feed_inside (o : OpenSection) {more : Bytes} (feed : Feed more) (rest : Bytes) :
    readLines (some o) (lines (more ++ rest)) = readLines (some ⟨o.label, o.body ++ more⟩) (lines rest) := by
  rcases feed with rfl | rfl
  · rw [List.nil_append, List.append_nil]
  · rw [List.singleton_append, lines_break (.inl rfl), readLines_inside (by decide)]

theorem readLines_feed_outside {more : Bytes} (feed : Feed more) (rest : Bytes) :
    readLines none (lines (more ++ rest)) = readLines none (lines rest) := by
  rcases feed with rfl | rfl
  · rfl
  · have bare : ∀ l ∈ [[newline]], ¬ beginMark <+: l := by decide
    rw [List.singleton_append, lines_break (.inl rfl)]
    exact readLines_outside bare _

theorem readLines_header (s : WrittenSection) (rest : Bytes) :
    ∃ more, Feed more ∧
      readLines none (lines (header s.label ++ (s.afterHeader.octets ++ rest))) =
        readLines (some ⟨Utf8.encode s.label, more⟩) (lines rest) := by
  obtain ⟨b, more, isBreak, -, feed, cut⟩ := lines_line s.unbroken_header s.afterHeader rest
  refine ⟨more, feed, ?_⟩
  have begins : beginMark.isPrefixOf (header s.label ++ [b]) := by
    rw [List.isPrefixOf_iff_prefix, header_eq, List.append_assoc]
    exact List.prefix_append _ _
  have label : beginLabel? (header s.label ++ [b]) = some (Utf8.encode s.label) := by
    rw [header_eq]
    exact beginLabel?_header isBreak s.undashed
  rw [cut, readLines_cons, advance, if_pos begins, label]
  exact readLines_feed_inside ⟨Utf8.encode s.label, []⟩ feed rest

theorem readLines_body (ls : List (Bytes × Ending)) (plain : ∀ x ∈ ls.flatMap Prod.fst, x ≠ dash ∧ ¬ IsBreak x)
    (o : OpenSection) (rest : Bytes) :
    readLines (some o) (lines (bodyOctets ls ++ rest)) =
      readLines (some ⟨o.label, o.body ++ bodyOctets ls⟩) (lines rest) := by
  induction ls generalizing o with
  | nil => simp [bodyOctets]
  | cons l ls ih =>
    obtain ⟨line, e⟩ := l
    simp only [List.flatMap_cons, List.mem_append] at plain
    obtain ⟨b, more, isBreak, octets, feed, cut⟩ :=
      lines_line (fun x member => (plain x (.inl member)).2) e (bodyOctets ls ++ rest)
    have undashed : (line ++ [b]).head? ≠ some dash := by
      cases line with
      | nil =>
        rintro same
        cases same
        exact absurd isBreak (by decide)
      | cons x line =>
        rintro same
        exact (plain x (.inl List.mem_cons_self)).1 (Option.some.inj same)
    have split : bodyOctets ((line, e) :: ls) ++ rest = line ++ (e.octets ++ (bodyOctets ls ++ rest)) := by
      simp only [bodyOctets, List.flatMap_cons, List.append_assoc]
    rw [split, cut, readLines_inside undashed, readLines_feed_inside _ feed,
      ih (fun x member => plain x (.inr member))]
    simp only [bodyOctets, List.flatMap_cons, List.append_assoc, octets, List.cons_append, List.nil_append]

theorem not_begins_footer (label : String) (rest : Bytes) : beginMark.isPrefixOf (footer label ++ rest) = false := by
  rw [Bool.eq_false_iff, ne_eq, List.isPrefixOf_iff_prefix, footer_eq, endMark]
  rintro ⟨tail, same⟩
  have sixth := congrArg (·[5]?) same
  simp only [List.append_assoc] at sixth
  rw [List.getElem?_append_left (by decide), List.getElem?_append_left (by decide)] at sixth
  revert sixth
  decide

theorem readLines_footer (s : WrittenSection) {body : Bytes} (decoded : Body.decode body = .ok s.content)
    (rest : Bytes) :
    readLines (some ⟨Utf8.encode s.label, body⟩) (lines (footer s.label ++ (s.afterFooter.octets ++ rest))) =
      (readLines none (lines rest)).after (Part.armored s).section? := by
  obtain ⟨b, more, -, -, feed, cut⟩ := lines_line s.unbroken_footer s.afterFooter rest
  have ends : (endMark (Utf8.encode s.label)).isPrefixOf (footer s.label ++ [b]) := by
    rw [List.isPrefixOf_iff_prefix, footer_eq]
    exact List.prefix_append _ _
  rw [cut, readLines_cons, advance, if_neg (by simp [not_begins_footer])]
  dsimp only
  rw [if_pos ends, ← readLines_feed_outside feed rest, Part.section?, decoded]
  cases Kind.ofLabel? (Utf8.encode s.label) <;> rfl

theorem WrittenSection.plain_body (s : WrittenSection) :
    ∀ x ∈ s.body.flatMap Prod.fst, Body.isBlank x = false ∧ x ≠ dash ∧ ¬ IsBreak x := by
  have symbols : ∀ n, n < 64 → Body.isBlank (Base64.symbol Base64.standard n) = false ∧
      Base64.symbol Base64.standard n ≠ dash ∧ ¬ IsBreak (Base64.symbol Base64.standard n) := by decide
  intro x member
  rw [s.spelled] at member
  rcases Base64.mem_encode _ x member with ⟨n, bound, rfl⟩ | ⟨-, rfl⟩
  · exact symbols n bound
  · decide

theorem WrittenSection.decode_body (s : WrittenSection) {more : Bytes} (feed : Feed more) :
    Body.decode (more ++ bodyOctets s.body) = .ok s.content := by
  have ending (e : Ending) : e.octets.filter (fun b => !Body.isBlank b) = [] := by cases e <;> decide
  have lines (ls : List (Bytes × Ending)) (symbols : ∀ x ∈ ls.flatMap Prod.fst, Body.isBlank x = false) :
      (bodyOctets ls).filter (fun b => !Body.isBlank b) = ls.flatMap Prod.fst := by
    induction ls with
    | nil => rfl
    | cons l ls ih =>
      simp only [List.flatMap_cons, List.mem_append] at symbols
      have own : l.1.filter (fun b => !Body.isBlank b) = l.1 :=
        List.filter_eq_self.mpr fun x member => by simp [symbols x (.inl member)]
      have later := ih fun x member => symbols x (.inr member)
      simp only [bodyOctets] at later
      simp only [bodyOctets, List.flatMap_cons, List.filter_append, own, ending, later, List.append_nil]
  have blank : more.filter (fun b => !Body.isBlank b) = [] := by rcases feed with rfl | rfl <;> decide
  refine Body.decode_of_filter ?_
  rw [List.filter_append, blank, lines s.body fun x member => (s.plain_body x member).1, List.nil_append, s.spelled]

theorem readLines_armored (s : WrittenSection) (rest : Bytes) :
    readLines none (lines (s.octets ++ rest)) = (readLines none (lines rest)).after (Part.armored s).section? := by
  have split : s.octets ++ rest = header s.label ++ (s.afterHeader.octets ++
      (bodyOctets s.body ++ (footer s.label ++ (s.afterFooter.octets ++ rest)))) := by
    simp only [WrittenSection.octets, List.append_assoc]
  obtain ⟨more, feed, opened⟩ := readLines_header s
    (bodyOctets s.body ++ (footer s.label ++ (s.afterFooter.octets ++ rest)))
  rw [split, opened, readLines_body s.body fun x member => (s.plain_body x member).2,
    readLines_footer s (s.decode_body feed)]

theorem lines_ending (xs : Bytes) (e : Ending) (rest : Bytes) :
    lines (xs ++ (e.octets ++ rest)) = lines (xs ++ e.octets) ++ lines rest := by
  cases e with
  | lf => exact lines_append (.inl rfl) xs rest
  | crlf => simpa [Ending.octets] using lines_append (.inl rfl) (xs ++ [carriageReturn]) rest

theorem not_begins_text {line : String} (unmarked : ¬ "-----BEGIN".toList <:+: line.toList) (e : Ending) :
    ∀ l ∈ lines (Utf8.encode line ++ e.octets), ¬ beginMark <+: l := by
  rintro l member begins
  have word : Utf8.encode "-----BEGIN" <+: beginMark := by decide
  have found : Utf8.encode "-----BEGIN" <:+: Utf8.encode line ++ e.octets := by
    rw [← flatten_lines (Utf8.encode line ++ e.octets)]
    exact (word.trans begins).isInfix.trans (List.infix_of_mem_flatten member)
  -- from its last letter back, the word lies before the ending
  have reversed : (Utf8.encode "-----BEGIN").reverse = 'N'.toUInt8 :: (Utf8.encode "-----BEGI").reverse := by decide
  have absent : 'N'.toUInt8 ∉ e.octets.reverse := by cases e <;> decide
  rw [← List.reverse_infix, List.reverse_append, reversed] at found
  have inside := Utf8.infix_append_right absent found
  rw [← reversed, List.reverse_infix, Utf8.encode_eq_flatMap line] at inside
  have text : (Utf8.encode "-----BEGIN").map (fun b => Char.ofNat b.toNat) = "-----BEGIN".toList := by decide
  exact unmarked (text ▸ Utf8.infix_of_octets (by decide) inside)

theorem readLines_part (p : Part) (rest : Bytes) :
    readLines none (lines (p.octets ++ rest)) = (readLines none (lines rest)).after p.section? := by
  cases p with
  | armored s => exact readLines_armored s rest
  | text line e unmarked =>
    rw [Part.octets, List.append_assoc, lines_ending, readLines_outside (not_begins_text unmarked e)]
    rfl

theorem read_parts (parts : List Part) :
    Pem.read (parts.flatMap Part.octets) = ⟨parts.filterMap Part.section?, none⟩ := by
  induction parts with
  | nil => rfl
  | cons p parts ih =>
    rw [Pem.read] at ih ⊢
    rw [List.flatMap_cons, readLines_part, ih]
    cases found : p.section? with
    | none => rw [List.filterMap_cons_none found]; rfl
    | some s => rw [List.filterMap_cons_some found]; rfl

theorem read_of_ended {file : Bytes} (e : Ending) (read : (Pem.read (file ++ e.octets)).fault = none) :
    Pem.read file = Pem.read (file ++ e.octets) := by
  cases e with
  | lf => exact read_unended (.inl rfl) read
  | crlf =>
    have octets : file ++ Ending.crlf.octets = file ++ [carriageReturn] ++ [newline] := by simp [Ending.octets]
    rw [octets] at read ⊢
    have bare := read_unended (.inl rfl) read
    rw [← bare] at read ⊢
    exact read_unended (.inr rfl) read

/-- A written file is read as its sections of known kinds. -/
theorem read_consists {file : Bytes} {parts : List Part} (consists : Consists file parts) :
    Pem.read file = ⟨parts.filterMap Part.section?, none⟩ := by
  rcases consists with rfl | ⟨e, ended⟩
  · exact read_parts parts
  · have whole := read_parts parts
    rw [← ended] at whole
    exact (read_of_ended e (by rw [whole])).trans whole

end Reading

end PushGateway.Pem
