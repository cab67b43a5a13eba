import PushGateway.Pem.Section

namespace PushGateway.Pem

variable {b : UInt8} {xs rest line : Bytes} {ls more : List Bytes} {o : OpenSection} {current : Option OpenSection}

abbrev IsBreak (b : UInt8) : Prop := b = newline ∨ b = carriageReturn

theorem ne_of_isBreak {x : UInt8} (isBreak : IsBreak b) (plain : ¬ IsBreak x) : x ≠ b :=
  fun same => plain (same ▸ isBreak)

theorem lines_ne_nil (xs : Bytes) (b : UInt8) (rest : Bytes) : lines (xs ++ b :: rest) ≠ [] := by
  cases xs with
  | nil => rw [List.nil_append, lines]; grind
  | cons x xs => rw [List.cons_append, lines]; grind

theorem lines_break (isBreak : IsBreak b) (rest : Bytes) : lines (b :: rest) = [b] :: lines rest := by
  rw [lines, if_pos isBreak]

theorem lines_append (isBreak : IsBreak b) (xs rest : Bytes) :
    lines (xs ++ b :: rest) = lines (xs ++ [b]) ++ lines rest := by
  induction xs with
  | nil => rw [List.nil_append, List.nil_append, lines_break isBreak, lines_break isBreak]; rfl
  | cons x xs ih =>
    simp only [List.cons_append, lines, ih]
    by_cases first : IsBreak x
    · simp only [first, if_true, List.cons_append]
    · cases found : lines (xs ++ [b]) with
      | nil => exact absurd found (lines_ne_nil xs b [])
      | cons l ls => simp only [first, if_false, List.cons_append]

theorem lines_plain (isBreak : IsBreak b) (plain : ∀ x ∈ xs, ¬ IsBreak x) : lines (xs ++ [b]) = [xs ++ [b]] := by
  induction xs with
  | nil => exact lines_break isBreak []
  | cons x xs ih =>
    obtain ⟨own, others⟩ := List.forall_mem_cons.mp plain
    rw [List.cons_append, lines, if_neg own, ih others]

theorem flatten_lines (xs : Bytes) : (lines xs).flatten = xs := by
  induction xs with
  | nil => rfl
  | cons x xs ih =>
    rw [lines]
    split
    · rw [List.flatten_cons, ih, List.singleton_append]
    · split
      · next l ls found =>
        rw [found, List.flatten_cons] at ih
        rw [List.flatten_cons, List.cons_append, ih]
      · next found =>
        rw [found] at ih
        rw [← ih]
        rfl

theorem lines_unended (isBreak : IsBreak b) (xs : Bytes) :
    ∃ ls last, lines (xs ++ [b]) = ls ++ [last ++ [b]] ∧
      (lines xs = ls ++ [last] ∨ last = [] ∧ lines xs = ls) := by
  induction xs with
  | nil => exact ⟨[], [], lines_break isBreak [], .inr ⟨rfl, rfl⟩⟩
  | cons x xs ih =>
    obtain ⟨ls, last, ended, unended⟩ := ih
    rw [List.cons_append, lines, lines, ended]
    by_cases first : IsBreak x
    · refine ⟨[x] :: ls, last, by rw [if_pos first]; rfl, ?_⟩
      rw [if_pos first]
      rcases unended with found | ⟨bare, found⟩
      · exact .inl (by rw [found]; rfl)
      · exact .inr ⟨bare, by rw [found]⟩
    · rw [if_neg first, if_neg first]
      cases ls with
      | nil =>
        refine ⟨[], x :: last, rfl, .inl ?_⟩
        rcases unended with found | ⟨bare, found⟩
        · rw [found]; rfl
        · rw [found, bare]; rfl
      | cons l ls =>
        refine ⟨(x :: l) :: ls, last, rfl, ?_⟩
        rcases unended with found | ⟨bare, found⟩
        · exact .inl (by rw [found]; rfl)
        · exact .inr ⟨bare, by rw [found]⟩

/-- What a line comes to: the section that it completes, and what is open after it. -/
def advance (current : Option OpenSection) (line : Bytes) : Except Fault (Option Section × Option OpenSection) :=
  if beginMark.isPrefixOf line then
    match beginLabel? line with
    | none => .error (.illegalStart line)
    | some label => .ok (none, some ⟨label, (current.map (·.body)).getD []⟩)
  else match current with
    | none => .ok (none, none)
    | some o =>
      if (endMark o.label).isPrefixOf line then
        match Kind.ofLabel? o.label with
        | none => .ok (none, none)
        | some kind =>
          match Body.decode o.body with
          | .error e => .error (.body e)
          | .ok content => .ok (some ⟨kind, content⟩, none)
      else .ok (none, some ⟨o.label, o.body ++ line⟩)

def Contents.after (later : Contents) (found : Option Section) : Contents :=
  { later with sections := found.toList ++ later.sections }

theorem readLines_cons (current : Option OpenSection) (line : Bytes) (more : List Bytes) :
    readLines current (line :: more) =
      match advance current line with
      | .error fault => ⟨[], some fault⟩
      | .ok (found, next) => (readLines next more).after found := by
  unfold advance
  rw [readLines.eq_def]
  dsimp only
  split
  · cases beginLabel? line <;> rfl
  · cases current with
    | none => rfl
    | some o =>
      dsimp only
      split
      · cases Kind.ofLabel? o.label with
        | none => rfl
        | some kind => cases Body.decode o.body <;> rfl
      · rfl

/-- Lines that begin no section have no meaning outside of one. -/
theorem readLines_outside (plain : ∀ l ∈ ls, ¬ beginMark <+: l) (more : List Bytes) :
    readLines none (ls ++ more) = readLines none more := by
  induction ls with
  | nil => rfl
  | cons l ls ih =>
    obtain ⟨own, others⟩ := List.forall_mem_cons.mp plain
    rw [List.cons_append, readLines_cons, advance, if_neg (by rwa [List.isPrefixOf_iff_prefix])]
    exact ih others

theorem head?_beginMark : beginMark.head? = some dash := by decide

theorem head?_endMark (label : Bytes) : (endMark label).head? = some dash := by
  have mark : (Utf8.encode "-----END ").head? = some dash := by decide
  simp only [endMark, List.head?_append, mark, Option.some_or]

theorem not_prefix_of_head {mark : Bytes} (dashed : mark.head? = some dash) (undashed : line.head? ≠ some dash) :
    mark.isPrefixOf line = false := by
  rw [Bool.eq_false_iff, ne_eq, List.isPrefixOf_iff_prefix]
  rintro ⟨tail, rfl⟩
  rw [List.head?_append, dashed] at undashed
  exact undashed rfl

theorem readLines_inside (undashed : line.head? ≠ some dash) (o : OpenSection) (more : List Bytes) :
    readLines (some o) (line :: more) = readLines (some ⟨o.label, o.body ++ line⟩) more := by
  simp only [readLines, not_prefix_of_head head?_beginMark undashed,
    not_prefix_of_head (head?_endMark o.label) undashed, Bool.false_eq_true, if_false]

theorem isPrefixOf_unended {mark : Bytes} (clean : mark.getLast? ≠ some b) :
    mark.isPrefixOf (line ++ [b]) = mark.isPrefixOf line := by
  rw [Bool.eq_iff_iff, List.isPrefixOf_iff_prefix, List.isPrefixOf_iff_prefix, List.prefix_concat_iff]
  constructor
  · rintro (rfl | shorter)
    · exact absurd List.getLast?_concat clean
    · exact shorter
  · exact .inr

theorem getLast?_beginMark (isBreak : IsBreak b) : beginMark.getLast? ≠ some b := by
  have last : beginMark.getLast? = some 32 := by decide
  rw [last]
  exact mt Option.some.inj (ne_of_isBreak isBreak (by decide))

theorem getLast?_endMark (isBreak : IsBreak b) (label : Bytes) : (endMark label).getLast? ≠ some b := by
  have last : (endMark label).getLast? = some dash := by simp [endMark, List.getLast?_append]
  rw [last]
  exact mt Option.some.inj (ne_of_isBreak isBreak (by decide))

theorem advance_unended (isBreak : IsBreak b) {found : Option Section}
    (read : advance current (line ++ [b]) = .ok (found, none)) : advance current line = .ok (found, none) := by
  unfold advance at read ⊢
  rw [isPrefixOf_unended (getLast?_beginMark isBreak)] at read
  split at read
  · cases label : beginLabel? (line ++ [b]) <;> simp [label] at read
  · next plain =>
    rw [if_neg plain]
    cases current with
    | none => exact read
    | some o =>
      dsimp only at read ⊢
      rw [isPrefixOf_unended (getLast?_endMark isBreak o.label)] at read
      split at read
      · next ends => rwa [if_pos ends]
      · cases read

theorem readLines_unended (isBreak : IsBreak b) (ls : List Bytes) (line : Bytes) (current : Option OpenSection)
    (read : (readLines current (ls ++ [line ++ [b]])).fault = none) :
    readLines current (ls ++ [line]) = readLines current (ls ++ [line ++ [b]]) := by
  induction ls generalizing current with
  | nil =>
    simp only [List.nil_append, readLines_cons] at read ⊢
    cases last : advance current (line ++ [b]) with
    | error fault => simp [last] at read
    | ok result =>
      -- a section that stays open is a fault
      obtain ⟨found, _ | o⟩ := result
      · rw [advance_unended isBreak last]
      · simp [last, readLines, Contents.after] at read
  | cons l ls ih =>
    simp only [List.cons_append, readLines_cons] at read ⊢
    cases first : advance current l with
    | error fault => rfl
    | ok result =>
      rw [first] at read
      exact congrArg (Contents.after · result.1) (ih result.2 read)

theorem readLines_empty (current : Option OpenSection) (ls : List Bytes) :
    readLines current (ls ++ [[]]) = readLines current ls := by
  induction ls generalizing current with
  | nil =>
    cases current with
    | none => rfl
    | some o => exact readLines_inside (by simp) o []
  | cons l ls ih => simp only [List.cons_append, readLines_cons, ih]

theorem read_unended (isBreak : IsBreak b) {file : Bytes} (read : (Pem.read (file ++ [b])).fault = none) :
    Pem.read file = Pem.read (file ++ [b]) := by
  obtain ⟨ls, last, ended, unended⟩ := lines_unended isBreak file
  rw [Pem.read, ended] at read
  rw [Pem.read, Pem.read, ended, ← readLines_unended isBreak ls last none read]
  rcases unended with same | ⟨rfl, same⟩
  · rw [same]
  · rw [same, readLines_empty]

end PushGateway.Pem
