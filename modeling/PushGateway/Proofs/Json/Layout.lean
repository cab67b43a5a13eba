import PushGateway.Proofs.Json.Straying
/-!
Objects laid out as a list of members, with any blanks between their parts. What a record makes of one depends on
each member's name and value, taken alone, and on which names came before.
-/

namespace PushGateway.Json

theorem textTail_quoteTail (s : String) : TextTail (quoteTail s) := by
  rw [quoteTail]
  induction Utf8.encode s with
  | nil => exact .close
  | cons b bs ih =>
    rw [List.flatMap_cons, List.append_assoc]
    rcases escape_cases b with ⟨plain, quote, back, control⟩ | ⟨c, letter, value⟩ | ⟨number, small⟩
    · rw [plain]
      exact .plain quote back control ih
    · rw [letter]
      exact .letter (value ▸ rfl) ih
    · rw [number]
      have digits := (hex4?_control b.toNat (UInt8.lt_iff_toNat_lt.mp small)).1
      exact .number (digits ▸ rfl) ih

structure Entry where
  before : Bytes
  name : Bytes
  afterName : Bytes
  beforeValue : Bytes
  value : Bytes
  after : Bytes
  before_blank : Blank before
  name_text : TextTail name
  afterName_blank : Blank afterName
  beforeValue_blank : Blank beforeValue
  value_written : Written .value value
  after_blank : Blank after

namespace Entry

def text (e : Entry) : Bytes :=
  e.before ++ quotationMark :: (e.name ++ (e.afterName ++ colon :: (e.beforeValue ++ (e.value ++ e.after))))

def key (e : Entry) : Except Error String := (readText e.name).result

def plain (name : String) {value : Bytes} (written : Written .value value) : Entry where
  before := []
  name := quoteTail name
  afterName := []
  beforeValue := []
  value := value
  after := []
  before_blank := .nil
  name_text := textTail_quoteTail name
  afterName_blank := .nil
  beforeValue_blank := .nil
  value_written := written
  after_blank := .nil

theorem key_plain (name : String) {value : Bytes} (written : Written .value value) :
    (plain name written).key = .ok name := by
  have read := readText_quoteTail name []
  rw [List.append_nil] at read
  rw [key, plain, read]
  rfl

def content (e : Entry) : Bytes := e.beforeValue ++ e.value

end Entry

/-- Members after the opening bracket of an object; a comma precedes all but the first. -/
def laidOut : Bool → List Entry → Bytes
  | _, [] => [Bracket.object.closeMark]
  | first, e :: es => (if first then [] else [comma]) ++ (e.text ++ laidOut false es)

def objectOf (lead : Bytes) (es : List Entry) (trail : Bytes) : Bytes :=
  lead ++ Bracket.object.openMark :: (laidOut true es ++ trail)

section Parts

variable {a rest : Bytes}

theorem laidOut_closed (first : Bool) (es : List Entry) : Closed (laidOut first es) := by
  induction es generalizing first with
  | nil => exact scan_plain (by decide) []
  | cons e es ih =>
    have comma : Closed (if first then [] else [comma]) := by
      cases first
      · exact scan_plain (by decide) []
      · exact .refl
    have text : Closed e.text :=
      (e.before_blank.scan _).trans ((scan_quotationMark _).trans ((e.name_text.scan _).trans
        ((e.afterName_blank.scan _).trans ((scan_plain (by decide) _).trans ((e.beforeValue_blank.scan _).trans
          ((e.value_written.scan _).trans (by simpa using e.after_blank.scan [])))))))
    exact comma.append (text.append (ih false))

theorem laidOut_not_blank (first : Bool) (es : List Entry) : ¬ Blank (laidOut first es) := by
  induction es generalizing first with
  | nil => exact fun blank => absurd (blank _ List.mem_cons_self) (by decide)
  | cons e es ih =>
    exact fun blank => ih false fun b hb =>
      blank b (List.mem_append_right _ (List.mem_append_right _ hb))

theorem laidOut_follows (blank : Blank a) (es : List Entry) (rest : Bytes) :
    Follows (a ++ (laidOut false es ++ rest)) := by
  refine Follows.blank blank ?_
  cases es with
  | nil => exact follows_closeMark .object rest
  | cons e es => exact follows_comma _

theorem moreMembers_entry (blank : Blank a) (first : Bool) (e : Entry) (es : List Entry) (rest : Bytes) :
    moreMembers first (a ++ (laidOut first (e :: es) ++ rest)) = .done true
      (e.name ++ (e.afterName ++ colon ::
        (e.beforeValue ++ (e.value ++ (e.after ++ (laidOut false es ++ rest)))))) := by
  have item : Written (.item .object) (quotationMark :: (e.name ++ (e.afterName ++ colon :: e.content))) :=
    .member e.name_text e.afterName_blank e.beforeValue_blank e.value_written
  cases first with
  | true =>
    have next := more_first item (blank.append e.before_blank) (e.after ++ (laidOut false es ++ rest))
    simpa only [laidOut, Entry.text, Entry.content, if_true, List.nil_append, List.append_assoc, List.cons_append,
      more, entered, List.tail_cons] using next
  | false =>
    have next := more_next item blank e.before_blank (e.after ++ (laidOut false es ++ rest))
    simpa only [laidOut, Entry.text, Entry.content, Bool.false_eq_true, if_false, List.nil_append,
      List.append_assoc, List.cons_append, more, entered, List.tail_cons] using next

theorem length_laidOut (first : Bool) (e : Entry) (es : List Entry) :
    (laidOut false es).length < (laidOut first (e :: es)).length := by
  simp only [laidOut, Entry.text, List.length_append, List.length_cons]
  omega

end Parts

/-- What comes of reading members one by one: the state after the last, a fault, or a place inside a value. -/
inductive Passage (σ : Type) where
  | ends (st : σ)
  | fails (e : Error)
  | lost

section Reading

variable {σ α : Type} {r : Record σ α}

def Record.through (r : Record σ α) : List String → σ → List Entry → Passage σ
  | _, st, [] => .ends st
  | seen, st, e :: es =>
    match e.key with
    | .error fault => .fails fault
    | .ok name =>
      match r.fields.find? (·.name = name) with
      | none => r.through seen st es
      | some field =>
        if name ∈ seen then .fails (.duplicateField name)
        else match field.read st e.content with
          | .failed fault _ => .fails fault
          | .done st' [] => r.through (name :: seen) st' es
          | .done _ (_ :: _) => .lost

theorem Settles.alone {reader : Reader σ} {w : Bytes} (settles : Settles reader w) :
    (∃ st, reader w = .done st [] ∧ ∀ rest, Follows rest → reader (w ++ rest) = .done st rest) ∨
    (∃ st b left, reader w = .done st (b :: left) ∧ Astray Closed (b :: left) ∧
      ∀ rest, Follows rest → reader (w ++ rest) = .done st (b :: left ++ rest)) ∨
    ∃ e left, reader w = .failed e left ∧ ∀ rest, Follows rest → reader (w ++ rest) = .failed e (left ++ rest) := by
  have empty {o : Outcome σ} (h : reader (w ++ []) = o) : reader w = o := by rwa [List.append_nil] at h
  cases settles with
  | read st left place h =>
    have alone := empty (h [] follows_nil)
    rw [List.append_nil] at alone
    cases left with
    | nil => exact .inl ⟨st, alone, h⟩
    | cons b left => exact .inr (.inl ⟨st, b, left, alone, place.resolve_left (List.cons_ne_nil b left), h⟩)
  | failed e left h =>
    have alone := empty (h [] follows_nil)
    rw [List.append_nil] at alone
    exact .inr (.inr ⟨e, left, alone, h⟩)

/-- Whether an outcome, with the given rest of the text after the object, is what came of its members. -/
def Passage.Tells (rest : Bytes) : Passage σ → Outcome σ → Prop
  | .ends st, o => o = .done st (Bracket.object.closeMark :: rest)
  | .fails e, o => ∃ left, o = .failed e left
  | .lost, o => ¬ Completes o

theorem members_through (orderly : r.Orderly) {rest : Bytes} (closed : Closed rest) (es : List Entry) (first : Bool)
    (seen : List String) (st : σ) {a : Bytes} (blank : Blank a) (fuel : Nat)
    (enough : (laidOut first es).length < fuel) :
    (r.through seen st es).Tells rest (r.members fuel first seen st (a ++ (laidOut first es ++ rest))) := by
  obtain ⟨fuel, rfl⟩ := Nat.exists_eq_succ_of_ne_zero (Nat.ne_of_gt (Nat.zero_lt_of_lt enough))
  induction es generalizing first seen st a fuel with
  | nil =>
    have ends : moreMembers first (a ++ (laidOut first [] ++ rest)) =
        .done false (Bracket.object.closeMark :: rest) := more_last (f := .object) blank first rest
    simp only [Record.through, Passage.Tells, Record.members, ends]
  | cons e es ih =>
    have start := moreMembers_entry blank first e es rest
    have follows := laidOut_follows e.after_blank es rest
    have shorter := length_laidOut first e es
    have others (seen : List String) (st : σ) : (r.through seen st es).Tells rest
        (r.members fuel false seen st (e.after ++ (laidOut false es ++ rest))) := by
      obtain ⟨fuel, rfl⟩ := Nat.exists_eq_succ_of_ne_zero (n := fuel) (by omega)
      exact ih false seen st e.after_blank fuel (by omega)
    cases key : e.key with
    | error fault =>
      simp only [Record.through, key]
      exact members_unnamed e.name_text key e.afterName_blank start fuel seen st
    | ok name =>
      rw [members_named e.name_text key e.afterName_blank e.beforeValue_blank e.value_written follows start]
      simp only [Record.through, key]
      cases known : r.fields.find? (·.name = name) with
      | none => exact others seen st
      | some field =>
        dsimp only
        split
        · exact ⟨_, rfl⟩
        have settles := orderly.settles field (List.mem_of_find?_eq_some known) st _ _ e.beforeValue_blank
          e.value_written
        rcases settles.alone with ⟨st', alone, h⟩ | ⟨st', b, left, alone, astray, h⟩ | ⟨fault, left, alone, h⟩
        · simp only [Entry.content, alone, h _ follows]
          exact others _ st'
        · simp only [Entry.content, alone, h _ follows]
          refine orderly.lost_incomplete (astray.lost ?_ fun blank => laidOut_not_blank false es fun b hb => ?_)
          · exact (e.after_blank.scan _).trans ((laidOut_closed false es).append closed)
          · exact blank b (List.mem_append_right _ (List.mem_append_left _ hb))
        · simp only [Entry.content, alone, h _ follows]
          exact ⟨_, rfl⟩

theorem skipBlank_eq_nil {bs : Bytes} : skipBlank bs = [] ↔ Blank bs := List.dropWhile_eq_nil_iff

theorem closeObject_eq_done {bs rest : Bytes} (closed : closeObject bs = .done () rest) :
    skipBlank bs = Bracket.object.closeMark :: rest := by
  unfold closeObject at closed
  split at closed
  case h_1 => cases closed
  case h_2 b more first =>
    obtain ⟨rfl, same⟩ := Outcome.of_ite closed
    cases same
    exact first

theorem read_objectOf {lead : Bytes} (before : Blank lead) (es : List Entry) (trail : Bytes) :
    r.read (objectOf lead es trail) =
      ((r.members ((laidOut true es ++ trail).length + 1) true [] r.start >>=
        fun st => Reader.ofExcept (r.finish st)) (laidOut true es ++ trail)).closing closeObject := by
  rw [objectOf, Record.read, onFirst, skipBlank_solid before isBlank_marks.2.2.2.1]
  rfl

theorem readAll_objectOf (orderly : r.Orderly) {lead trail : Bytes} (before : Blank lead) (after : Blank trail)
    (es : List Entry) :
    match r.through [] r.start es with
    | .ends st => readAll r.read (objectOf lead es trail) = r.finish st
    | .fails e => readAll r.read (objectOf lead es trail) = .error e
    | .lost => ∃ e, readAll r.read (objectOf lead es trail) = .error e := by
  have enough : (laidOut true es).length < (laidOut true es ++ trail).length + 1 := by
    rw [List.length_append]
    omega
  have closed : Closed trail := by
    have scanned := after.scan []
    rwa [List.append_nil] at scanned
  have tells := members_through orderly closed es true [] r.start .nil _ enough
  rw [List.nil_append] at tells
  simp only [readAll, read_objectOf before, Reader.bind_apply]
  cases passed : r.through [] r.start es with
  | ends st =>
    rw [passed] at tells
    simp only [show r.members _ _ _ _ _ = _ from tells]
    cases r.finish st with
    | error e => rfl
    | ok a =>
      simp only [Reader.ofExcept, Reader.pure, Outcome.closing, closeObject_closeMark,
        skipBlank_eq_nil.mpr after, if_true]
  | fails e =>
    rw [passed] at tells
    obtain ⟨left, failed⟩ := tells
    simp only [failed, Outcome.closing]
  | lost =>
    rw [passed] at tells
    cases content :
        r.members ((laidOut true es ++ trail).length + 1) true [] r.start (laidOut true es ++ trail) with
    | failed e left => exact ⟨e, rfl⟩
    | done st rest =>
      cases finished : r.finish st with
      | error e => exact ⟨e, by simp only [finished]; rfl⟩
      | ok a =>
        simp only [finished, Reader.ofExcept, Reader.pure, Outcome.closing]
        cases closes : closeObject rest with
        | failed e left => exact ⟨e, rfl⟩
        | done _ rest' =>
          -- an end of the object with nothing after it is what a lost reader does not come to
          have more : skipBlank rest' ≠ [] := fun blank => by
            rw [content] at tells
            exact tells ⟨rest', closeObject_eq_done closes, skipBlank_eq_nil.mp blank⟩
          exact ⟨.trailingCharacters, if_neg more⟩

end Reading

section Insertion

variable {σ α : Type} {r : Record σ α} {name : String} {new : Entry} {pre post es : List Entry} {seen : List String}
  {st : σ}

/-- A member that the record does not know makes no difference, wherever it stands. -/
theorem through_unknown (named : new.key = .ok name) (unknown : r.fields.find? (·.name = name) = none) :
    r.through seen st (pre ++ new :: post) = r.through seen st (pre ++ post) := by
  induction pre generalizing seen st with
  | nil => simp only [List.nil_append, Record.through, named, unknown]
  | cons e pre ih => simp only [List.cons_append, Record.through, ih]

theorem through_seen {seen' : List String} (others : ∀ e ∈ es, e.key ≠ .ok name)
    (same : ∀ n, n ≠ name → (n ∈ seen ↔ n ∈ seen')) : r.through seen st es = r.through seen' st es := by
  induction es generalizing seen seen' st with
  | nil => rfl
  | cons e es ih =>
    obtain ⟨other, others⟩ := List.forall_mem_cons.mp others
    cases key : e.key with
    | error fault => simp only [Record.through, key]
    | ok n =>
      have distinct : n ≠ name := fun equal => other (equal ▸ key)
      have next : ∀ m, m ≠ name → (m ∈ n :: seen ↔ m ∈ n :: seen') := fun m hm => by
        simp only [List.mem_cons, same m hm]
      simp only [Record.through, key, same n distinct, ih others same, ih others next]

theorem through_passed {field : Member σ} (named : new.key = .ok name)
    (known : r.fields.find? (·.name = name) = some field) (passes : ∀ st, field.read st new.content = .done st [])
    (others : ∀ e ∈ pre ++ post, e.key ≠ .ok name) (fresh : name ∉ seen) :
    r.through seen st (pre ++ new :: post) = r.through seen st (pre ++ post) := by
  induction pre generalizing seen st with
  | nil =>
    simp only [List.nil_append, Record.through, named, known, if_neg fresh, passes]
    refine through_seen others fun n hn => ?_
    simp only [List.mem_cons, hn, false_or]
  | cons e pre ih =>
    obtain ⟨other, others⟩ := List.forall_mem_cons.mp others
    cases key : e.key with
    | error fault => simp only [List.cons_append, Record.through, key]
    | ok n =>
      have distinct : name ≠ n := fun equal => other (equal ▸ key)
      have fresh' : name ∉ n :: seen := List.not_mem_cons_of_ne_of_not_mem distinct fresh
      simp only [List.cons_append, Record.through, key, ih others fresh, ih others fresh']

theorem through_ends {st' : σ} {e : Entry} {field : Member σ} (ends : r.through seen st es = .ends st')
    (member : e ∈ es) (named : e.key = .ok name) (known : r.fields.find? (·.name = name) = some field) :
    ∃ before after, field.read before e.content = .done after [] := by
  induction es generalizing seen st with
  | nil => cases member
  | cons e' es ih =>
    rw [Record.through] at ends
    rcases List.mem_cons.mp member with rfl | member
    · simp only [named, known] at ends
      split at ends
      · cases ends
      split at ends
      · cases ends
      · exact ⟨_, _, by assumption⟩
      · cases ends
    · split at ends
      · cases ends
      split at ends
      · exact ih ends member
      split at ends
      · cases ends
      split at ends
      · cases ends
      · exact ih ends member
      · cases ends

/-- A record whose members stop at the first fault is never lost. -/
theorem through_ne_lost
    (halts : ∀ field ∈ r.fields, ∀ st a v, Blank a → Written .value v → Halts (field.read st) (a ++ v)) :
    r.through seen st es ≠ .lost := by
  induction es generalizing seen st with
  | nil => nofun
  | cons e es ih =>
    rw [Record.through]
    split
    · nofun
    split
    · exact ih
    case h_2 field known =>
      split
      · nofun
      split
      · nofun
      · exact ih
      case h_3 st' b left read =>
        have value := (halts field (List.mem_of_find?_eq_some known) st _ _ e.beforeValue_blank
          e.value_written).result follows_nil
        rw [List.append_nil, ← Entry.content, read] at value
        cases value

end Insertion

end PushGateway.Json
