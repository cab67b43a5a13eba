import PushGateway.Json.Expect
import PushGateway.Proofs.Json.Quote

namespace PushGateway.Json

def membersText : Bool → List (String × Bytes) → Bytes
  | _, [] => [Bracket.object.closeMark]
  | first, (name, value) :: ms =>
    (if first then [] else [comma]) ++ quote name ++ colon :: (value ++ membersText false ms)

def objectText (ms : List (String × Bytes)) : Bytes := Bracket.object.openMark :: membersText true ms

section Readers

variable {b : UInt8} {rest : Bytes}

theorem skipBlank_cons (solid : isBlank b = false) : skipBlank (b :: rest) = b :: rest := by
  simp only [skipBlank, List.dropWhile_cons, solid, Bool.false_eq_true, if_false]

theorem isBlank_marks : isBlank quotationMark = false ∧ isBlank comma = false ∧ isBlank colon = false ∧
    isBlank Bracket.object.openMark = false ∧ isBlank Bracket.object.closeMark = false := by decide

theorem quotationMark_ne : quotationMark ≠ 'n'.toUInt8 ∧ quotationMark ≠ 't'.toUInt8 ∧
    quotationMark ≠ 'f'.toUInt8 ∧ quotationMark ≠ minus ∧ isDigit quotationMark = false ∧
    quotationMark ≠ Bracket.object.openMark ∧ quotationMark ≠ Bracket.object.closeMark := by decide

theorem onFirst_cons {α : Type} (f : UInt8 → Reader α) (solid : isBlank b = false) :
    onFirst f (b :: rest) = f b (b :: rest) := by
  simp only [onFirst, skipBlank_cons solid]

theorem text_quote (expected s : String) : text expected (quote s ++ rest) = .done s rest := by
  rw [quote_eq, List.cons_append, text, onFirst_cons _ isBlank_marks.1, if_pos rfl]
  exact readText_quoteTail s rest

theorem optional_quote (expected s : String) :
    optional (text expected) (quote s ++ rest) = .done (some s) rest := by
  have read : text expected (quote s ++ rest) = .done s rest := text_quote expected s
  rw [quote_eq, List.cons_append] at read ⊢
  simp only [optional, skipBlank_cons isBlank_marks.1, quotationMark_ne, if_false, read]
  rfl

theorem variant_quote {α : Type} (known : List (String × α)) {name : String} {a : α}
    (listed : known.lookup name = some a) : variant known (quote name ++ rest) = .done a rest := by
  have read : text "variant identifier" (quote name ++ rest) = .done name rest := text_quote _ name
  rw [quote_eq, List.cons_append] at read ⊢
  simp only [variant, onFirst_cons _ isBlank_marks.1, quotationMark_ne, if_false, if_true,
    Reader.bind_apply, read, listed]
  rfl

theorem skipValue_quote (s : String) : skipValue (quote s ++ rest) = .done () rest := by
  have head : skipHead (quote s ++ rest) = .done none rest := by
    rw [quote_eq, List.cons_append]
    simp only [skipHead, skipBlank_cons isBlank_marks.1, quotationMark_ne, Bool.false_eq_true, if_false,
      if_true, skipText_quoteTail]
    rfl
  simp only [skipValue, skipWithin, head, closeBrackets]

theorem readColon_colon : readColon (colon :: rest) = .done () rest := by
  simp only [readColon, skipBlank_cons isBlank_marks.2.2.1, if_true]

theorem closeObject_closeMark : closeObject (Bracket.object.closeMark :: rest) = .done () rest := by
  simp only [closeObject, skipBlank_cons isBlank_marks.2.2.2.2, if_true]

theorem moreMembers_member (first : Bool) (name : String) (value : Bytes) (ms : List (String × Bytes)) :
    moreMembers first (membersText first ((name, value) :: ms) ++ rest) =
      .done true (quoteTail name ++ colon :: (value ++ (membersText false ms ++ rest))) := by
  have written : quote name ++ colon :: (value ++ membersText false ms) ++ rest =
      quotationMark :: (quoteTail name ++ colon :: (value ++ (membersText false ms ++ rest))) := by
    simp only [quote_eq, List.cons_append, List.append_assoc]
  cases first with
  | true =>
    simp only [membersText, if_true, List.nil_append, written]
    simp only [moreMembers, skipBlank_cons isBlank_marks.1, quotationMark_ne, if_false, if_true]
  | false =>
    simp only [membersText, Bool.false_eq_true, if_false, List.cons_append, List.nil_append, written]
    simp only [moreMembers, skipBlank_cons isBlank_marks.1, skipBlank_cons isBlank_marks.2.1,
      show comma ≠ Bracket.object.closeMark from by decide, Bool.false_eq_true, if_false, if_true]

theorem moreMembers_close (first : Bool) :
    moreMembers first (membersText first [] ++ rest) = .done false (Bracket.object.closeMark :: rest) := by
  simp only [membersText, List.singleton_append, moreMembers, skipBlank_cons isBlank_marks.2.2.2.2, if_true]

end Readers

variable {σ α : Type} {r : Record σ α}

/-- Reading the members takes the state from the first to the second; the names read before are `seen`. -/
inductive Accepts (r : Record σ α) : List String → σ → List (String × Bytes) → σ → Prop where
  | done {seen : List String} {st : σ} : Accepts r seen st [] st
  | known {seen : List String} {st st' st'' : σ} {name : String} {value : Bytes}
      {ms : List (String × Bytes)} {field : Member σ} :
      r.fields.find? (·.name = name) = some field → name ∉ seen →
      (∀ rest, field.read st (value ++ rest) = .done st' rest) →
      Accepts r (name :: seen) st' ms st'' → Accepts r seen st ((name, value) :: ms) st''
  | unknown {seen : List String} {st st' : σ} {name : String} {value : Bytes}
      {ms : List (String × Bytes)} :
      r.fields.find? (·.name = name) = none →
      (∀ rest, skipValue (value ++ rest) = .done () rest) →
      Accepts r seen st ms st' → Accepts r seen st ((name, value) :: ms) st'

theorem members_accepted {seen : List String} {st st' : σ} {ms : List (String × Bytes)}
    (accepted : Accepts r seen st ms st') (fuel : Nat) (enough : ms.length < fuel) (first : Bool)
    (rest : Bytes) :
    r.members fuel first seen st (membersText first ms ++ rest) =
      .done st' (Bracket.object.closeMark :: rest) := by
  -- each member takes one unit of fuel, and the end of the object one more
  induction accepted generalizing fuel first with
  | done =>
    cases fuel with
    | zero => cases enough
    | succ fuel => simp only [Record.members, moreMembers_close]
  | known found fresh read _ ih =>
    cases fuel with
    | zero => cases enough
    | succ fuel =>
      have next := ih fuel (Nat.lt_of_succ_lt_succ enough) false
      simp only [Record.members, moreMembers_member, readText_quoteTail, found, if_neg fresh,
        Reader.bind_apply, readColon_colon, read, next]
  | unknown missing skipped _ ih =>
    cases fuel with
    | zero => cases enough
    | succ fuel =>
      have next := ih fuel (Nat.lt_of_succ_lt_succ enough) false
      simp only [Record.members, moreMembers_member, readText_quoteTail, missing, Reader.bind_apply,
        readColon_colon, skipped, next]

theorem length_le_membersText (first : Bool) (ms : List (String × Bytes)) :
    ms.length ≤ (membersText first ms).length := by
  induction ms generalizing first with
  | nil => exact Nat.zero_le _
  | cons m ms ih =>
    have tail := ih false
    simp only [membersText, List.length_append, List.length_cons]
    omega

theorem read_objectText {ms : List (String × Bytes)} {st : σ} {a : α}
    (accepted : Accepts r [] r.start ms st) (finished : r.finish st = .ok a) (rest : Bytes) :
    r.read (objectText ms ++ rest) = .done a rest := by
  have bound := length_le_membersText true ms
  have content := members_accepted accepted ((membersText true ms ++ rest).length + 1)
    (by rw [List.length_append]; omega) true rest
  rw [objectText, List.cons_append, Record.read, onFirst_cons _ isBlank_marks.2.2.2.1,
    if_neg (show Bracket.object.openMark ≠ Bracket.list.openMark from by decide), if_pos rfl]
  simp only [afterFirst, List.tail_cons, Reader.bind_apply, content, finished, Reader.ofExcept,
    Reader.pure, Outcome.closing, closeObject_closeMark]

theorem readAll_objectText {ms : List (String × Bytes)} {st : σ} {a : α}
    (accepted : Accepts r [] r.start ms st) (finished : r.finish st = .ok a) :
    readAll r.read (objectText ms) = .ok a := by
  have read := read_objectText accepted finished []
  rw [List.append_nil] at read
  simp only [readAll, read]
  rfl

end PushGateway.Json
