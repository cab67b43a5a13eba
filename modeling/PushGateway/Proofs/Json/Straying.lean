import PushGateway.Proofs.Json.Nesting
/-!
Records whose members may leave the reader astray: it then never comes to the end of the record with nothing but
blanks after it.
-/

namespace PushGateway.Json

section Members

variable {σ α : Type} {r : Record σ α} {n b c v bs rest : Bytes} {first : Bool}

theorem Halts.result {β : Type} {reader : Reader β} {w : Bytes} (halts : Halts reader w) (follows : Follows rest) :
    match (reader w).result with
    | .ok a => reader (w ++ rest) = .done a rest
    | .error e => ∃ left, reader (w ++ rest) = .failed e left := by
  cases halts with
  | read a h =>
    have alone := h [] follows_nil
    rw [List.append_nil] at alone
    rw [alone]
    exact h rest follows
  | ended e h =>
    have alone := h [] follows_nil
    rw [List.append_nil] at alone
    rw [alone]
    exact ⟨rest, h rest follows⟩
  | within e left _ h =>
    have alone := h [] follows_nil
    rw [List.append_nil] at alone
    rw [alone]
    exact ⟨left ++ rest, h rest follows⟩

theorem follows_name (blank : Blank b) (rest : Bytes) : Follows (b ++ colon :: rest) :=
  (follows_colon rest).blank blank

theorem members_unnamed {e : Error} (name : TextTail n) (unread : (readText n).result = .error e) (blank : Blank b)
    (start : moreMembers first bs = .done true (n ++ (b ++ colon :: rest))) (fuel : Nat) (seen : List String)
    (st : σ) :
    ∃ left, r.members (fuel + 1) first seen st bs = .failed e left := by
  have read := name.halts.result (follows_name blank rest)
  rw [unread] at read
  obtain ⟨left, read⟩ := read
  exact ⟨left, by simp only [Record.members, start, read]⟩

theorem members_named {s : String} (name : TextTail n) (read : (readText n).result = .ok s) (blank : Blank b)
    (blank' : Blank c) (value : Written .value v) (follows : Follows rest)
    (start : moreMembers first bs = .done true (n ++ (b ++ colon :: (c ++ (v ++ rest))))) (fuel : Nat)
    (seen : List String) (st : σ) :
    r.members (fuel + 1) first seen st bs =
      match r.fields.find? (·.name = s) with
      | none => r.members fuel false seen st rest
      | some field =>
        if s ∈ seen then .failed (.duplicateField s) (b ++ colon :: (c ++ (v ++ rest)))
        else match field.read st (c ++ v ++ rest) with
          | .failed e left => .failed e left
          | .done st' left => r.members fuel false (s :: seen) st' left := by
  have named := name.halts.result (follows_name blank (c ++ (v ++ rest)))
  rw [read] at named
  simp only [Record.members, start, named]
  cases r.fields.find? (·.name = s) with
  | none => simp only [Reader.bind_apply, readColon_append blank, value.skip blank' follows]
  | some field =>
    have value : c ++ v ++ rest = c ++ (v ++ rest) := List.append_assoc c v rest
    cases reading : field.read st (c ++ (v ++ rest)) <;>
      simp only [Reader.bind_apply, readColon_append blank, value, reading]

end Members

section Lost

/-- The rest of a text in which the reader of an object is astray: something follows the objects inside. -/
def Lost (bs : Bytes) : Prop := Astray (fun u => Closed u ∧ ¬ Blank u) bs

def Over (bs : Bytes) : Prop := ∃ rest, skipBlank bs = Bracket.object.closeMark :: rest ∧ Blank rest

/-- Members have been read to the end of an object, which is the last thing in its text. -/
def Completes {σ : Type} : Outcome σ → Prop
  | .done _ rest => Over rest
  | .failed _ _ => False

variable {bs left t u : Bytes}

theorem Astray.lost (astray : Astray Closed left) (closed : Closed t) (more : ¬ Blank t) : Lost (left ++ t) :=
  astray.append closed fun _ inner =>
    ⟨inner.append closed, fun blank => more fun b hb => blank b (List.mem_append_right _ hb)⟩

theorem not_scan_structural {w : Bytes} (plain : ∀ b ∈ w, structural b = true) : ¬ Scan .inside w .outside [] := by
  induction w with
  | nil => nofun
  | cons b w ih =>
    obtain ⟨known, others⟩ := List.forall_mem_cons.mp plain
    exact fun scan => ih others (inside_structural scan known)

theorem not_over_inside (scan : Scan .inside bs .outside []) : ¬ Over bs := by
  rintro ⟨rest, first, blank⟩
  obtain ⟨b, t, first', scan⟩ := skipBlank_inside scan
  cases first.symm.trans first'
  refine not_scan_structural (List.forall_mem_cons.mpr ⟨by decide, fun b hb => ?_⟩) scan
  exact structural_blank (blank b hb)

theorem Lost.not_over (lost : Lost bs) : ¬ Over bs := by
  rintro ⟨rest, ended, after⟩
  cases lost with
  | inside scan => exact not_over_inside scan ⟨rest, ended, after⟩
  | stuck first mark =>
    cases ended.symm.trans first
    exact mark (by decide)
  | nested blank _ _ => cases ended.symm.trans (skipBlank_solid blank isBlank_marks.2.1)

end Lost

section Orderly

variable {σ α : Type} {r : Record σ α}

/-- A reader that may take a value without coming to its end. -/
inductive Settles {β : Type} (reader : Reader β) (w : Bytes) : Prop where
  | read (a : β) (left : Bytes) : left = [] ∨ Astray Closed left →
      (∀ rest, Follows rest → reader (w ++ rest) = .done a (left ++ rest)) → Settles reader w
  | failed (e : Error) (left : Bytes) : (∀ rest, Follows rest → reader (w ++ rest) = .failed e (left ++ rest)) →
      Settles reader w

theorem Halts.settles {β : Type} {reader : Reader β} {w : Bytes} (halts : Halts reader w) : Settles reader w := by
  cases halts with
  | read a h => exact .read a [] (.inl rfl) h
  | ended e h => exact .failed e [] h
  | within e left _ h => exact .failed e left h

theorem Halts.tolerate {β : Type} {reader : Reader β} {w : Bytes} (halts : Halts reader w) :
    Settles (Reader.tolerate reader) w := by
  cases halts with
  | read a h => exact .read () [] (.inl rfl) fun rest follows => by rw [Reader.tolerate_apply, h rest follows]; rfl
  | ended e h => exact .read () [] (.inl rfl) fun rest follows => by rw [Reader.tolerate_apply, h rest follows]; rfl
  | within e left astray h =>
    exact .read () left (.inr astray) fun rest follows => by rw [Reader.tolerate_apply, h rest follows]; rfl

/-- What is known of the members of a record: their names are no words of JSON's own, and each of them is left at
the end of its value or astray. -/
structure Record.Orderly (r : Record σ α) : Prop where
  named : ∀ field ∈ r.fields, ∃ b ∈ Utf8.encode field.name, structural b = false
  settles : ∀ field ∈ r.fields, ∀ st a v, Blank a → Written .value v → Settles (field.read st) (a ++ v)

namespace Record.Orderly

variable {fuel : Nat} {seen : List String} {st : σ} {t u bs : Bytes}

theorem find?_eq_none (orderly : r.Orderly) {name : String} (plain : ∀ b ∈ Utf8.encode name, structural b = true) :
    r.fields.find? (·.name = name) = none := by
  refine List.find?_eq_none.mpr fun field member same => ?_
  obtain ⟨b, octet, other⟩ := orderly.named field member
  rw [of_decide_eq_true same] at octet
  exact absurd (plain b octet) (by rw [other]; decide)

theorem not_over_more {a : Bytes} (blank : Blank a) (more : ¬ Blank u) :
    ¬ Over (a ++ Bracket.object.closeMark :: u) := by
  rintro ⟨rest, ended, after⟩
  cases ended.symm.trans (skipBlank_solid blank isBlank_marks.2.2.2.2)
  exact more after

theorem tail_incomplete (below : ∀ seen st bs, Lost bs → ¬ Completes (r.members fuel false seen st bs))
    (tail : Written (.tail .object) t) (closed : Closed u) (more : ¬ Blank u) :
    ¬ Completes (r.members fuel false seen st (t ++ u)) := by
  cases tail with
  | @last _ a blank =>
    rw [List.append_assoc, List.singleton_append]
    cases fuel with
    | zero => exact not_over_more blank more
    | succ fuel =>
      have ends : moreMembers false (a ++ Bracket.object.closeMark :: u) =
          .done false (Bracket.object.closeMark :: u) := more_last (f := .object) blank false u
      simp only [Record.members, ends]
      exact not_over_more .nil more
  | next blank items =>
    rw [List.append_assoc, List.cons_append]
    exact below seen st _ (.nested blank items ⟨closed, more⟩)

theorem inside_incomplete (orderly : r.Orderly)
    (below : ∀ seen st bs, Lost bs → ¬ Completes (r.members fuel false seen st bs))
    (scan : Scan .inside bs .outside []) : ¬ Completes (r.members (fuel + 1) false seen st bs) := by
  -- each piece that is read outside of strings is inside of them in truth, and the other way round
  have outward {p bs' rest : _} (read : Scan .outside bs' p rest) (scan : Scan .inside bs' .outside []) :
      ∃ q, Opposite p q ∧ Scan q rest .outside [] := read.opposite .within scan
  simp only [Record.members]
  cases start : moreMembers false bs with
  | failed e rest => exact id
  | done goes rest =>
    cases goes with
    | false =>
      obtain ⟨_, ⟨⟩, scan⟩ := outward (moreMembers_end start) scan
      exact not_over_inside scan
    | true =>
      obtain ⟨_, ⟨⟩, scan⟩ := outward (moreMembers_scan start) scan
      dsimp only
      cases name : readText rest with
      | failed e rest => exact id
      | done s rest' =>
        have octets := readText_octets name
        have unknown := orderly.find?_eq_none (textOctets_structural octets scan)
        obtain ⟨_, ⟨⟩, scan⟩ := (textOctets_scan octets).opposite .without scan
        simp only [unknown]
        cases passed : (readColon >>= fun _ => skipValue) rest' with
        | failed e rest => exact id
        | done _ rest'' =>
          obtain ⟨_, mid, colon, value⟩ := Reader.bind_eq_done.mp passed
          obtain ⟨_, ⟨⟩, scan⟩ := outward ((readColon_scan colon).trans (skipValue_scan value)) scan
          exact below seen st rest'' (.inside scan)

/-- A known member of an inner object: its reader comes to the end of the value, or is astray itself. -/
theorem settled_incomplete {v : Bytes} {reader : Reader σ} (settles : Settles reader v)
    (below : ∀ seen st bs, Lost bs → ¬ Completes (r.members fuel false seen st bs))
    (tail : Written (.tail .object) t) (closed : Closed u) (more : ¬ Blank u) :
    ¬ Completes (match reader (v ++ (t ++ u)) with
      | .failed e left => .failed e left
      | .done st' left => r.members fuel false seen st' left) := by
  have follows := tail.follows u
  cases settles with
  | failed e left h =>
    rw [h _ follows]
    exact id
  | read st' left place h =>
    simp only [h _ follows]
    rcases place with rfl | astray
    · rw [List.nil_append]
      exact tail_incomplete below tail closed more
    · exact below _ _ _ (astray.lost (tail.closed.append closed) fun blank =>
        more fun b hb => blank b (List.mem_append_right _ hb))

theorem nested_incomplete (orderly : r.Orderly) {a w : Bytes}
    (below : ∀ seen st bs, Lost bs → ¬ Completes (r.members fuel false seen st bs))
    (blank : Blank a) (items : Written (.items .object) w) (closed : Closed u) (more : ¬ Blank u) :
    ¬ Completes (r.members (fuel + 1) false seen st (a ++ comma :: (w ++ u))) := by
  cases items with
  | @items _ a' i t blank' item tail =>
    cases item with
    | @member n b c v name blankB blankC value =>
      have next := more_next (.member name blankB blankC value) blank blank' (t ++ u)
      simp only [Json.more, entered, List.tail_cons, List.append_assoc, List.cons_append] at next ⊢
      cases read : (readText n).result with
      | error e =>
        obtain ⟨left, failed⟩ := members_unnamed (r := r) name read blankB next fuel seen st
        rw [failed]
        exact id
      | ok s =>
        rw [members_named name read blankB blankC value (tail.follows u) next]
        cases known : r.fields.find? (·.name = s) with
        | none => exact tail_incomplete below tail closed more
        | some field =>
          dsimp only
          split
          · exact id
          · have settles := orderly.settles field (List.mem_of_find?_eq_some known) st c v blankC value
            exact settled_incomplete settles below tail closed more

theorem lost_incomplete (orderly : r.Orderly) (lost : Lost bs) : ¬ Completes (r.members fuel false seen st bs) := by
  -- each member that is read leaves the reader astray or at the end of an inner object
  induction fuel generalizing seen st bs with
  | zero => exact lost.not_over
  | succ fuel ih =>
    have below : ∀ seen st bs, Lost bs → ¬ Completes (r.members fuel false seen st bs) := fun _ _ _ lost => ih lost
    cases lost with
    | @stuck _ _ b first mark =>
      have notComma : b ≠ comma := fun same => mark (mem_separators.mpr (.inl same))
      have notClose : b ≠ Bracket.object.closeMark := fun same => mark (mem_separators.mpr (.inr ⟨_, same⟩))
      simp only [Record.members, moreMembers, first, notComma, notClose, Bool.false_eq_true, if_false]
      exact id
    | inside scan => exact orderly.inside_incomplete below scan
    | nested blank items ending => exact orderly.nested_incomplete below blank items ending.1 ending.2

end Record.Orderly

end Orderly

end PushGateway.Json
