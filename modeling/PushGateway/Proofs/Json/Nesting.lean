import PushGateway.Json.Tree
import PushGateway.Proofs.Json.Halting

namespace PushGateway.Json

section Sequences

variable {α : Type} {f : Bracket} {a i t w : Bytes} {one : Reader α}

def more : Bracket → Bool → Reader Bool
  | .list => moreElements
  | .object => moreMembers

/-- What is left of an item once it is known to be there: of a member, what follows its first quotation mark. -/
def entered : Bracket → Bytes → Bytes
  | .list, i => i
  | .object, i => i.tail

def sequence (f : Bracket) (one : Reader α) : Nat → Bool → Reader (List α)
  | 0, _ => Reader.pure []
  | fuel + 1, first => fun bs =>
    match more f first bs with
    | .failed e rest => .failed e rest
    | .done false rest => .done [] rest
    | .done true rest =>
      match one rest with
      | .failed e rest => .failed e rest
      | .done a rest => (sequence f one fuel false rest).map (a :: ·)

theorem elements_eq_sequence (one : Reader α) (fuel : Nat) (first : Bool) :
    elements one fuel first = sequence .list one fuel first := by
  induction fuel generalizing first with
  | zero => rfl
  | succ fuel ih =>
    funext bs
    rw [elements, sequence]
    simp only [ih]
    rfl

def entry (value : Reader Tree) : Reader (String × Tree) :=
  readText >>= fun name => readColon >>= fun _ => value >>= fun v => pure (name, v)

theorem entries_eq_sequence (value : Reader Tree) (fuel : Nat) (first : Bool) :
    Tree.entries value fuel first = sequence .object (entry value) fuel first := by
  induction fuel generalizing first with
  | zero => rfl
  | succ fuel ih =>
    funext bs
    rw [Tree.entries, sequence]
    simp only [ih, more, ← entry.eq_def]
    cases moreMembers first bs with
    | failed e rest => rfl
    | done goes rest =>
      cases goes with
      | false => rfl
      | true => cases read : entry value rest <;> simp only [read]

theorem more_last (blank : Blank a) (first : Bool) (rest : Bytes) :
    more f first (a ++ f.closeMark :: rest) = .done false (f.closeMark :: rest) := by
  cases f <;> simp only [more, moreElements, moreMembers, skipBlank_solid blank (closeMark_solid _), if_true]

theorem more_first (item : Written (.item f) i) (blank : Blank a) (rest : Bytes) :
    more f true (a ++ (i ++ rest)) = .done true (entered f i ++ rest) := by
  obtain ⟨b, i, rfl, solid, mark⟩ := item.item_head
  have other : b ≠ f.closeMark := fun same => mark (mem_separators.mpr (.inr ⟨f, same⟩))
  cases f with
  | list =>
    simp only [more, moreElements, List.cons_append, skipBlank_solid blank solid, if_neg other, if_true, entered]
  | object =>
    cases item
    simp only [more, moreMembers, List.cons_append, skipBlank_solid blank solid, if_neg other, if_true, entered,
      List.tail_cons]

theorem more_next (item : Written (.item f) i) {a' : Bytes} (blank : Blank a) (blank' : Blank a') (rest : Bytes) :
    more f false (a ++ comma :: (a' ++ (i ++ rest))) = .done true (entered f i ++ rest) := by
  obtain ⟨b, i, rfl, solid, mark⟩ := item.item_head
  have other : b ≠ f.closeMark := fun same => mark (mem_separators.mpr (.inr ⟨f, same⟩))
  cases f with
  | list =>
    simp only [more, moreElements, List.cons_append, skipBlank_solid blank isBlank_marks.2.1,
      skipBlank_solid blank' solid, if_neg other, if_true, entered, Bool.false_eq_true, if_false,
      show comma ≠ Bracket.list.closeMark from by decide]
  | object =>
    cases item
    simp only [more, moreMembers, List.cons_append, skipBlank_solid blank isBlank_marks.2.1,
      skipBlank_solid blank' solid, if_neg other, if_true, entered, Bool.false_eq_true, if_false,
      show comma ≠ Bracket.object.closeMark from by decide, List.tail_cons]

/-- Reading the content of a bracket, the rounds sufficing, comes to the closing mark or fails where the bracket
can be told to be broken. -/
inductive Fills (f : Bracket) (r : Nat → Reader α) (w : Bytes) : Prop where
  | read (a : α) : (∀ fuel rest, w.length < fuel → r fuel (w ++ rest) = .done a (f.closeMark :: rest)) → Fills f r w
  | failed (e : Error) (left : Bytes) : Broken f left →
      (∀ fuel rest, w.length < fuel → r fuel (w ++ rest) = .failed e (left ++ rest)) → Fills f r w

/-- One item and what is left of the sequence after it. -/
theorem Fills.item {first : Bool} (halts : Halts one (entered f i)) (tail : Written (.tail f) t)
    (others : Fills f (fun fuel => sequence f one fuel false) t) (longer : t.length < w.length)
    (more : ∀ rest, more f first (w ++ rest) = .done true (entered f i ++ (t ++ rest))) :
    Fills f (fun fuel => sequence f one fuel first) w := by
  have reached : ∀ fuel rest,
      sequence f one (fuel + 1) first (w ++ rest) = match one (entered f i ++ (t ++ rest)) with
      | .failed e rest => .failed e rest
      | .done a rest => (sequence f one fuel false rest).map (a :: ·) := fun fuel rest => by
    simp only [sequence, more rest]
  cases halts with
  | ended e h =>
    refine .failed e t (.inl tail) fun fuel rest enough => ?_
    obtain ⟨fuel, rfl⟩ := Nat.exists_eq_succ_of_ne_zero (Nat.ne_of_gt (Nat.zero_lt_of_lt enough))
    rw [reached, h _ (tail.follows rest)]
  | within e left astray h =>
    refine .failed e (left ++ t) (.inr (astray.closed_append tail.closed)) fun fuel rest enough => ?_
    obtain ⟨fuel, rfl⟩ := Nat.exists_eq_succ_of_ne_zero (Nat.ne_of_gt (Nat.zero_lt_of_lt enough))
    rw [reached, h _ (tail.follows rest), List.append_assoc]
  | read a h =>
    cases others with
    | read as h' =>
      refine .read (a :: as) fun fuel rest enough => ?_
      obtain ⟨fuel, rfl⟩ := Nat.exists_eq_succ_of_ne_zero (Nat.ne_of_gt (Nat.zero_lt_of_lt enough))
      simp only [reached, h _ (tail.follows rest), h' fuel rest (by omega)]
      rfl
    | failed e left broken h' =>
      refine .failed e left broken fun fuel rest enough => ?_
      obtain ⟨fuel, rfl⟩ := Nat.exists_eq_succ_of_ne_zero (Nat.ne_of_gt (Nat.zero_lt_of_lt enough))
      simp only [reached, h _ (tail.follows rest), h' fuel rest (by omega)]
      rfl

theorem sequence_last (blank : Blank a) (first : Bool) :
    Fills f (fun fuel => sequence f one fuel first) (a ++ [f.closeMark]) := by
  refine .read [] fun fuel rest enough => ?_
  obtain ⟨fuel, rfl⟩ := Nat.exists_eq_succ_of_ne_zero (Nat.ne_of_gt (Nat.zero_lt_of_lt enough))
  rw [List.append_assoc, List.singleton_append]
  simp only [sequence, more_last blank]

theorem sequence_fills (each : ∀ i, Written (.item f) i → Halts one (entered f i)) {form : Form}
    (written : Written form w) : match form with
      | .items g => g = f → ∃ a i t, w = a ++ (i ++ t) ∧ Blank a ∧ Written (.item f) i ∧ Written (.tail f) t ∧
          Fills f (fun fuel => sequence f one fuel false) t
      | .tail g => g = f → Fills f (fun fuel => sequence f one fuel false) w
      | _ => True := by
  induction written with
  | @items g a i t blank item tail _ ih =>
    rintro rfl
    exact ⟨a, i, t, rfl, blank, item, tail, ih rfl⟩
  | last blank =>
    rintro rfl
    exact sequence_last blank false
  | @next g a w blank _ ih =>
    rintro rfl
    obtain ⟨a', i, t, rfl, blank', item, tail, others⟩ := ih rfl
    refine .item (each i item) tail others ?_ fun rest => ?_
    · simp only [List.length_append, List.length_cons]
      omega
    · simpa only [List.append_assoc, List.cons_append] using more_next item blank blank' (t ++ rest)
  | _ => trivial

theorem items_fill (each : ∀ i, Written (.item f) i → Halts one (entered f i)) (items : Written (.items f) w) :
    Fills f (fun fuel => sequence f one fuel true) w := by
  obtain ⟨a, i, t, rfl, blank, item, tail, others⟩ := sequence_fills each items rfl
  refine .item (each i item) tail others ?_ fun rest => ?_
  · obtain ⟨b, i, rfl, -⟩ := item.item_head
    simp only [List.length_append, List.length_cons]
    omega
  · simpa only [List.append_assoc] using more_first item blank (t ++ rest)

theorem Fills.halts {r : Nat → Reader α} (fills : Fills f r w) :
    Halts (fun bs => (r (bs.length + 1) bs).closing (close f)) w := by
  have enough (rest : Bytes) : w.length < (w ++ rest).length + 1 := by
    rw [List.length_append]
    omega
  cases fills with
  | read a h =>
    refine .read a fun rest _ => ?_
    have closes : close f (f.closeMark :: rest) = .done () rest := close_closeMark .nil rest
    simp only [h _ rest (enough rest), Outcome.closing, closes]
  | failed e left broken h =>
    obtain ⟨left', place, stops⟩ := broken.closing
    have reached : ∀ rest, ((r ((w ++ rest).length + 1) (w ++ rest)).closing (close f)) =
        .failed e (left' ++ rest) := fun rest => by
      rw [h _ rest (enough rest), Outcome.closing, stops]
    rcases place with rfl | astray
    · exact .ended e fun rest _ => reached rest
    · exact .within e left' astray fun rest _ => reached rest

end Sequences

section Trees

theorem entry_halts {value : Reader Tree} (halts : ∀ a v, Blank a → Written .value v → Halts value (a ++ v))
    {i : Bytes} (item : Written (.item .object) i) : Halts (entry value) (entered .object i) := by
  cases item with
  | @member n b c v name blank blank' written =>
    have shown : Astray Closed (b ++ colon :: (c ++ v)) :=
      .stuck (skipBlank_solid blank (by decide)) (by decide)
    have closed : Closed (b ++ colon :: (c ++ v)) :=
      (blank.scan _).trans ((scan_plain (by decide) _).trans ((blank'.scan _).trans written.closed))
    have apart (rest : Bytes) : Follows (b ++ colon :: (c ++ v) ++ rest) := by
      rw [List.append_assoc]
      exact (follows_colon _).blank blank
    refine .bind name.halts (fun s => ?_) apart shown closed
    refine (halts c v blank' written).map (fun v => (s, v)) fun rest _ => ?_
    rw [List.append_assoc, List.cons_append, Reader.bind_apply, readColon_append blank]
    simp only [Reader.bind_apply]
    cases value (c ++ v ++ rest) <;> rfl

theorem limit_halts {f : Bracket} {w : Bytes} (written : Written .value (f.openMark :: w)) :
    Halts (Reader.fail .nestingLimit : Reader Tree) (f.openMark :: w) :=
  .within .nestingLimit _ (.value .nil written) fun _ _ => rfl

theorem Tree.list_halts {depth : Nat} {w : Bytes} (written : Written .value (Bracket.list.openMark :: w))
    (fills : Fills .list (fun fuel => sequence .list (Tree.read depth) fuel true) w) :
    Halts (if depth = 0 then Reader.fail .nestingLimit else afterFirst fun bs =>
      ((elements (Tree.read depth) (bs.length + 1) true bs).closing closeList).map Tree.list)
      (Bracket.list.openMark :: w) := by
  split
  · exact limit_halts written
  · simp only [elements_eq_sequence]
    exact fills.halts.map Tree.list fun rest _ => rfl

theorem Tree.object_halts {depth : Nat} {w : Bytes} (written : Written .value (Bracket.object.openMark :: w))
    (fills : Fills .object (fun fuel => sequence .object (entry (Tree.read depth)) fuel true) w) :
    Halts (if depth = 0 then Reader.fail .nestingLimit else afterFirst fun bs =>
      ((entries (Tree.read depth) (bs.length + 1) true bs).closing closeObject).map Tree.object)
      (Bracket.object.openMark :: w) := by
  split
  · exact limit_halts written
  · simp only [entries_eq_sequence]
    exact fills.halts.map Tree.object fun rest _ => rfl

theorem Tree.read_halts (depth : Nat) {a v : Bytes} (blank : Blank a) (written : Written .value v) :
    Halts (Tree.read depth) (a ++ v) := by
  induction depth generalizing a v with
  | zero => exact .within .nestingLimit (a ++ v) (.value blank written) fun rest _ => rfl
  | succ depth ih =>
    have element (i : Bytes) (item : Written (.item .list) i) : Halts (Tree.read depth) (entered .list i) := by
      cases item with
      | element value => exact ih (a := []) .nil value
    have member (i : Bytes) (item : Written (.item .object) i) :
        Halts (entry (Tree.read depth)) (entered .object i) :=
      entry_halts (fun a v blank value => ih blank value) item
    refine .onFirst written blank fun b t same => ?_
    cases written with
    | null =>
      cases same
      exact .read .null fun rest _ => rfl
    | yes =>
      cases same
      exact .read (.boolean true) fun rest _ => rfl
    | no =>
      cases same
      exact .read (.boolean false) fun rest _ => rfl
    | positive magnitude =>
      refine (magnitude.halts false).map Tree.number fun rest _ => ?_
      obtain ⟨c, _, same', digit⟩ := magnitude.head
      cases same.symm.trans same'
      simp only [isDigit_letter digit, digit, if_false, if_true, Reader.bind_apply]
      cases readNumber false (v ++ rest) <;> rfl
    | negative magnitude =>
      cases same
      refine (magnitude.halts true).map Tree.number fun rest _ => ?_
      change (afterFirst (readNumber true) >>= fun n => pure (Tree.number n)) (minus :: (t ++ rest)) = _
      simp only [Reader.bind_apply, afterFirst, List.tail_cons]
      cases readNumber true (t ++ rest) <;> rfl
    | text tail =>
      cases same
      refine tail.halts.map Tree.text fun rest _ => ?_
      change (afterFirst readText >>= fun s => pure (Tree.text s)) (quotationMark :: (t ++ rest)) = _
      simp only [Reader.bind_apply, afterFirst, List.tail_cons]
      cases readText (t ++ rest) <;> rfl
    | @empty f _ blank =>
      cases same
      cases f with
      | list => exact list_halts (.empty blank) (sequence_last blank true)
      | object => exact object_halts (.empty blank) (sequence_last blank true)
    | @filled f _ items =>
      cases same
      cases f with
      | list => exact list_halts (.filled items) (items_fill element items)
      | object => exact object_halts (.filled items) (items_fill member items)

end Trees

end PushGateway.Json
