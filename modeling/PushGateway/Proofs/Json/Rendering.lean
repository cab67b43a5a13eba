import Mathlib.Data.List.Nodup
import PushGateway.Proofs.Json.Demands
/-!
Values as JSON may write them: objects with their members in any order and any spelling, with blanks and members of
other names anywhere among them.
-/

namespace PushGateway.Json

section Counts

def numeral (n : Nat) (ds : Bytes) : Nat := ds.foldl (fun n b => n * 10 + digitValue b) n

/-- A count of 64 bits in its digits, the first of which is zero only where it is the only one. -/
def CountValue (n : Nat) (v : Bytes) : Prop := Whole v ∧ numeral 0 v = n ∧ n ≤ Decimal.maxU64

variable {n : Nat} {s : Significand} {a ds v rest : Bytes}

theorem le_numeral (n : Nat) (ds : Bytes) : n ≤ numeral n ds := by
  induction ds generalizing n with
  | nil => exact Nat.le_refl n
  | cons b ds ih =>
    have more : n ≤ n * 10 + digitValue b := by omega
    exact more.trans (ih _)

theorem numeral_first (b : UInt8) (ds : Bytes) : numeral 0 (b :: ds) = numeral (digitValue b) ds := by
  rw [numeral, List.foldl_cons, Nat.zero_mul, Nat.zero_add]
  rfl

theorem foldl_push (small : numeral n ds ≤ Decimal.maxU64) (taken : Nat) :
    ∃ taken', ds.foldl Significand.push ⟨n, taken, 0⟩ = ⟨numeral n ds, taken', 0⟩ := by
  induction ds generalizing n taken with
  | nil => exact ⟨taken, rfl⟩
  | cons b ds ih =>
    have fits : n * 10 + digitValue b ≤ Decimal.maxU64 := (le_numeral _ ds).trans small
    have step : Significand.push ⟨n, taken, 0⟩ b = ⟨n * 10 + digitValue b, taken + 1, 0⟩ := if_pos ⟨rfl, fits⟩
    rw [List.foldl_cons, step]
    exact ih small (taken + 1)

theorem readAfterWhole_integer (full : s.dropped = 0) (follows : Follows rest) :
    readAfterWhole false s rest = .done (.count s.value) rest := by
  cases rest with
  | nil => simp only [readAfterWhole, full, ne_eq, not_true_eq_false, if_false]; rfl
  | cons b rest =>
    obtain ⟨-, point, mark⟩ := follows b rfl
    simp only [readAfterWhole, if_neg point, mark, full, ne_eq, not_true_eq_false, Bool.false_eq_true, or_self,
      if_false]
    rfl

theorem Whole.head (whole : Whole v) : ∃ b t, v = b :: t ∧ isDigit b = true := by
  cases whole with
  | zero => exact ⟨_, _, rfl, by decide⟩
  | digits digit _ _ => exact ⟨_, _, rfl, digit⟩

theorem Whole.reads (whole : Whole v) (small : numeral 0 v ≤ Decimal.maxU64) :
    Reads (readNumber false) v (.count (numeral 0 v)) := by
  intro rest follows
  cases whole with
  | zero =>
    have ends := readAfterWhole_integer (s := ⟨0, 0, 0⟩) rfl follows
    rw [List.singleton_append, readNumber.eq_def]
    cases rest with
    | nil => exact ends
    | cons c rest =>
      simp only [if_true, (follows c rfl).1, Bool.false_eq_true, if_false]
      exact ends
  | @digits b ds digit nonzero digits =>
    rw [numeral_first] at small ⊢
    obtain ⟨taken, all⟩ := foldl_push small 1
    rw [List.cons_append, readNumber.eq_def]
    simp only [if_neg nonzero, digit, if_true, takeWhile_digits digits follows.undigit,
      dropWhile_digits digits follows.undigit, all]
    exact readAfterWhole_integer rfl follows

theorem CountValue.head (value : CountValue n v) : ∃ b t, v = b :: t ∧ isDigit b = true := value.1.head

theorem CountValue.reads (value : CountValue n v) (blank : Blank a) : Reads count (a ++ v) n := by
  obtain ⟨whole, rfl, small⟩ := value
  have number := whole.reads small
  obtain ⟨b, t, rfl, digit⟩ := whole.head
  intro rest follows
  have read : readNumber false (b :: (t ++ rest)) = .done (.count (numeral 0 (b :: t))) rest := number rest follows
  rw [List.append_assoc, count, onFirst, List.cons_append, skipBlank_solid blank (isBlank_of_isDigit digit)]
  simp only [if_neg (isDigit_letter digit).2.2.2.1, digit, if_true, Reader.bind_apply, read]
  rfl

end Counts

section Values

variable {α : Type} {P : α → Bytes → Prop} {r : Reader α} {s : String} {x : Option α} {xs : List α} {a v : Bytes}

def TextValue (s : String) (v : Bytes) : Prop := ∃ w, v = quotationMark :: w ∧ Spelling s.toList w

def OptionalValue (P : α → Bytes → Prop) : Option α → Bytes → Prop
  | none, v => v = [110, 117, 108, 108]
  | some x, v => P x v

def ListValue (P : α → Bytes → Prop) (xs : List α) (v : Bytes) : Prop :=
  ∃ is w, v = Bracket.list.openMark :: w ∧ Spread .list true is w ∧ List.Forall₂ P xs is

theorem TextValue.reads (value : TextValue s v) (expected : String) (blank : Blank a) :
    Reads (text expected) (a ++ v) s := by
  obtain ⟨w, rfl, spelling⟩ := value
  intro rest _
  rw [List.append_assoc, text, onFirst, List.cons_append, skipBlank_solid blank isBlank_marks.1]
  exact spelling.read rest

theorem OptionalValue.reads (each : ∀ x v, P x v → Reads r v x ∧ ∃ b t, v = b :: t ∧ isDigit b = true)
    (value : OptionalValue P x v) (blank : Blank a) : Reads (optional r) (a ++ v) x := by
  intro rest follows
  cases x with
  | none =>
    cases value
    rw [List.append_assoc, optional, List.cons_append, skipBlank_solid blank (by decide)]
    rfl
  | some x =>
    obtain ⟨read, b, t, rfl, digit⟩ := each x v value
    rw [List.append_assoc, optional, List.cons_append, skipBlank_solid blank (isBlank_of_isDigit digit)]
    simp only [if_neg (isDigit_letter digit).1]
    rw [← List.cons_append, read rest follows]
    rfl

theorem ListValue.reads (each : ∀ x v, P x v → Reads r v x) (value : ListValue P xs v) (blank : Blank a) :
    Reads (list r) (a ++ v) xs := by
  obtain ⟨is, w, rfl, spread, written⟩ := value
  have all : List.Forall₂ (Reads r) is xs := (written.imp fun x v given => each x v given).flip
  have exact : ∀ i ∈ is, Exact r i := by
    clear spread written
    induction all with
    | nil => nofun
    | cons read _ ih => exact List.forall_mem_cons.mpr ⟨read.exact, ih⟩
  exact (reads_list spread exact blank).mpr all

end Values

section Objects

/-- A member of an object: how its value is written, and of what it may be left out. -/
structure Slot (α : Type) where
  name : String
  Writes : α → Bytes → Prop
  Omits : α → Prop

variable {σ α : Type} {slots : List (Slot α)} {x : α} {m : Labelled} {ms : List Labelled}

def Labelled.Fits (m : Labelled) (slots : List (Slot α)) (x : α) : Prop :=
  ∃ name, m.Named name ∧ ∀ slot ∈ slots, slot.name = name → slot.Writes x m.value

/-- Members in any order, and any others among them, that tell a value: each name comes once, or not at all where
it may be left out. -/
structure Tells (slots : List (Slot α)) (x : α) (ms : List Labelled) : Prop where
  fits : ∀ m ∈ ms, m.Fits slots x
  once : ms.Pairwise fun m m' => ∀ slot ∈ slots, m.Named slot.name → ¬ m'.Named slot.name
  all : ∀ slot ∈ slots, (∃ m ∈ ms, m.Named slot.name) ∨ slot.Omits x

def ObjectValue (slots : List (Slot α)) (x : α) (v : Bytes) : Prop :=
  ∃ ms w, v = Bracket.object.openMark :: w ∧ Spread .object true (ms.map Labelled.text) w ∧ Tells slots x ms

/-- The record's fields are the members that are told; the draft is what has been read of a value when the members
of the given names have been. -/
structure Record.Understands (r : Record σ α) (slots : List (Slot α)) (draft : α → List String → σ) : Prop where
  start : ∀ x, draft x [] = r.start
  known : ∀ slot ∈ slots, ∃ field, r.fields.find? (·.name = slot.name) = some field ∧
    ∀ x seen b v, Blank b → slot.Writes x v → Reads (field.read (draft x seen)) (b ++ v) (draft x (slot.name :: seen))
  unknown : ∀ name, (∀ slot ∈ slots, slot.name ≠ name) → r.fields.find? (·.name = name) = none
  finish : ∀ x seen, (∀ slot ∈ slots, slot.name ∈ seen ∨ slot.Omits x) → r.finish (draft x seen) = .ok x

variable {r : Record σ α} {draft : α → List String → σ} {a v : Bytes} {seen : List String}

theorem Record.Understands.takes (understands : r.Understands slots draft) (fits : m.Fits slots x)
    (fresh : ∀ slot ∈ slots, m.Named slot.name → slot.name ∉ seen) :
    ∃ seen', Takes r m seen (draft x seen) seen' (draft x seen') ∧
      (∀ name ∈ seen', name ∈ seen ∨ m.Named name) ∧ ∀ slot ∈ slots, m.Named slot.name → slot.name ∈ seen' := by
  obtain ⟨name, named, writes⟩ := fits
  by_cases told : ∃ slot ∈ slots, slot.name = name
  · obtain ⟨slot, listed, rfl⟩ := told
    obtain ⟨field, found, reads⟩ := understands.known slot listed
    have read := reads x seen _ _ m.beforeValue_blank (writes slot listed rfl)
    refine ⟨slot.name :: seen, .read named found (fresh slot listed named) read, fun n member => ?_,
      fun other _ again => again.unique named ▸ List.mem_cons_self⟩
    rcases List.mem_cons.mp member with rfl | member
    · exact .inr named
    · exact .inl member
  · have stranger : ∀ slot ∈ slots, slot.name ≠ name := fun slot listed same => told ⟨slot, listed, same⟩
    exact ⟨seen, .passed named (understands.unknown name stranger), fun n member => .inl member,
      fun slot listed again => absurd (again.unique named) (stranger slot listed)⟩

theorem Record.Understands.gathered (understands : r.Understands slots draft) (fits : ∀ m ∈ ms, m.Fits slots x)
    (once : ms.Pairwise fun m m' => ∀ slot ∈ slots, m.Named slot.name → ¬ m'.Named slot.name)
    (fresh : ∀ m ∈ ms, ∀ slot ∈ slots, m.Named slot.name → slot.name ∉ seen) :
    ∃ seen', Gathered r seen (draft x seen) ms (draft x seen') ∧ seen ⊆ seen' ∧
      ∀ slot ∈ slots, ∀ m ∈ ms, m.Named slot.name → slot.name ∈ seen' := by
  -- the names that are still to come have not been seen
  induction ms generalizing seen with
  | nil => exact ⟨seen, .done, List.Subset.refl seen, fun _ _ => nofun⟩
  | cons m ms ih =>
    obtain ⟨fit, fits⟩ := List.forall_mem_cons.mp fits
    obtain ⟨apart, once⟩ := List.pairwise_cons.mp once
    obtain ⟨unseen, fresh⟩ := List.forall_mem_cons.mp fresh
    obtain ⟨seen₁, takes, origin, told⟩ := understands.takes fit unseen
    have later : ∀ m ∈ ms, ∀ slot ∈ slots, m.Named slot.name → slot.name ∉ seen₁ := by
      intro m' member slot listed named before
      rcases origin _ before with before | again
      · exact fresh m' member slot listed named before
      · exact apart m' member slot listed again named
    obtain ⟨seen', gathered, kept, all⟩ := ih fits once later
    refine ⟨seen', .member takes gathered, List.Subset.trans takes.subset kept, fun slot listed m' member named => ?_⟩
    rcases List.mem_cons.mp member with rfl | member
    · exact kept (told slot listed named)
    · exact all slot listed m' member named

theorem ObjectValue.reads (value : ObjectValue slots x v) (understands : r.Understands slots draft) (exact : r.Exact)
    (blank : Blank a) : Reads r.read (a ++ v) x := by
  obtain ⟨ms, w, rfl, spread, tells⟩ := value
  obtain ⟨seen, gathered, -, read⟩ := understands.gathered tells.fits tells.once fun _ _ _ _ _ => List.not_mem_nil
  have complete : ∀ slot ∈ slots, slot.name ∈ seen ∨ slot.Omits x := by
    intro slot listed
    refine (tells.all slot listed).imp_left ?_
    rintro ⟨m, member, named⟩
    exact read slot listed m member named
  rw [understands.start] at gathered
  exact (reads_object exact spread blank).mpr ⟨_, gathered, understands.finish x seen complete⟩

end Objects

section Plain

variable {α : Type} {f : Bracket} {is : List Bytes} {P : α → Bytes → Prop} {xs : List α} {n : Nat} {value : Bytes}
  {name name' : String}

def compact (f : Bracket) : Bool → List Bytes → Bytes
  | _, [] => [f.closeMark]
  | true, i :: is => i ++ compact f false is
  | false, i :: is => comma :: (i ++ compact f false is)

theorem spread_compact (items : ∀ i ∈ is, Written (.item f) i) (first : Bool) :
    Spread f first is (compact f first is) := by
  induction is generalizing first with
  | nil =>
    rw [compact]
    exact .close (a := []) .nil
  | cons i is ih =>
    obtain ⟨item, items⟩ := List.forall_mem_cons.mp items
    cases first with
    | true => exact .first (a := []) .nil item (ih items false)
    | false => exact .next (a := []) (b := []) .nil .nil item (ih items false)

def Writable (P : α → Bytes → Prop) (x : α) : Prop := ∃ v, P x v ∧ Written .value v

theorem spelling_quoteTail (s : String) : Spelling s.toList (quoteTail s) := by
  have read := readText_quoteTail s []
  rw [List.append_nil] at read
  obtain ⟨w, spelling, same⟩ := readText_eq_done.mp read
  rw [List.append_nil] at same
  rwa [same]

theorem quote_written (s : String) : Written .value (quote s) := .text (spelling_quoteTail s).tail

theorem textValue_quote (s : String) : TextValue s (quote s) := ⟨_, rfl, spelling_quoteTail s⟩

theorem writable_text (s : String) : Writable TextValue s := ⟨quote s, textValue_quote s, quote_written s⟩

def compactList (is : List Bytes) : Bytes := Bracket.list.openMark :: compact .list true is

theorem spread_compactList (values : ∀ i ∈ is, Written .value i) : Spread .list true is (compact .list true is) :=
  spread_compact (fun i among => .element (values i among)) true

theorem written_compactList (values : ∀ i ∈ is, Written .value i) : Written .value (compactList is) :=
  (spread_compactList values).written

theorem writable_list (each : ∀ x ∈ xs, Writable P x) : Writable (ListValue P) xs := by
  obtain ⟨is, written, values⟩ : ∃ is, List.Forall₂ P xs is ∧ ∀ i ∈ is, Written .value i := by
    induction xs with
    | nil => exact ⟨[], .nil, nofun⟩
    | cons x xs ih =>
      obtain ⟨⟨v, value, written⟩, each⟩ := List.forall_mem_cons.mp each
      obtain ⟨is, all, values⟩ := ih each
      exact ⟨v :: is, .cons value all, List.forall_mem_cons.mpr ⟨written, values⟩⟩
  exact ⟨compactList is, ⟨is, _, rfl, spread_compactList values, written⟩, written_compactList values⟩

theorem digit_octets : ∀ d, d < 10 → isDigit (48 + d).toUInt8 = true ∧ digitValue (48 + d).toUInt8 = d ∧
    ((48 + d).toUInt8 = '0'.toUInt8 → d = 0) := by decide

theorem exists_digits (n : Nat) (positive : 0 < n) :
    ∃ b ds, isDigit b = true ∧ b ≠ '0'.toUInt8 ∧ Digits ds ∧ numeral 0 (b :: ds) = n := by
  induction n using Nat.strongRecOn with
  | ind n ih =>
    by_cases small : n < 10
    · obtain ⟨digit, value, zero⟩ := digit_octets n small
      refine ⟨(48 + n).toUInt8, [], digit, fun same => Nat.ne_of_gt positive (zero same), nofun, ?_⟩
      rw [numeral_first]
      exact value
    · obtain ⟨b, ds, first, nonzero, digits, value⟩ := ih (n / 10) (by omega) (by omega)
      obtain ⟨digit, last, -⟩ := digit_octets (n % 10) (by omega)
      refine ⟨b, ds ++ [(48 + n % 10).toUInt8], first, nonzero, ?_, ?_⟩
      · exact List.forall_mem_append.mpr ⟨digits, List.forall_mem_singleton.mpr digit⟩
      · rw [numeral] at value ⊢
        rw [← List.cons_append, List.foldl_append, value, List.foldl_cons, last, List.foldl_nil]
        omega

theorem writable_count (small : n ≤ Decimal.maxU64) : Writable CountValue n := by
  obtain ⟨v, whole, value⟩ : ∃ v, Whole v ∧ numeral 0 v = n := by
    rcases Nat.eq_zero_or_pos n with rfl | positive
    · exact ⟨_, .zero, rfl⟩
    · obtain ⟨b, ds, first, nonzero, digits, value⟩ := exists_digits n positive
      exact ⟨_, .digits first nonzero digits, value⟩
  have magnitude := Magnitude.parts whole .none .none
  rw [List.append_nil, List.append_nil] at magnitude
  exact ⟨v, ⟨whole, value, small⟩, .positive magnitude⟩

theorem writable_optional {x : Option α} (each : ∀ y ∈ x, Writable P y) : Writable (OptionalValue P) x := by
  cases x with
  | none => exact ⟨_, rfl, .null⟩
  | some y => exact each y rfl

def Labelled.plain (name : String) (written : Written .value value) : Labelled :=
  ⟨quoteTail name, [], [], value, (spelling_quoteTail name).tail, .nil, .nil, written⟩

theorem Labelled.plain_named {written : Written .value value} : (plain name written).Named name' ↔ name' = name := by
  have named : (plain name written).Named name := spelling_quoteTail name
  exact ⟨fun other => other.unique named, fun same => same ▸ named⟩

variable {slots : List (Slot α)} {x : α} {ms : List Labelled}

theorem Labelled.Fits.plain {written : Written .value value}
    (told : ∀ slot ∈ slots, slot.name = name → slot.Writes x value) : (Labelled.plain name written).Fits slots x :=
  ⟨name, plain_named.mpr rfl, told⟩

def compactObject (ms : List Labelled) : Bytes :=
  Bracket.object.openMark :: compact .object true (ms.map Labelled.text)

theorem spread_compactObject (ms : List Labelled) :
    Spread .object true (ms.map Labelled.text) (compact .object true (ms.map Labelled.text)) :=
  spread_compact (List.forall_mem_map.mpr fun m _ => m.item) true

theorem written_compactObject (ms : List Labelled) : Written .value (compactObject ms) :=
  (spread_compactObject ms).written

theorem Tells.compact (tells : Tells slots x ms) : ObjectValue slots x (compactObject ms) :=
  ⟨ms, _, rfl, spread_compactObject ms, tells⟩

theorem writable_object (distinct : (slots.map Slot.name).Nodup) (each : ∀ slot ∈ slots, Writable slot.Writes x) :
    Writable (ObjectValue slots) x := by
  have written : ∀ slot ∈ slots, ∃ m : Labelled, m.Named slot.name ∧ slot.Writes x m.value := by
    intro slot listed
    obtain ⟨v, value, written⟩ := each slot listed
    exact ⟨.plain slot.name written, Labelled.plain_named.mpr rfl, value⟩
  choose member named value using written
  let ms := slots.pmap member fun _ listed => listed
  have tells : Tells slots x ms := by
    refine ⟨fun m among => ?_, ?_, fun slot listed => .inl ⟨member slot listed, ?_, named slot listed⟩⟩
    · obtain ⟨slot, listed, rfl⟩ := List.mem_pmap.mp among
      refine ⟨slot.name, named slot listed, fun other among same => ?_⟩
      rw [List.inj_on_of_nodup_map distinct among listed same]
      exact value slot listed
    · refine (List.pairwise_map.mp distinct).pmap _ fun slot listed slot' listed' apart other _ one two => ?_
      exact apart (((named slot listed).unique one).trans (two.unique (named slot' listed')))
    · exact List.mem_pmap.mpr ⟨slot, listed, rfl⟩
  exact ⟨compactObject ms, tells.compact, written_compactObject ms⟩

end Plain

end PushGateway.Json
