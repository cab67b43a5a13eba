import PushGateway.Proofs.Json.Items
import PushGateway.Proofs.Json.Spelling
import PushGateway.Proofs.Json.Straying

namespace PushGateway.Json

structure Labelled where
  name : Bytes
  afterName : Bytes
  beforeValue : Bytes
  value : Bytes
  name_text : TextTail name
  afterName_blank : Blank afterName
  beforeValue_blank : Blank beforeValue
  value_written : Written .value value

namespace Labelled

def text (m : Labelled) : Bytes :=
  quotationMark :: (m.name ++ (m.afterName ++ colon :: (m.beforeValue ++ m.value)))

def content (m : Labelled) : Bytes := m.beforeValue ++ m.value

def Named (m : Labelled) (name : String) : Prop := Spelling name.toList m.name

variable {m : Labelled} {name name' : String}

theorem item (m : Labelled) : Written (.item .object) m.text :=
  .member m.name_text m.afterName_blank m.beforeValue_blank m.value_written

theorem named_iff : m.Named name ↔ (readText m.name).result = .ok name := by
  constructor
  · intro spelling
    have read := spelling.read []
    rw [List.append_nil] at read
    rw [read]
    rfl
  · intro result
    have read := m.name_text.halts.result follows_nil
    rw [result] at read
    obtain ⟨w, spelling, same⟩ := readText_eq_done.mp read
    rwa [Named, List.append_cancel_right same]

theorem Named.unique (one : m.Named name) (other : m.Named name') : name = name' :=
  Except.ok.inj ((named_iff.mp one).symm.trans (named_iff.mp other))

end Labelled

theorem Written.labelled {i : Bytes} (item : Written (.item .object) i) : ∃ m : Labelled, m.text = i := by
  cases item with
  | @member n b c v name blank blank' value => exact ⟨⟨n, b, c, v, name, blank, blank', value⟩, rfl⟩

theorem Spread.labelled {first : Bool} {is : List Bytes} {w : Bytes} (spread : Spread .object first is w) :
    ∃ ms : List Labelled, ms.map Labelled.text = is := by
  have items := spread.item
  clear spread
  induction is with
  | nil => exact ⟨[], rfl⟩
  | cons i is ih =>
    obtain ⟨item, others⟩ := List.forall_mem_cons.mp items
    obtain ⟨m, rfl⟩ := item.labelled
    obtain ⟨ms, rfl⟩ := ih others
    exact ⟨m :: ms, rfl⟩

section Objects

variable {σ α : Type} {r : Record σ α} {seen : List String} {st st' : σ} {ms : List Labelled} {m : Labelled}
  {first : Bool} {a w left rest : Bytes} {x : α}

/-- What one member does to the names read before and to the state: an unknown name is passed over, and the value
of a known one is read, unless the name has been. -/
inductive Takes (r : Record σ α) (m : Labelled) : List String → σ → List String → σ → Prop where
  | passed {seen : List String} {st : σ} {name : String} : m.Named name → r.fields.find? (·.name = name) = none →
      Takes r m seen st seen st
  | read {seen : List String} {st st' : σ} {name : String} {field : Member σ} : m.Named name →
      r.fields.find? (·.name = name) = some field → name ∉ seen → Reads (field.read st) m.content st' →
      Takes r m seen st (name :: seen) st'

inductive Gathered (r : Record σ α) : List String → σ → List Labelled → σ → Prop where
  | done {seen : List String} {st : σ} : Gathered r seen st [] st
  | member {seen seen' : List String} {st st' st'' : σ} {m : Labelled} {ms : List Labelled} :
      Takes r m seen st seen' st' → Gathered r seen' st' ms st'' → Gathered r seen st (m :: ms) st''

theorem gathered_nil : Gathered r seen st [] st' ↔ st = st' := by
  constructor
  · rintro ⟨⟩
    rfl
  · rintro rfl
    exact .done

theorem gathered_cons : Gathered r seen st (m :: ms) st' ↔
    ∃ seen₁ st₁, Takes r m seen st seen₁ st₁ ∧ Gathered r seen₁ st₁ ms st' := by
  constructor
  · rintro ⟨⟩
    next takes gathered => exact ⟨_, _, takes, gathered⟩
  · rintro ⟨_, _, takes, gathered⟩
    exact .member takes gathered

theorem takes_iff {name : String} {seen' : List String} (named : m.Named name) : Takes r m seen st seen' st' ↔
    match r.fields.find? (·.name = name) with
    | none => seen' = seen ∧ st' = st
    | some field => name ∉ seen ∧ Reads (field.read st) m.content st' ∧ seen' = name :: seen := by
  constructor
  · intro takes
    cases takes with
    | passed other unknown =>
      obtain rfl := named.unique other
      simp only [unknown, and_self]
    | read other known fresh reads =>
      obtain rfl := named.unique other
      simp only [known, and_true]
      exact ⟨fresh, reads⟩
  · cases known : r.fields.find? (·.name = name) with
    | none =>
      rintro ⟨rfl, rfl⟩
      exact .passed named known
    | some field =>
      rintro ⟨fresh, reads, rfl⟩
      exact .read named known fresh reads

theorem Takes.named {seen' : List String} (takes : Takes r m seen st seen' st') : ∃ name, m.Named name := by
  cases takes with
  | passed named _ => exact ⟨_, named⟩
  | read named _ _ _ => exact ⟨_, named⟩

theorem members_cons {t : Bytes} (follows : Follows (t ++ rest))
    (exact : ∀ field ∈ r.fields, Exact (field.read st) m.content)
    (start : moreMembers first w = .done true
      (m.name ++ (m.afterName ++ colon :: (m.beforeValue ++ (m.value ++ (t ++ rest)))))) (fuel : Nat) :
    r.members (fuel + 1) first seen st w = .done st' left ↔
      ∃ seen₁ st₁, Takes r m seen st seen₁ st₁ ∧ r.members fuel false seen₁ st₁ (t ++ rest) = .done st' left := by
  cases result : (readText m.name).result with
  | error e =>
    obtain ⟨more, failed⟩ := members_unnamed (r := r) m.name_text result m.afterName_blank start fuel seen st
    simp only [failed, reduceCtorEq, false_iff]
    rintro ⟨_, _, takes, -⟩
    obtain ⟨name, named⟩ := takes.named
    cases result.symm.trans (Labelled.named_iff.mp named)
  | ok name =>
    rw [members_named m.name_text result m.afterName_blank m.beforeValue_blank m.value_written follows start]
    simp only [takes_iff (Labelled.named_iff.mpr result)]
    cases known : r.fields.find? (·.name = name) with
    | none =>
      constructor
      · exact fun read => ⟨seen, st, ⟨rfl, rfl⟩, read⟩
      · rintro ⟨_, _, ⟨rfl, rfl⟩, read⟩
        exact read
    | some field =>
      have one := exact field (List.mem_of_find?_eq_some known)
      dsimp only
      split
      · next repeated => simp only [reduceCtorEq, repeated, not_true_eq_false, false_and, exists_false]
      · next fresh =>
        refine (one.next_eq_done follows).trans ?_
        constructor
        · rintro ⟨mid, reads, read⟩
          exact ⟨_, mid, ⟨fresh, reads, rfl⟩, read⟩
        · rintro ⟨_, mid, ⟨-, reads, rfl⟩, read⟩
          exact ⟨mid, reads, read⟩

theorem members_spread (spread : Spread .object first (ms.map Labelled.text) w)
    (exact : ∀ field ∈ r.fields, ∀ st, ∀ m ∈ ms, Exact (field.read st) m.content) (fuel : Nat)
    (enough : w.length < fuel) :
    r.members fuel first seen st (w ++ rest) = .done st' left ↔
      left = Bracket.object.closeMark :: rest ∧ Gathered r seen st ms st' := by
  -- each member takes one unit of fuel and an octet at least
  induction ms generalizing first w fuel seen st with
  | nil =>
    obtain ⟨fuel, rfl⟩ := Nat.exists_eq_succ_of_ne_zero (Nat.ne_of_gt (Nat.zero_lt_of_lt enough))
    have ends : moreMembers first (w ++ rest) = .done false (Bracket.object.closeMark :: rest) := spread.more_nil rest
    simp only [Record.members, ends, Outcome.done.injEq, gathered_nil]
    exact and_comm.trans (and_congr_left' eq_comm)
  | cons m ms ih =>
    obtain ⟨fuel, rfl⟩ := Nat.exists_eq_succ_of_ne_zero (Nat.ne_of_gt (Nat.zero_lt_of_lt enough))
    obtain ⟨t, spread, shorter, goesOn⟩ := spread.more_cons
    have start : moreMembers first (w ++ rest) = .done true
        (m.name ++ (m.afterName ++ colon :: (m.beforeValue ++ (m.value ++ (t ++ rest))))) := by
      have next : moreMembers first (w ++ rest) = .done true (m.text.tail ++ (t ++ rest)) := goesOn rest
      simpa only [Labelled.text, List.tail_cons, List.append_assoc, List.cons_append] using next
    have later (seen : List String) (st : σ) : r.members fuel false seen st (t ++ rest) = .done st' left ↔
        left = Bracket.object.closeMark :: rest ∧ Gathered r seen st ms st' :=
      ih spread (fun field known st m member => exact field known st m (List.mem_cons_of_mem _ member)) fuel (by omega)
    have this := fun field known => exact field known st m List.mem_cons_self
    rw [members_cons (spread.follows rest) this start, gathered_cons]
    simp only [later]
    constructor
    · rintro ⟨seen₁, st₁, takes, ended, gathered⟩
      exact ⟨ended, seen₁, st₁, takes, gathered⟩
    · rintro ⟨ended, seen₁, st₁, takes, gathered⟩
      exact ⟨seen₁, st₁, takes, ended, gathered⟩

theorem ofExcept_eq_done {e : Except Error α} {bs : Bytes} :
    Reader.ofExcept e bs = .done x left ↔ e = .ok x ∧ left = bs := by
  cases e with
  | error e => simp [Reader.ofExcept]
  | ok y => simp [Reader.ofExcept, Reader.pure, eq_comm]

/-- A record in an object is read exactly when its members take the start to an end that is accepted. -/
theorem object_spread (spread : Spread .object true (ms.map Labelled.text) w)
    (exact : ∀ field ∈ r.fields, ∀ st, ∀ m ∈ ms, Exact (field.read st) m.content) (blank : Blank a) :
    r.read (a ++ Bracket.object.openMark :: w ++ rest) = .done x left ↔
      left = rest ∧ ∃ st, Gathered r [] r.start ms st ∧ r.finish st = .ok x := by
  have enough : w.length < (w ++ rest).length + 1 := by
    rw [List.length_append]
    omega
  have members (st : σ) (mid : Bytes) : r.members ((w ++ rest).length + 1) true [] r.start (w ++ rest) = .done st mid ↔
      mid = Bracket.object.closeMark :: rest ∧ Gathered r [] r.start ms st := members_spread spread exact _ enough
  have closes : closeObject (Bracket.object.closeMark :: rest) = .done () rest := closeObject_closeMark
  have reached : r.read (a ++ Bracket.object.openMark :: w ++ rest) =
      ((r.members ((w ++ rest).length + 1) true [] r.start >>= fun st => Reader.ofExcept (r.finish st))
        (w ++ rest)).closing closeObject := by
    rw [List.append_assoc, List.cons_append, Record.read, onFirst, skipBlank_solid blank isBlank_marks.2.2.2.1]
    rfl
  rw [reached, closing_eq_done]
  simp only [Reader.bind_eq_done, members, ofExcept_eq_done]
  constructor
  · rintro ⟨mid, ⟨st, _, ⟨rfl, gathered⟩, finished, rfl⟩, ended⟩
    cases closes.symm.trans ended
    exact ⟨rfl, st, gathered, finished⟩
  · rintro ⟨rfl, st, gathered, finished⟩
    exact ⟨_, ⟨st, _, ⟨rfl, gathered⟩, finished, rfl⟩, closes⟩

end Objects

section Lists

variable {σ α : Type} {r : Record σ α} {fields : List (Member σ)} {field : Member σ} {st st' : σ} {is : List Bytes}
  {i : Bytes} {first : Bool} {a w left rest : Bytes} {x : α}

/-- The values of the fields in order take the first state to the second; those that are missing at the end are
omissible. -/
inductive Listed {σ : Type} : List (Member σ) → σ → List Bytes → σ → Prop where
  | done {st : σ} : Listed [] st [] st
  | omitted {st st' : σ} {field : Member σ} {fields : List (Member σ)} : field.omissible = true →
      Listed fields st [] st' → Listed (field :: fields) st [] st'
  | read {st st' st'' : σ} {field : Member σ} {fields : List (Member σ)} {i : Bytes} {is : List Bytes} :
      Reads (field.read st) i st' → Listed fields st' is st'' → Listed (field :: fields) st (i :: is) st''

theorem closeList_item (spread : Spread .list first (i :: is) w) (rest : Bytes) :
    ∃ e left, closeList (w ++ rest) = .failed e left := by
  cases spread with
  | @first a _ t _ blank item _ =>
    obtain ⟨b, i, rfl, solid, mark⟩ := item.item_head
    have head : skipBlank (a ++ (b :: i ++ t)) = b :: (i ++ t) := skipBlank_solid blank solid
    obtain ⟨-, stops⟩ := close_solid (f := .list) head mark
    exact ⟨_, _, stops rest⟩
  | @next a b _ t _ blank blank' item _ =>
    obtain ⟨c, i, rfl, solid, mark⟩ := item.item_head
    have head : skipBlank (b ++ (c :: i ++ t)) = c :: (i ++ t) := skipBlank_solid blank' solid
    have other : c ≠ Bracket.list.closeMark := fun same => mark (mem_separators.mpr (.inr ⟨_, same⟩))
    rw [List.append_assoc, List.cons_append]
    exact ⟨_, _, closeList_comma blank head other rest⟩

theorem closeList_nil (spread : Spread .list first [] w) (rest : Bytes) : closeList (w ++ rest) = .done () rest := by
  cases spread with
  | close blank =>
    rw [List.append_assoc, List.singleton_append]
    exact close_closeMark (f := .list) blank rest

theorem values_none (spread : Spread .list first is w) (index : Nat) :
    (∃ mid, r.values index [] st (w ++ rest) = .done st' mid ∧ closeList mid = .done () left) ↔
      left = rest ∧ Listed [] st is st' := by
  have nothing : r.values index [] st (w ++ rest) = .done st (w ++ rest) := by
    rw [Record.values]
    rfl
  simp only [nothing, Outcome.done.injEq]
  cases is with
  | nil =>
    have closes := closeList_nil spread rest
    constructor
    · rintro ⟨_, ⟨rfl, rfl⟩, ended⟩
      cases closes.symm.trans ended
      exact ⟨rfl, .done⟩
    · rintro ⟨rfl, ⟨⟩⟩
      exact ⟨_, ⟨rfl, rfl⟩, closes⟩
  | cons i is =>
    obtain ⟨e, more, failed⟩ := closeList_item spread rest
    constructor
    · rintro ⟨_, ⟨rfl, rfl⟩, ended⟩
      cases failed.symm.trans ended
    · rintro ⟨-, ⟨⟩⟩

theorem listed_omitted : Listed (field :: fields) st [] st' ↔ field.omissible = true ∧ Listed fields st [] st' := by
  constructor
  · rintro ⟨⟩
    next omissible listed => exact ⟨omissible, listed⟩
  · rintro ⟨omissible, listed⟩
    exact .omitted omissible listed

theorem listed_read : Listed (field :: fields) st (i :: is) st' ↔
    ∃ st₁, Reads (field.read st) i st₁ ∧ Listed fields st₁ is st' := by
  constructor
  · rintro ⟨⟩
    next reads listed => exact ⟨_, reads, listed⟩
  · rintro ⟨_, reads, listed⟩
    exact .read reads listed

theorem values_omitted {index : Nat} (ends : moreElements (decide (index = 0)) w = .done false rest) :
    r.values index (field :: fields) st w = .done st' left ↔
      field.omissible = true ∧ r.values (index + 1) fields st rest = .done st' left := by
  simp only [Record.values, ends]
  cases field.omissible <;> simp

theorem values_read {index : Nat} (one : Exact (field.read st) i) (follows : Follows rest)
    (goesOn : moreElements (decide (index = 0)) w = .done true (i ++ rest)) :
    r.values index (field :: fields) st w = .done st' left ↔
      ∃ st₁, Reads (field.read st) i st₁ ∧ r.values (index + 1) fields st₁ rest = .done st' left := by
  simp only [Record.values, goesOn]
  exact one.next_eq_done follows

theorem values_spread (exact : ∀ field ∈ fields, ∀ st, ∀ i ∈ is, Exact (field.read st) i)
    (spread : Spread .list first is w) (index : Nat) (start : first = decide (index = 0)) :
    (∃ mid, r.values index fields st (w ++ rest) = .done st' mid ∧ closeList mid = .done () left) ↔
      left = rest ∧ Listed fields st is st' := by
  -- closing is part of the statement, for a list may hold more values than there are fields
  induction fields generalizing first is w index st with
  | nil => exact values_none spread index
  | cons field fields ih =>
    obtain ⟨one, others⟩ := List.forall_mem_cons.mp exact
    cases is with
    | nil =>
      have ends : moreElements (decide (index = 0)) (w ++ rest) = .done false (Bracket.list.closeMark :: rest) :=
        start ▸ spread.more_nil rest
      have last : Spread .list false [] [Bracket.list.closeMark] := .close (a := []) .nil
      have later : (∃ mid, r.values (index + 1) fields st (Bracket.list.closeMark :: rest) = .done st' mid ∧
          closeList mid = .done () left) ↔ left = rest ∧ Listed fields st [] st' := ih others last (index + 1) rfl
      simp only [values_omitted ends, listed_omitted, and_assoc, exists_and_left, later]
      exact and_left_comm
    | cons i is =>
      obtain ⟨t, after, -, goesOn⟩ := spread.more_cons
      have start : moreElements (decide (index = 0)) (w ++ rest) = .done true (i ++ (t ++ rest)) :=
        start ▸ goesOn rest
      have this := one st i List.mem_cons_self
      have others := fun field known st i member => others field known st i (List.mem_cons_of_mem _ member)
      have later (st : σ) : (∃ mid, r.values (index + 1) fields st (t ++ rest) = .done st' mid ∧
          closeList mid = .done () left) ↔ left = rest ∧ Listed fields st is st' := ih others after (index + 1) rfl
      simp only [values_read this (after.follows rest) start, listed_read]
      constructor
      · rintro ⟨mid, ⟨st₁, reads, more⟩, ended⟩
        obtain ⟨same, listed⟩ := (later st₁).mp ⟨mid, more, ended⟩
        exact ⟨same, st₁, reads, listed⟩
      · rintro ⟨same, st₁, reads, listed⟩
        obtain ⟨mid, more, ended⟩ := (later st₁).mpr ⟨same, listed⟩
        exact ⟨mid, ⟨st₁, reads, more⟩, ended⟩

theorem record_spread (spread : Spread .list true is w)
    (exact : ∀ field ∈ r.fields, ∀ st, ∀ i ∈ is, Exact (field.read st) i) (blank : Blank a) :
    r.read (a ++ Bracket.list.openMark :: w ++ rest) = .done x left ↔
      left = rest ∧ ∃ st, Listed r.fields r.start is st ∧ r.finish st = .ok x := by
  have values (st : σ) : (∃ mid, r.values 0 r.fields r.start (w ++ rest) = .done st mid ∧
      closeList mid = .done () left) ↔ left = rest ∧ Listed r.fields r.start is st := values_spread exact spread 0 rfl
  have reached : r.read (a ++ Bracket.list.openMark :: w ++ rest) =
      ((r.values 0 r.fields r.start >>= fun st => Reader.ofExcept (r.finish st)) (w ++ rest)).closing closeList := by
    rw [List.append_assoc, List.cons_append, Record.read, onFirst, skipBlank_solid blank (by decide)]
    rfl
  rw [reached, closing_eq_done]
  simp only [Reader.bind_eq_done, ofExcept_eq_done]
  constructor
  · rintro ⟨mid, ⟨st, _, read, finished, rfl⟩, ended⟩
    obtain ⟨same, listed⟩ := (values st).mp ⟨mid, read, ended⟩
    exact ⟨same, st, listed, finished⟩
  · rintro ⟨same, st, listed, finished⟩
    obtain ⟨mid, read, ended⟩ := (values st).mpr ⟨same, listed⟩
    exact ⟨mid, ⟨st, _, read, finished, rfl⟩, ended⟩

end Lists

section Records

variable {σ α : Type} {r : Record σ α} {a v w : Bytes} {ms : List Labelled} {is : List Bytes} {x : α}

def Record.Exact (r : Record σ α) : Prop :=
  ∀ field ∈ r.fields, ∀ st a v, Blank a → Written .value v → Json.Exact (field.read st) (a ++ v)

theorem Record.Exact.member (exact : r.Exact) (ms : List Labelled) :
    ∀ field ∈ r.fields, ∀ st, ∀ m ∈ ms, Json.Exact (field.read st) m.content :=
  fun field known st m _ => exact field known st _ _ m.beforeValue_blank m.value_written

theorem Record.Exact.element (exact : r.Exact) (spread : Spread .list true is w) :
    ∀ field ∈ r.fields, ∀ st, ∀ i ∈ is, Json.Exact (field.read st) i := by
  intro field known st i member
  cases spread.item i member with
  | element value => exact exact field known st [] i .nil value

theorem reads_object (exact : r.Exact) (spread : Spread .object true (ms.map Labelled.text) w) (blank : Blank a) :
    Reads r.read (a ++ Bracket.object.openMark :: w) x ↔
      ∃ st, Gathered r [] r.start ms st ∧ r.finish st = .ok x := by
  have each := exact.member ms
  exact ⟨fun reads => ((object_spread spread each blank).mp (reads [] follows_nil)).2,
    fun all _ _ => (object_spread spread each blank).mpr ⟨rfl, all⟩⟩

theorem reads_listed (exact : r.Exact) (spread : Spread .list true is w) (blank : Blank a) :
    Reads r.read (a ++ Bracket.list.openMark :: w) x ↔
      ∃ st, Listed r.fields r.start is st ∧ r.finish st = .ok x := by
  have each := exact.element spread
  exact ⟨fun reads => ((record_spread spread each blank).mp (reads [] follows_nil)).2,
    fun all _ _ => (record_spread spread each blank).mpr ⟨rfl, all⟩⟩

theorem Written.record_exact (written : Written .value v) (blank : Blank a) (exact : r.Exact) :
    Exact r.read (a ++ v) := by
  obtain ⟨b, t, rfl, solid, -⟩ := written.head
  by_cases list : b = Bracket.list.openMark
  · subst list
    obtain ⟨is, spread⟩ := written.spread
    intro rest x left _ read
    obtain ⟨same, all⟩ := (record_spread spread (exact.element spread) blank).mp read
    exact ⟨(reads_listed exact spread blank).mpr all, same⟩
  by_cases object : b = Bracket.object.openMark
  · subst object
    obtain ⟨is, spread⟩ := written.spread
    obtain ⟨ms, rfl⟩ := spread.labelled
    intro rest x left _ read
    obtain ⟨same, all⟩ := (object_spread spread (exact.member ms) blank).mp read
    exact ⟨(reads_object exact spread blank).mpr all, same⟩
  · exact exact_of_unexpected blank solid (by rw [if_neg list, if_neg object])

end Records

end PushGateway.Json
