import Mathlib.Data.List.Forall2
import PushGateway.Proofs.Json.Nesting
import PushGateway.Proofs.Json.Range

namespace PushGateway.Json

section Reads

variable {α β : Type} {r : Reader α} {w : Bytes} {a : α}

def Reads (r : Reader α) (w : Bytes) (a : α) : Prop := ∀ rest, Follows rest → r (w ++ rest) = .done a rest

/-- The reader takes these octets for a value as a whole or not at all. -/
def Exact (r : Reader α) (w : Bytes) : Prop :=
  ∀ rest a left, Follows rest → r (w ++ rest) = .done a left → Reads r w a ∧ left = rest

theorem Reads.exact (reads : Reads r w a) : Exact r w := by
  intro rest b left follows read
  cases (reads rest follows).symm.trans read
  exact ⟨reads, rfl⟩

theorem Exact.next_eq_done {next : α → Reader β} {b : β} {left rest : Bytes} (exact : Exact r w)
    (follows : Follows rest) :
    (match r (w ++ rest) with
      | .failed e left => Outcome.failed e left
      | .done a left => next a left) = .done b left ↔ ∃ a, Reads r w a ∧ next a rest = .done b left := by
  constructor
  · intro read
    cases value : r (w ++ rest) with
    | failed e mid => simp only [value, reduceCtorEq] at read
    | done a mid =>
      obtain ⟨reads, rfl⟩ := exact rest a mid follows value
      simp only [value] at read
      exact ⟨a, reads, read⟩
  · rintro ⟨a, reads, read⟩
    simp only [reads rest follows, read]

theorem Halts.exact (halts : Halts r w) : Exact r w := by
  intro rest a left follows read
  cases halts with
  | read b h =>
    cases read.symm.trans (h rest follows)
    exact ⟨h, rfl⟩
  | ended e h => cases read.symm.trans (h rest follows)
  | within e left _ h => cases read.symm.trans (h rest follows)

theorem exact_of_fails (fails : ∀ rest, Follows rest → ∃ e left, r (w ++ rest) = .failed e left) : Exact r w := by
  intro rest a left follows read
  obtain ⟨e, left', failed⟩ := fails rest follows
  cases read.symm.trans failed

theorem Reads.map (reads : Reads r w a) (f : α → β) : Reads (r >>= fun a => pure (f a)) w (f a) :=
  fun rest follows => by rw [Reader.bind_apply, reads rest follows]; rfl

theorem Reads.map_eq {f : α → β} {b : β} (reads : Reads r w a) (made : f a = b) :
    Reads (r >>= fun a => pure (f a)) w b := made ▸ reads.map f

theorem Reads.of_map {f : α → β} {b : β} (reads : Reads (r >>= fun a => pure (f a)) w b) : ∃ a, f a = b := by
  obtain ⟨a, mid, -, result⟩ := Reader.bind_eq_done.mp (reads [] follows_nil)
  cases result
  exact ⟨a, rfl⟩

theorem Exact.map (exact : Exact r w) (f : α → β) : Exact (r >>= fun a => pure (f a)) w := by
  intro rest b left follows read
  obtain ⟨a, mid, value, result⟩ := Reader.bind_eq_done.mp read
  obtain ⟨reads, rfl⟩ := exact rest a mid follows value
  cases result
  exact ⟨reads.map f, rfl⟩

theorem Exact.readAll_eq_ok {b : Bytes} (exact : Exact r w) (blank : Blank b) :
    readAll r (w ++ b) = .ok a ↔ Reads r w a := by
  have follows : Follows b := List.append_nil b ▸ follows_nil.blank blank
  have ends : skipBlank b = [] := List.dropWhile_eq_nil_iff.mpr blank
  constructor
  · intro read
    unfold readAll at read
    cases value : r (w ++ b) with
    | failed e left => simp only [value, reduceCtorEq] at read
    | done x left =>
      obtain ⟨reads, rfl⟩ := exact b x left follows value
      simp only [value, ends, if_true, Except.ok.injEq] at read
      exact read ▸ reads
  · intro reads
    simp only [readAll, reads b follows, ends, if_true]

end Reads

theorem closing_eq_done {α : Type} {content : Outcome α} {close : Reader Unit} {a : α} {left : Bytes} :
    content.closing close = .done a left ↔ ∃ mid, content = .done a mid ∧ close mid = .done () left := by
  cases content with
  | failed e mid => simp only [Outcome.closing, reduceCtorEq, false_and, exists_false]
  | done b mid =>
    cases closes : close mid with
    | failed e more => simp [Outcome.closing, closes]
    | done _ more => simp [Outcome.closing, closes, and_comm]

inductive Spread (f : Bracket) : Bool → List Bytes → Bytes → Prop where
  | close {first : Bool} {a : Bytes} : Blank a → Spread f first [] (a ++ [f.closeMark])
  | first {a i t : Bytes} {is : List Bytes} : Blank a → Written (.item f) i → Spread f false is t →
      Spread f true (i :: is) (a ++ (i ++ t))
  | next {a b i t : Bytes} {is : List Bytes} : Blank a → Blank b → Written (.item f) i → Spread f false is t →
      Spread f false (i :: is) (a ++ comma :: (b ++ (i ++ t)))

section Items

variable {α : Type} {f : Bracket} {first : Bool} {is : List Bytes} {a v w left rest : Bytes} {one : Reader α}
  {as : List α}

theorem Spread.follows (spread : Spread f false is w) (rest : Bytes) : Follows (w ++ rest) := by
  cases spread with
  | close blank =>
    rw [List.append_assoc]
    exact (follows_closeMark f rest).blank blank
  | next blank _ _ _ =>
    rw [List.append_assoc]
    exact (follows_comma _).blank blank

theorem Spread.item (spread : Spread f first is w) : ∀ i ∈ is, Written (.item f) i := by
  induction spread with
  | close => nofun
  | first _ item _ ih => exact List.forall_mem_cons.mpr ⟨item, ih⟩
  | next _ _ item _ ih => exact List.forall_mem_cons.mpr ⟨item, ih⟩

theorem Spread.more_nil (spread : Spread f first [] w) (rest : Bytes) :
    more f first (w ++ rest) = .done false (f.closeMark :: rest) := by
  cases spread with
  | close blank =>
    rw [List.append_assoc, List.singleton_append]
    exact more_last blank first rest

/-- An item is told from what stands before it, and the other items from what stands after it. -/
theorem Spread.more_cons {i : Bytes} (spread : Spread f first (i :: is) w) :
    ∃ t, Spread f false is t ∧ t.length < w.length ∧
      ∀ rest, more f first (w ++ rest) = .done true (entered f i ++ (t ++ rest)) := by
  cases spread with
  | @first a i t _ blank item spread =>
    obtain ⟨b, i, rfl, -⟩ := item.item_head
    refine ⟨t, spread, ?_, fun rest => ?_⟩
    · simp only [List.length_append, List.length_cons]
      omega
    · simpa only [List.append_assoc] using more_first item blank (t ++ rest)
  | @next a b i t _ blank blank' item spread =>
    refine ⟨t, spread, ?_, fun rest => ?_⟩
    · simp only [List.length_append, List.length_cons]
      omega
    · simpa only [List.append_assoc, List.cons_append] using more_next item blank blank' (t ++ rest)

theorem spread_of_written {form : Form} (written : Written form w) : match form with
    | .items f => ∃ is, Spread f true is w ∧ ∀ b, Blank b → ∃ is, Spread f false is (b ++ comma :: w)
    | .tail f => ∃ is, Spread f false is w
    | _ => True := by
  induction written with
  | items blank item _ _ tail =>
    obtain ⟨is, spread⟩ := tail
    exact ⟨_, .first blank item spread, fun b before => ⟨_, .next before blank item spread⟩⟩
  | last blank => exact ⟨[], .close blank⟩
  | next blank _ ih =>
    obtain ⟨-, -, after⟩ := ih
    exact after _ blank
  | _ => trivial

theorem Written.spread (written : Written .value (f.openMark :: w)) : ∃ is, Spread f true is w := by
  rcases written.bracketed with ⟨a, blank, rfl⟩ | items
  · exact ⟨[], .close blank⟩
  · obtain ⟨is, spread, -⟩ := spread_of_written items
    exact ⟨is, spread⟩

theorem Spread.tail (spread : Spread f false is w) : Written (.tail f) w := by
  generalize same : false = first at spread
  induction spread with
  | close blank => exact .last blank
  | first => cases same
  | next blank blank' item _ ih => exact .next blank (.items blank' item (ih rfl))

theorem Spread.written (spread : Spread f true is w) : Written .value (f.openMark :: w) := by
  cases spread with
  | close blank => exact .empty blank
  | first blank item spread => exact .filled (.items blank item spread.tail)

theorem elements_spread (spread : Spread .list first is w) (exact : ∀ i ∈ is, Exact one i) (fuel : Nat)
    (enough : w.length < fuel) :
    elements one fuel first (w ++ rest) = .done as left ↔
      left = Bracket.list.closeMark :: rest ∧ List.Forall₂ (Reads one) is as := by
  -- each element takes one unit of fuel and an octet at least
  induction is generalizing first w fuel as with
  | nil =>
    obtain ⟨fuel, rfl⟩ := Nat.exists_eq_succ_of_ne_zero (Nat.ne_of_gt (Nat.zero_lt_of_lt enough))
    have ends : moreElements first (w ++ rest) = .done false (Bracket.list.closeMark :: rest) := spread.more_nil rest
    simp only [elements, ends, List.forall₂_nil_left_iff, Outcome.done.injEq]
    exact and_comm.trans (and_congr eq_comm eq_comm)
  | cons i is ih =>
    obtain ⟨fuel, rfl⟩ := Nat.exists_eq_succ_of_ne_zero (Nat.ne_of_gt (Nat.zero_lt_of_lt enough))
    obtain ⟨this, others⟩ := List.forall_mem_cons.mp exact
    obtain ⟨t, spread, shorter, goesOn⟩ := spread.more_cons
    have follows := spread.follows rest
    have start : moreElements first (w ++ rest) = .done true (i ++ (t ++ rest)) := goesOn rest
    have later (as : List α) : elements one fuel false (t ++ rest) = .done as left ↔
        left = Bracket.list.closeMark :: rest ∧ List.Forall₂ (Reads one) is as := ih spread others fuel (by omega)
    simp only [elements, start]
    refine (this.next_eq_done follows).trans ?_
    simp only [Outcome.map_eq_done, later]
    constructor
    · rintro ⟨a, reads, as, ⟨ended, all⟩, rfl⟩
      exact ⟨ended, .cons reads all⟩
    · rintro ⟨ended, all⟩
      cases all with
      | cons reads all => exact ⟨_, reads, _, ⟨ended, all⟩, rfl⟩

/-- A list between its brackets is read exactly when each of its items is. -/
theorem list_spread (spread : Spread .list true is w) (exact : ∀ i ∈ is, Exact one i) (blank : Blank a) :
    list one (a ++ Bracket.list.openMark :: w ++ rest) = .done as left ↔
      left = rest ∧ List.Forall₂ (Reads one) is as := by
  have enough : w.length < (w ++ rest).length + 1 := by
    rw [List.length_append]
    omega
  have items (mid : Bytes) : elements one ((w ++ rest).length + 1) true (w ++ rest) = .done as mid ↔
      mid = Bracket.list.closeMark :: rest ∧ List.Forall₂ (Reads one) is as := elements_spread spread exact _ enough
  have closes : closeList (Bracket.list.closeMark :: rest) = .done () rest := close_closeMark (f := .list) .nil rest
  have reached : list one (a ++ Bracket.list.openMark :: w ++ rest) =
      (elements one ((w ++ rest).length + 1) true (w ++ rest)).closing closeList := by
    rw [List.append_assoc, List.cons_append, list, onFirst, skipBlank_solid blank (by decide)]
    rfl
  rw [reached, closing_eq_done]
  simp only [items]
  constructor
  · rintro ⟨_, ⟨rfl, all⟩, ended⟩
    cases closes.symm.trans ended
    exact ⟨rfl, all⟩
  · rintro ⟨rfl, all⟩
    exact ⟨_, ⟨rfl, all⟩, closes⟩

theorem reads_list (spread : Spread .list true is w) (exact : ∀ i ∈ is, Exact one i) (blank : Blank a) :
    Reads (list one) (a ++ Bracket.list.openMark :: w) as ↔ List.Forall₂ (Reads one) is as :=
  ⟨fun reads => ((list_spread spread exact blank).mp (reads [] follows_nil)).2,
    fun all _ _ => (list_spread spread exact blank).mpr ⟨rfl, all⟩⟩

theorem Reads.item {β : Type} {f : List α → β} {y : β} {i : Bytes}
    (reads : Reads (list one >>= fun as => pure (f as)) (a ++ Bracket.list.openMark :: w) y)
    (spread : Spread .list true is w) (exact : ∀ i ∈ is, Exact one i) (blank : Blank a) (member : i ∈ is) :
    ∃ x, Reads one i x := by
  obtain ⟨as, mid, value, -⟩ := Reader.bind_eq_done.mp (reads [] follows_nil)
  obtain ⟨-, all⟩ := (list_spread spread exact blank).mp value
  clear spread value
  induction all with
  | nil => cases member
  | cons read _ ih =>
    rcases List.mem_cons.mp member with rfl | member
    · exact ⟨_, read⟩
    · exact ih (List.forall_mem_cons.mp exact).2 member

theorem unexpected_fails {expected : String} (bs : Bytes) :
    ∃ e left, (unexpected expected : Reader α) bs = .failed e left := by
  have never := unexpected_yields (α := α) (P := fun _ => False) expected bs
  cases read : (unexpected expected : Reader α) bs with
  | failed e left => exact ⟨e, left, rfl⟩
  | done a left =>
    rw [read] at never
    exact never.elim

theorem onFirst_unexpected {f : UInt8 → Reader α} {expected : String} {b : UInt8} {t : Bytes} (blank : Blank a)
    (solid : isBlank b = false) (refuses : f b = unexpected expected) (rest : Bytes) :
    ∃ e left, onFirst f (a ++ b :: t ++ rest) = .failed e left := by
  rw [List.append_assoc, List.cons_append, onFirst, skipBlank_solid blank solid]
  simp only [refuses]
  exact unexpected_fails _

theorem exact_of_unexpected {f : UInt8 → Reader α} {expected : String} {b : UInt8} {t : Bytes} (blank : Blank a)
    (solid : isBlank b = false) (refuses : f b = unexpected expected) : Exact (onFirst f) (a ++ b :: t) :=
  exact_of_fails fun rest _ => onFirst_unexpected blank solid refuses rest

theorem Written.list_exact (written : Written .value v) (blank : Blank a)
    (exact : ∀ i, Written .value i → Exact one i) : Exact (list one) (a ++ v) := by
  obtain ⟨b, t, rfl, solid, -⟩ := written.head
  by_cases opens : b = Bracket.list.openMark
  · subst opens
    obtain ⟨is, spread⟩ := written.spread
    have each : ∀ i ∈ is, Exact one i := fun i member => by
      cases spread.item i member with
      | element value => exact exact i value
    intro rest as left _ read
    obtain ⟨same, all⟩ := (list_spread spread each blank).mp read
    exact ⟨(reads_list spread each blank).mpr all, same⟩
  · exact exact_of_unexpected blank solid (if_neg opens)

end Items

end PushGateway.Json
