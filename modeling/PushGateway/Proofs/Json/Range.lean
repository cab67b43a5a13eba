import PushGateway.Json.Expect
/-!
What a reader can come to, whatever its input.
-/

namespace PushGateway.Json

namespace Outcome

variable {α β : Type} {P : α → Prop}

def Within (P : α → Prop) : Outcome α → Prop
  | .done a _ => P a
  | .failed _ _ => True

theorem Within.map {o : Outcome β} {f : β → α} (h : o.Within fun b => P (f b)) : (o.map f).Within P := by
  cases o with
  | done b rest => exact h
  | failed e rest => trivial

theorem Within.closing {o : Outcome α} (h : o.Within P) (close : Reader Unit) : (o.closing close).Within P := by
  cases o with
  | done a rest =>
    rw [Outcome.closing]
    cases close rest with
    | done _ rest => exact h
    | failed e rest => trivial
  | failed e rest => trivial

end Outcome

namespace Reader

variable {α β : Type} {P : α → Prop} {Q : β → Prop} {r : Reader α}

/-- Every value that the reader can come to has the property. -/
def Yields (r : Reader α) (P : α → Prop) : Prop := ∀ bs, (r bs).Within P

theorem Yields.pure {a : α} (h : P a) : (Pure.pure a : Reader α).Yields P := fun _ => h

theorem yields_true (r : Reader α) : r.Yields fun _ => True := fun bs => by cases r bs <;> trivial

theorem Yields.fail (e : Error) : (fail e : Reader α).Yields P := fun _ => trivial

theorem Yields.bind {f : α → Reader β} (h : r.Yields P) (next : ∀ a, P a → (f a).Yields Q) :
    (r >>= f).Yields Q := by
  intro bs
  have first := h bs
  rw [bind_apply]
  cases read : r bs with
  | failed e rest => trivial
  | done a rest =>
    rw [read] at first
    exact next a first rest

theorem Yields.ofExcept {x : Except Error α} (h : ∀ a, x = .ok a → P a) : (Reader.ofExcept x).Yields P := by
  cases x with
  | error e => exact .fail e
  | ok a => exact .pure (h a rfl)

theorem Yields.onFirst {f : UInt8 → Reader α} (h : ∀ b, (f b).Yields P) : (onFirst f).Yields P := by
  intro bs
  unfold Json.onFirst
  cases skipBlank bs with
  | nil => trivial
  | cons b rest => exact h b _

theorem Yields.afterFirst (h : r.Yields P) : (afterFirst r).Yields P := fun bs => h bs.tail

theorem Yields.readAll (h : r.Yields P) {bs : Bytes} {a : α} (read : readAll r bs = .ok a) : P a := by
  have first := h bs
  unfold Json.readAll at read
  cases value : r bs with
  | failed e rest => simp [value] at read
  | done b rest =>
    rw [value] at first
    simp only [value] at read
    split at read
    · cases read
      exact first
    · cases read

end Reader

open Reader

section Readers

variable {α β σ : Type} {P : α → Prop}

theorem unexpected_yields (expected : String) : (unexpected expected : Reader α).Yields P := by
  intro bs
  unfold unexpected
  cases bs with
  | nil => trivial
  | cons b rest =>
    -- each branch reads what stands there and fails with it
    dsimp only
    repeat' split
    all_goals trivial

theorem optional_yields {r : Reader α} (h : r.Yields P) : (optional r).Yields fun a => ∀ b ∈ a, P b := by
  intro bs
  have some_within {o : Outcome α} (w : o.Within P) : (o.map some).Within fun a => ∀ b ∈ a, P b := by
    refine .map ?_
    cases o with
    | done a rest => exact fun b member => Option.mem_some_iff.mp member ▸ w
    | failed e rest => trivial
  unfold optional
  cases skipBlank bs with
  | nil => exact some_within (h [])
  | cons b rest =>
    dsimp only
    split
    · refine .map ?_
      cases readIdent [117, 108, 108] rest with
      | done _ rest => exact fun _ => nofun
      | failed e rest => trivial
    · exact some_within (h (b :: rest))

theorem elements_yields {r : Reader α} (h : r.Yields P) (fuel : Nat) (first : Bool) :
    (elements r fuel first).Yields fun as => ∀ a ∈ as, P a := by
  induction fuel generalizing first with
  | zero => exact .pure (List.forall_mem_nil P)
  | succ fuel ih =>
    intro bs
    unfold elements
    cases moreElements first bs with
    | failed e rest => trivial
    | done more rest =>
      cases more with
      | false => exact List.forall_mem_nil P
      | true =>
        have head := h rest
        dsimp only
        cases read : r rest with
        | failed e rest => trivial
        | done a rest =>
          rw [read] at head
          refine .map ?_
          have tail := ih false rest
          cases others : elements r fuel false rest with
          | failed e rest => trivial
          | done as rest =>
            rw [others] at tail
            exact List.forall_mem_cons.mpr ⟨head, tail⟩

theorem list_yields {r : Reader α} (h : r.Yields P) : (list r).Yields fun as => ∀ a ∈ as, P a := by
  refine .onFirst fun b => ?_
  split
  · exact .afterFirst fun bs => (elements_yields h _ _ bs).closing _
  · exact unexpected_yields _

def Record.Keeps (r : Record σ α) (I : σ → Prop) : Prop :=
  ∀ field ∈ r.fields, ∀ st, I st → (field.read st).Yields I

variable {r : Record σ α} {I : σ → Prop}

theorem values_yields (fields : List (Member σ)) (keeps : ∀ field ∈ fields, ∀ st, I st → (field.read st).Yields I)
    (index : Nat) {st : σ} (start : I st) : (r.values index fields st).Yields I := by
  induction fields generalizing index st with
  | nil => exact .pure start
  | cons field fields ih =>
    obtain ⟨first, others⟩ := List.forall_mem_cons.mp keeps
    intro bs
    unfold Record.values
    cases moreElements (decide (index = 0)) bs with
    | failed e rest => trivial
    | done more rest =>
      cases more with
      | false =>
        -- a list that ends early leaves out this member, if it may be missing
        dsimp only
        split
        · exact ih others (index + 1) start rest
        · trivial
      | true =>
        have read := first st start rest
        dsimp only
        cases value : field.read st rest with
        | failed e rest => trivial
        | done st' rest =>
          rw [value] at read
          exact ih others (index + 1) read rest

theorem members_yields (keeps : r.Keeps I) (fuel : Nat) (first : Bool) (seen : List String) {st : σ}
    (start : I st) : (r.members fuel first seen st).Yields I := by
  induction fuel generalizing first seen st with
  | zero => exact .pure start
  | succ fuel ih =>
    intro bs
    unfold Record.members
    cases moreMembers first bs with
    | failed e rest => trivial
    | done more rest =>
      cases more with
      | false => exact start
      | true =>
        dsimp only
        cases readText rest with
        | failed e rest => trivial
        | done name rest =>
          dsimp only
          cases known : r.fields.find? (·.name = name) with
          | none =>
            dsimp only
            cases (readColon >>= fun _ => skipValue) rest with
            | failed e rest => trivial
            | done _ rest => exact ih false seen start rest
          | some field =>
            have member := List.mem_of_find?_eq_some known
            have read : (readColon >>= fun _ => field.read st).Yields I :=
              readColon.yields_true.bind fun _ _ => keeps field member st start
            have within := read rest
            dsimp only
            split
            · trivial
            · cases value : (readColon >>= fun _ => field.read st) rest with
              | failed e rest => trivial
              | done st' rest =>
                rw [value] at within
                exact ih false (name :: seen) within rest

theorem record_yields (keeps : r.Keeps I) (start : I r.start)
    (finish : ∀ st a, I st → r.finish st = .ok a → P a) : r.read.Yields P := by
  have finished {s : Reader σ} (h : s.Yields I) : (s >>= fun st => ofExcept (r.finish st)).Yields P :=
    .bind h fun st kept => .ofExcept fun a => finish st a kept
  refine .onFirst fun b => ?_
  split
  · exact .afterFirst fun bs => (finished (values_yields _ keeps 0 start) bs).closing _
  · split
    · exact .afterFirst fun bs => (finished (members_yields keeps _ true [] start) bs).closing _
    · exact unexpected_yields _

end Readers

section Numbers

def Number.Fits (x : Number) : Prop := ∀ n, x = .count n → n ≤ Decimal.maxU64

theorem push_le {s : Significand} (h : s.value ≤ Decimal.maxU64) (bs : Bytes) :
    (bs.foldl Significand.push s).value ≤ Decimal.maxU64 := by
  induction bs generalizing s with
  | nil => exact h
  | cons b bs ih =>
    refine ih ?_
    unfold Significand.push
    dsimp only
    split
    · rename_i room
      exact room.2
    · exact h

theorem floatNumber_yields (negative : Bool) (significand : Nat) (exponent : Int) :
    (floatNumber negative significand exponent).Yields Number.Fits := by
  intro bs
  unfold floatNumber
  cases Decimal.Binary64.ofDecimal significand exponent with
  | none => trivial
  | some x => exact fun _ => nofun

theorem readExponent_yields (negative : Bool) (significand : Nat) (start : Int) (down : Bool) :
    (readExponent negative significand start down).Yields Number.Fits := by
  intro bs
  unfold readExponent
  split
  · trivial
  · split
    · trivial
    · split
      · exact floatNumber_yields _ _ _ _
      · split
        · trivial
        · exact floatNumber_yields _ _ _ _

theorem readScale_yields (negative : Bool) (significand : Nat) (start : Int) :
    (readScale negative significand start).Yields Number.Fits := by
  intro bs
  unfold readScale
  split
  · exact floatNumber_yields _ _ _ _
  · split
    · split
      · split
        · exact readExponent_yields _ _ _ _ _
        · split <;> exact readExponent_yields _ _ _ _ _
      · exact readExponent_yields _ _ _ _ _
    · exact floatNumber_yields _ _ _ _

theorem readFraction_yields (negative : Bool) (whole : Significand) :
    (readFraction negative whole).Yields Number.Fits := by
  intro bs
  unfold readFraction
  dsimp only
  split
  · trivial
  · exact readScale_yields _ _ _ _

theorem integer_within (negative : Bool) {whole : Significand} (small : whole.value ≤ Decimal.maxU64)
    (bs : Bytes) : (readAfterWhole.integer negative whole bs).Within Number.Fits := by
  unfold readAfterWhole.integer
  split
  · exact fun _ same => Number.count.inj same ▸ small
  · split
    · exact floatNumber_yields _ _ _ _
    · exact fun _ => nofun

theorem readAfterWhole_yields (negative : Bool) {whole : Significand} (small : whole.value ≤ Decimal.maxU64) :
    (readAfterWhole negative whole).Yields Number.Fits := by
  intro bs
  unfold readAfterWhole
  split
  · split
    · exact readFraction_yields _ _ _
    · split
      · exact readScale_yields _ _ _ _
      · exact integer_within negative small _
  · split
    · exact readScale_yields _ _ _ _
    · exact integer_within negative small _

theorem readNumber_yields (negative : Bool) : (readNumber negative).Yields Number.Fits := by
  have digit_le (b : UInt8) : digitValue b ≤ Decimal.maxU64 := by
    have octet := b.toNat_lt
    unfold digitValue Decimal.maxU64
    omega
  intro bs
  unfold readNumber
  split
  · trivial
  · split
    · split
      · split
        · trivial
        · exact readAfterWhole_yields negative (Nat.zero_le _) _
      · exact readAfterWhole_yields negative (Nat.zero_le _) _
    · split
      · exact readAfterWhole_yields negative (push_le (digit_le _) _) _
      · trivial

theorem count_yields : count.Yields (· ≤ Decimal.maxU64) := by
  unfold count
  extract_lets judge
  have judged (x : Number) (fits : x.Fits) : (judge x).Yields (· ≤ Decimal.maxU64) := by
    cases x with
    | count n => exact .pure (fits n rfl)
    | negative n => exact .fail _
    | float x => exact .fail _
  refine .onFirst fun b => ?_
  split
  · exact (Yields.afterFirst (readNumber_yields true)).bind judged
  · split
    · exact (readNumber_yields false).bind judged
    · exact unexpected_yields _

end Numbers

end PushGateway.Json
