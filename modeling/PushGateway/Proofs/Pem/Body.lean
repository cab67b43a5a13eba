import PushGateway.Pem.Body
import PushGateway.Proofs.Base64.RoundTrip

namespace PushGateway.Pem.Body

open Base64 (sextets standard)

variable {block t : List Symbol} {s : Symbol} {body rest held octs : Bytes} {a b c : UInt8}

def Symbol.Proper : Symbol → Prop
  | .digit v => v < 64
  | .pad => True

def Symbol.octet : Symbol → UInt8
  | .digit v => Base64.symbol standard v
  | .pad => Base64.pad

theorem symbol?_octet (proper : s.Proper) : symbol? s.octet = some s := by
  cases s with
  | pad => rfl
  | digit v =>
    rw [Symbol.octet, symbol?, if_neg (Base64.standard_legible.symbol_ne_pad v proper),
      Base64.standard_legible.value?_symbol v proper]
    rfl

theorem isBlank_octet (proper : s.Proper) : isBlank s.octet = false := by
  have digits : ∀ v, v < 64 → isBlank (Base64.symbol standard v) = false := by decide
  cases s with
  | pad => rfl
  | digit v => exact digits v proper

theorem decodeFrom_octet (proper : s.Proper) (room : block.length < 8) :
    decodeFrom block (s.octet :: rest) = decodeFrom (block ++ [s]) rest := by
  simp only [decodeFrom, isBlank_octet proper, symbol?_octet proper, room, if_true, Bool.false_eq_true, if_false]

theorem decodeFrom_octets (proper : ∀ s ∈ t, s.Proper) (room : block.length + t.length ≤ 8) :
    decodeFrom block (t.map Symbol.octet ++ rest) = decodeFrom (block ++ t) rest := by
  induction t generalizing block with
  | nil => rw [List.map_nil, List.nil_append, List.append_nil]
  | cons s t ih =>
    obtain ⟨own, others⟩ := List.forall_mem_cons.mp proper
    rw [List.length_cons] at room
    rw [List.map_cons, List.cons_append, decodeFrom_octet own (by omega), ih others, List.append_assoc,
      List.singleton_append]
    rw [List.length_append, List.length_singleton]
    omega

theorem decodeFrom_full (full : block.length = 8) (bare : .pad ∉ block) (proper : s.Proper) :
    decodeFrom block (s.octet :: rest) =
      (decodeFrom [] (s.octet :: rest)).map (octets (block.take 4) ++ octets (block.drop 4) ++ ·) := by
  have next : decodeFrom [] (s.octet :: rest) = decodeFrom [s] rest := decodeFrom_octet proper (by decide)
  rw [next]
  simp only [decodeFrom, isBlank_octet proper, symbol?_octet proper, full, bare, Nat.lt_irrefl,
    Bool.false_eq_true, if_false]

def digits (bs : Bytes) : List Symbol := (sextets bs).map .digit

theorem digits_proper (bs : Bytes) : ∀ s ∈ digits bs, s.Proper := by
  intro s member
  obtain ⟨v, digit, rfl⟩ := List.mem_map.mp member
  exact Base64.sextets_lt bs v digit

theorem padded_proper (bs : Bytes) (pads : Nat) : ∀ s ∈ digits bs ++ List.replicate pads .pad, s.Proper := by
  intro s member
  rcases List.mem_append.mp member with digit | pad
  · exact digits_proper bs s digit
  · exact List.eq_of_mem_replicate pad ▸ trivial

theorem lastOctets_one (a : UInt8) : lastOctets (digits [a] ++ List.replicate 2 .pad) = .ok [a] :=
  congrArg (fun read : Bytes × Bool => Except.ok read.1) (Base64.group_one a)

theorem lastOctets_two (a b : UInt8) : lastOctets (digits [a, b] ++ List.replicate 1 .pad) = .ok [a, b] :=
  congrArg (fun read : Bytes × Bool => Except.ok read.1) (Base64.group_two a b)

def quad (a b c : UInt8) : List Symbol := digits [a, b, c]

theorem quad_proper (a b c : UInt8) : ∀ s ∈ quad a b c, s.Proper := digits_proper [a, b, c]

theorem quad_bare (a b c : UInt8) : .pad ∉ quad a b c := by simp [quad, digits]

theorem length_quad (a b c : UInt8) : (quad a b c).length = 4 := rfl

theorem octets_quad (a b c : UInt8) : octets (quad a b c) = [a, b, c] :=
  congrArg Prod.fst (Base64.group_three a b c [])

theorem lastOctets_quad (a b c : UInt8) : lastOctets (quad a b c) = .ok [a, b, c] :=
  congrArg Except.ok (octets_quad a b c)

theorem lastBlock_four (four : t.length = 4) : lastBlock t = lastOctets t := by
  rw [lastBlock, if_neg (by omega)]

theorem lastBlock_quad (four : t.length = 4) :
    lastBlock (quad a b c ++ t) = (lastOctets t).map ([a, b, c] ++ ·) := by
  have first : (quad a b c ++ t).take 4 = quad a b c := List.take_left' (length_quad a b c)
  have second : (quad a b c ++ t).drop 4 = t := List.drop_left' (length_quad a b c)
  have long : 4 < (quad a b c ++ t).length := by rw [List.length_append, length_quad, four]; decide
  rw [lastBlock, if_pos long, first, second, if_neg (quad_bare a b c), octets_quad]

/-- The symbols of a block that complete groups have filled, and the octets they stand for. -/
inductive Held : List Symbol → Bytes → Prop where
  | none : Held [] []
  | one (a b c : UInt8) : Held (quad a b c) [a, b, c]
  | two (a b c a' b' c' : UInt8) : Held (quad a b c ++ quad a' b' c') [a, b, c, a', b', c']

theorem decodeFrom_two (a b c a' b' c' : UInt8) (proper : s.Proper) :
    decodeFrom (quad a b c ++ quad a' b' c') (s.octet :: rest) =
      (decodeFrom [] (s.octet :: rest)).map ([a, b, c, a', b', c'] ++ ·) := by
  have bare : Symbol.pad ∉ quad a b c ++ quad a' b' c' := by simp [quad, digits]
  rw [decodeFrom_full rfl bare proper, List.take_left' (length_quad a b c), List.drop_left' (length_quad a b c),
    octets_quad, octets_quad]
  rfl

theorem Held.decodeFrom_nil (h : Held block held) : decodeFrom block [] = .ok held := by
  cases h with
  | none => rfl
  | one a b c => exact lastOctets_quad a b c
  | two a b c a' b' c' =>
    rw [decodeFrom, lastBlock_quad (length_quad a' b' c'), lastOctets_quad]
    rfl

theorem Held.decodeFrom_last (h : Held block held) (four : t.length = 4) (proper : ∀ s ∈ t, s.Proper)
    (last : lastOctets t = .ok octs) : decodeFrom block (t.map Symbol.octet) = .ok (held ++ octs) := by
  have alone : decodeFrom [] (t.map Symbol.octet) = .ok octs := by
    rw [← List.append_nil (t.map _), decodeFrom_octets proper (by simp [four]), List.nil_append, decodeFrom,
      lastBlock_four four, last]
  cases h with
  | none => exact alone
  | one a b c =>
    rw [← List.append_nil (t.map _), decodeFrom_octets proper (by simp [length_quad, four]), decodeFrom,
      lastBlock_quad four, last]
    rfl
  | two a b c a' b' c' =>
    obtain ⟨s, t, rfl⟩ := List.exists_cons_of_length_eq_add_one four
    rw [List.map_cons, decodeFrom_two _ _ _ _ _ _ (proper s List.mem_cons_self), ← List.map_cons, alone]
    rfl

theorem Held.decodeFrom_quad (h : Held block held) (a b c : UInt8)
    (next : ∀ {block held}, Held block held → decodeFrom block rest = .ok (held ++ octs)) :
    decodeFrom block ((quad a b c).map Symbol.octet ++ rest) = .ok (held ++ ([a, b, c] ++ octs)) := by
  have alone : decodeFrom [] ((quad a b c).map Symbol.octet ++ rest) = .ok ([a, b, c] ++ octs) := by
    rw [decodeFrom_octets (quad_proper a b c) (by simp [length_quad])]
    exact next (.one a b c)
  cases h with
  | none => exact alone
  | one a' b' c' =>
    rw [decodeFrom_octets (quad_proper a b c) (by simp [length_quad])]
    exact next (.two a' b' c' a b c)
  | two a₁ b₁ c₁ a₂ b₂ c₂ =>
    have first : (quad a b c).map Symbol.octet ++ rest = (Symbol.digit (a.toNat / 4)).octet :: _ := rfl
    rw [first, decodeFrom_two _ _ _ _ _ _ (quad_proper a b c _ List.mem_cons_self), ← first, alone]
    rfl

theorem Held.decodeFrom_encode (h : Held block held) (bs : Bytes) :
    decodeFrom block (Base64.encode standard bs) = .ok (held ++ bs) := by
  -- the block is 0, 4 or 8 symbols long whenever the encoder goes on to three more octets
  induction bs using Base64.encode.induct generalizing block held with
  | case1 => rw [Base64.encode, h.decodeFrom_nil, List.append_nil]
  | case2 a => exact h.decodeFrom_last rfl (padded_proper [a] 2) (lastOctets_one a)
  | case3 a b => exact h.decodeFrom_last rfl (padded_proper [a, b] 1) (lastOctets_two a b)
  | case4 a b c rest ih => exact h.decodeFrom_quad a b c ih

theorem decodeFrom_filter (block : List Symbol) (body : Bytes) :
    decodeFrom block (body.filter fun b => !isBlank b) = decodeFrom block body := by
  induction body generalizing block with
  | nil => rfl
  | cons b body ih =>
    cases blank : isBlank b with
    | true => simp [decodeFrom, blank, ih]
    | false =>
      rw [List.filter_cons_of_pos (by simp [blank])]
      simp only [decodeFrom, blank, Bool.false_eq_true, if_false, ih]

theorem decode_of_filter {payload : Bytes}
    (written : body.filter (fun b => !isBlank b) = Base64.encode standard payload) : decode body = .ok payload := by
  rw [decode, ← decodeFrom_filter, written, Held.none.decodeFrom_encode, List.nil_append]

end PushGateway.Pem.Body
