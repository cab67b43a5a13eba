import PushGateway.Base64

namespace PushGateway.Base64

/-- Symbols are told apart from each other and from the pad. -/
structure Form.Legible (form : Form) : Prop where
  value?_symbol : ∀ n, n < 64 → value? form (symbol form n) = some n
  symbol_ne_pad : ∀ n, n < 64 → symbol form n ≠ pad

theorem standard_legible : standard.Legible := ⟨by decide, by decide⟩

theorem urlSafe_legible : urlSafe.Legible := ⟨by decide, by decide⟩

section Symbols

variable {form : Form} {a b c : UInt8} {v w x y offset : Nat}

theorem values_symbols (legible : form.Legible) (ns : List Nat) (bound : ∀ n ∈ ns, n < 64) (offset : Nat) :
    values form offset (ns.map (symbol form)) = .ok ns := by
  induction ns generalizing offset with
  | nil => rfl
  | cons n ns ih =>
    have head := legible.value?_symbol n (bound n List.mem_cons_self)
    have tail := ih (fun m hm => bound m (List.mem_cons_of_mem n hm)) (offset + 1)
    simp only [List.map_cons, values, head, tail, Except.map]

/-- The values of the symbols that one, two or three octets are written with. -/
def sextets : Bytes → List Nat
  | [] => []
  | [a] => [a.toNat / 4, a.toNat % 4 * 16]
  | [a, b] => [a.toNat / 4, a.toNat % 4 * 16 + b.toNat / 16, b.toNat % 16 * 4]
  | a :: b :: c :: _ =>
    [a.toNat / 4, a.toNat % 4 * 16 + b.toNat / 16, b.toNat % 16 * 4 + c.toNat / 64, c.toNat % 64]

theorem sextets_lt (bs : Bytes) : ∀ n ∈ sextets bs, n < 64 := by
  match bs with
  | [] => nofun
  | [a] =>
    have ha := a.toNat_lt
    simp only [sextets, List.forall_mem_cons]
    exact ⟨by omega, by omega, nofun⟩
  | [a, b] =>
    have ha := a.toNat_lt
    have hb := b.toNat_lt
    simp only [sextets, List.forall_mem_cons]
    exact ⟨by omega, by omega, by omega, nofun⟩
  | a :: b :: c :: _ =>
    have ha := a.toNat_lt
    have hb := b.toNat_lt
    have hc := c.toNat_lt
    simp only [sextets, List.forall_mem_cons]
    exact ⟨by omega, by omega, by omega, by omega, nofun⟩

theorem toUInt8_eq {n : Nat} (h : n = a.toNat) : n.toUInt8 = a := by
  subst h
  exact UInt8.ofNat_toNat

theorem group_one (a : UInt8) : group (sextets [a]) = ([a], true) := by
  have first : a.toNat / 4 * 4 + a.toNat % 4 * 16 / 16 = a.toNat := by omega
  have unused : a.toNat % 4 * 16 % 16 = 0 := by omega
  simp only [sextets, group, toUInt8_eq first, unused, decide_true]

theorem group_two (a b : UInt8) : group (sextets [a, b]) = ([a, b], true) := by
  have hb := b.toNat_lt
  have first : a.toNat / 4 * 4 + (a.toNat % 4 * 16 + b.toNat / 16) / 16 = a.toNat := by omega
  have second : (a.toNat % 4 * 16 + b.toNat / 16) % 16 * 16 + b.toNat % 16 * 4 / 4 = b.toNat := by omega
  have unused : b.toNat % 16 * 4 % 4 = 0 := by omega
  simp only [sextets, group, toUInt8_eq first, toUInt8_eq second, unused, decide_true]

theorem group_three (a b c : UInt8) (rest : Bytes) :
    group (sextets (a :: b :: c :: rest)) = ([a, b, c], true) := by
  have hb := b.toNat_lt
  have hc := c.toNat_lt
  have first : a.toNat / 4 * 4 + (a.toNat % 4 * 16 + b.toNat / 16) / 16 = a.toNat := by omega
  have second : (a.toNat % 4 * 16 + b.toNat / 16) % 16 * 16 +
      (b.toNat % 16 * 4 + c.toNat / 64) / 4 = b.toNat := by omega
  have third : (b.toNat % 16 * 4 + c.toNat / 64) % 4 * 64 + c.toNat % 64 = c.toNat := by omega
  simp only [sextets, group, toUInt8_eq first, toUInt8_eq second, toUInt8_eq third]

end Symbols

theorem decodeLast_symbols {form : Form} (legible : form.Legible) (ns : List Nat) (pads : Nat)
    (bound : ∀ n ∈ ns, n < 64) (enough : ns ≠ [] → 2 ≤ ns.length) (bare : ns = [] → pads = 0)
    (fit : padsFit form ns.length pads = true) {octets : Bytes} (hgroup : group ns = (octets, true))
    (offset : Nat) :
    decodeLast form offset (ns.map (symbol form) ++ List.replicate pads pad) = .ok octets := by
  have plain : ∀ s ∈ ns.map (symbol form), decide (s ≠ pad) = true := by
    intro s hs
    obtain ⟨n, hn, rfl⟩ := List.mem_map.mp hs
    exact decide_eq_true (legible.symbol_ne_pad n (bound n hn))
  have symbols : (ns.map (symbol form) ++ List.replicate pads pad).takeWhile (· ≠ pad) =
      ns.map (symbol form) := by
    rw [List.takeWhile_append_of_pos plain]
    cases pads <;> simp [List.replicate_succ]
  have rest : (ns.map (symbol form) ++ List.replicate pads pad).dropWhile (· ≠ pad) =
      List.replicate pads pad := by
    rw [List.dropWhile_append_of_pos plain]
    cases pads <;> simp [List.replicate_succ]
  unfold decodeLast
  simp only [symbols, rest, values_symbols legible ns bound offset, List.length_replicate, fit, hgroup]
  by_cases hns : ns = []
  · simp [hns, bare hns]
  · have long : ¬ ns.length < 2 := Nat.not_lt.mpr (enough hns)
    simp [long]

section Encode

variable {form : Form} {a b c : UInt8} {rest : Bytes}

theorem encode_one : encode form [a] =
    (sextets [a]).map (symbol form) ++ List.replicate (if form.padded then 2 else 0) pad := by
  cases h : form.padded <;> simp [encode, sextets, h, List.replicate]

theorem encode_two : encode form [a, b] =
    (sextets [a, b]).map (symbol form) ++ List.replicate (if form.padded then 1 else 0) pad := by
  cases h : form.padded <;> simp [encode, sextets, h]

theorem encode_three : encode form (a :: b :: c :: rest) =
    (sextets (a :: b :: c :: rest)).map (symbol form) ++ encode form rest := rfl

theorem encode_ne_nil {bs : Bytes} (h : bs ≠ []) : encode form bs ≠ [] := by
  match bs with
  | [a] => simp [encode]
  | [a, b] => simp [encode]
  | a :: b :: c :: rest => simp [encode]

theorem mem_encode (bs : Bytes) : ∀ s ∈ encode form bs,
    (∃ n, n < 64 ∧ s = symbol form n) ∨ (form.padded = true ∧ s = pad) := by
  have written : ∀ bs : Bytes, ∀ s ∈ (sextets bs).map (symbol form), ∃ n, n < 64 ∧ s = symbol form n := by
    intro bs s hs
    obtain ⟨n, hn, rfl⟩ := List.mem_map.mp hs
    exact ⟨n, sextets_lt bs n hn, rfl⟩
  have filled : ∀ k : Nat, ∀ s ∈ List.replicate (if form.padded then k else 0) pad,
      form.padded = true ∧ s = pad := by
    intro k s hs
    cases h : form.padded <;> simp_all
  induction bs using encode.induct with
  | case1 => nofun
  | case2 a =>
    intro s hs
    rw [encode_one] at hs
    rcases List.mem_append.mp hs with hs | hs
    · exact .inl (written [a] s hs)
    · exact .inr (filled 2 s hs)
  | case3 a b =>
    intro s hs
    rw [encode_two] at hs
    rcases List.mem_append.mp hs with hs | hs
    · exact .inl (written [a, b] s hs)
    · exact .inr (filled 1 s hs)
  | case4 a b c rest ih =>
    intro s hs
    rw [encode_three] at hs
    rcases List.mem_append.mp hs with hs | hs
    · exact .inl (written (a :: b :: c :: rest) s hs)
    · exact ih s hs

theorem length_encode_mod (bs : Bytes) : (encode form bs).length % 4 ≠ 1 := by
  fun_induction encode form bs with
  | case1 => simp
  | case2 a => cases form.padded <;> simp
  | case3 a b => cases form.padded <;> simp
  | case4 a b c rest ih =>
    simp only [List.length_cons]
    omega

theorem decodeGroups_three (legible : form.Legible) (offset : Nat) (e : UInt8) (tail : Bytes) :
    decodeGroups form offset ((sextets (a :: b :: c :: rest)).map (symbol form) ++ e :: tail) =
      (decodeGroups form (offset + 4) (e :: tail)).map ([a, b, c] ++ ·) := by
  have read := values_symbols legible (sextets (a :: b :: c :: rest)) (sextets_lt _) offset
  have octets := group_three a b c rest
  simp only [sextets, List.map_cons, List.map_nil] at read octets
  simp only [sextets, List.map_cons, List.map_nil, List.cons_append, List.nil_append, decodeGroups, read,
    octets]

theorem decodeGroups_last {bs : Bytes} (short : bs.length ≤ 4) (offset : Nat) :
    decodeGroups form offset bs = decodeLast form offset bs := by
  match bs with
  | [] => rfl
  | [a] => rfl
  | [a, b] => rfl
  | [a, b, c] => rfl
  | [a, b, c, d] => rfl
  | a :: b :: c :: d :: e :: rest =>
    simp only [List.length_cons] at short
    omega

theorem decodeGroups_encode (legible : form.Legible) (bs : Bytes) (offset : Nat) :
    decodeGroups form offset (encode form bs) = .ok bs := by
  induction bs using encode.induct generalizing offset with
  | case1 =>
    exact decodeLast_symbols legible [] 0 (sextets_lt []) (absurd rfl) (fun _ => rfl)
      (by cases h : form.padded <;> simp [padsFit, h]) rfl offset
  | case2 a =>
    rw [encode_one, decodeGroups_last (by cases form.padded <;> simp [sextets])]
    exact decodeLast_symbols legible _ _ (sextets_lt [a]) (fun _ => by simp [sextets])
      (fun h => absurd h (List.cons_ne_nil _ _))
      (by cases h : form.padded <;> simp [padsFit, h, sextets]) (group_one a) offset
  | case3 a b =>
    rw [encode_two, decodeGroups_last (by cases form.padded <;> simp [sextets])]
    exact decodeLast_symbols legible _ _ (sextets_lt [a, b]) (fun _ => by simp [sextets])
      (fun h => absurd h (List.cons_ne_nil _ _))
      (by cases h : form.padded <;> simp [padsFit, h, sextets]) (group_two a b) offset
  | case4 a b c rest ih =>
    rw [encode_three]
    cases hrest : encode form rest with
    | nil =>
      have done : rest = [] := Classical.byContradiction fun h => encode_ne_nil h hrest
      subst done
      have last := decodeLast_symbols legible _ 0 (sextets_lt [a, b, c]) (fun _ => by simp [sextets])
        (fun h => absurd h (List.cons_ne_nil _ _))
        (by cases h : form.padded <;> simp [padsFit, h, sextets]) (group_three a b c []) offset
      rw [decodeGroups_last (by simp [sextets])]
      simpa using last
    | cons e tail =>
      rw [decodeGroups_three legible, ← hrest, ih]
      rfl

end Encode

theorem decode_encode {form : Form} (legible : form.Legible) (bs : Bytes) :
    decode form (encode form bs) = .ok bs := by
  have regular : strayLast? form (encode form bs) = none := if_neg (length_encode_mod bs)
  simp only [decode, regular, decodeGroups_encode legible]

theorem mem_encode_urlSafe (bs : Bytes) : ∀ s ∈ encode urlSafe bs, s ≠ '.'.toUInt8 ∧ s < 128 := by
  have symbols : ∀ n, n < 64 → symbol urlSafe n ≠ '.'.toUInt8 ∧ symbol urlSafe n < 128 := by decide
  intro s hs
  rcases mem_encode bs s hs with ⟨n, hn, rfl⟩ | ⟨padded, _⟩
  · exact symbols n hn
  · cases padded

end PushGateway.Base64
