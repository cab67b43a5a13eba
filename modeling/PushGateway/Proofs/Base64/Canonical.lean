import PushGateway.Proofs.Base64.RoundTrip

namespace PushGateway.Base64

variable {form : Form} {bs octets : Bytes} {vs : List Nat} {offset : Nat}

theorem symbol_of_value? {b : UInt8} {n : Nat} (read : value? form b = some n) :
    n < 64 ∧ symbol form n = b := by
  have upper : 'A'.toUInt8.toNat = 65 ∧ 'Z'.toUInt8.toNat = 90 ∧ 'A'.toNat = 65 := by decide
  have lower : 'a'.toUInt8.toNat = 97 ∧ 'z'.toUInt8.toNat = 122 ∧ 'a'.toNat = 97 := by decide
  have digits : '0'.toUInt8.toNat = 48 ∧ '9'.toUInt8.toNat = 57 ∧ '0'.toNat = 48 := by decide
  simp only [value?, UInt8.le_iff_toNat_le, upper, lower, digits] at read
  simp only [symbol, upper, lower, digits]
  split at read
  · cases read
    exact ⟨by omega, by rw [if_pos (by omega)]; exact toUInt8_eq (by omega)⟩
  · split at read
    · cases read
      refine ⟨by omega, ?_⟩
      rw [if_neg (by omega), if_pos (by omega)]
      exact toUInt8_eq (by omega)
    · split at read
      · cases read
        refine ⟨by omega, ?_⟩
        rw [if_neg (by omega), if_neg (by omega), if_pos (by omega)]
        exact toUInt8_eq (by omega)
      · split at read
        · next same =>
          cases read
          exact ⟨by omega, same.symm⟩
        · split at read
          · next same =>
            cases read
            exact ⟨by omega, same.symm⟩
          · cases read

theorem values_eq_ok (read : values form offset bs = .ok vs) :
    (∀ v ∈ vs, v < 64) ∧ vs.map (symbol form) = bs := by
  induction bs generalizing vs offset with
  | nil =>
    cases read
    exact ⟨nofun, rfl⟩
  | cons b bs ih =>
    rw [values] at read
    cases hv : value? form b with
    | none => simp [hv] at read
    | some v =>
      cases ht : values form (offset + 1) bs with
      | error e => simp [hv, ht, Except.map] at read
      | ok ws =>
        simp only [hv, ht, Except.map, Except.ok.injEq] at read
        subst read
        have tail := ih ht
        have head := symbol_of_value? hv
        exact ⟨List.forall_mem_cons.mpr ⟨head.1, tail.1⟩, by rw [List.map_cons, head.2, tail.2]⟩

section Group

variable {v w x y : Nat}

/-! A group's values are those that its octets are written with, where no unused bit is set. -/

theorem sextets_one (bound : ∀ n ∈ [v, w], n < 64) (unused : w % 16 = 0) :
    sextets [(v * 4 + w / 16).toUInt8] = [v, w] := by
  simp only [List.forall_mem_cons] at bound
  have a : (v * 4 + w / 16).toUInt8.toNat = v * 4 + w / 16 := Nat.mod_eq_of_lt (by omega)
  have first : (v * 4 + w / 16) / 4 = v := by omega
  have second : (v * 4 + w / 16) % 4 * 16 = w := by omega
  rw [sextets, a, first, second]

theorem sextets_two (bound : ∀ n ∈ [v, w, x], n < 64) (unused : x % 4 = 0) :
    sextets [(v * 4 + w / 16).toUInt8, (w % 16 * 16 + x / 4).toUInt8] = [v, w, x] := by
  simp only [List.forall_mem_cons] at bound
  have a : (v * 4 + w / 16).toUInt8.toNat = v * 4 + w / 16 := Nat.mod_eq_of_lt (by omega)
  have b : (w % 16 * 16 + x / 4).toUInt8.toNat = w % 16 * 16 + x / 4 := Nat.mod_eq_of_lt (by omega)
  have first : (v * 4 + w / 16) / 4 = v := by omega
  have second : (v * 4 + w / 16) % 4 * 16 + (w % 16 * 16 + x / 4) / 16 = w := by omega
  have third : (w % 16 * 16 + x / 4) % 16 * 4 = x := by omega
  rw [sextets, a, b, first, second, third]

theorem sextets_three (bound : ∀ n ∈ [v, w, x, y], n < 64) (rest : Bytes) :
    sextets ((v * 4 + w / 16).toUInt8 :: (w % 16 * 16 + x / 4).toUInt8 :: (x % 4 * 64 + y).toUInt8 :: rest) =
      [v, w, x, y] := by
  simp only [List.forall_mem_cons] at bound
  have a : (v * 4 + w / 16).toUInt8.toNat = v * 4 + w / 16 := Nat.mod_eq_of_lt (by omega)
  have b : (w % 16 * 16 + x / 4).toUInt8.toNat = w % 16 * 16 + x / 4 := Nat.mod_eq_of_lt (by omega)
  have c : (x % 4 * 64 + y).toUInt8.toNat = x % 4 * 64 + y := Nat.mod_eq_of_lt (by omega)
  have first : (v * 4 + w / 16) / 4 = v := by omega
  have second : (v * 4 + w / 16) % 4 * 16 + (w % 16 * 16 + x / 4) / 16 = w := by omega
  have third : (w % 16 * 16 + x / 4) % 16 * 4 + (x % 4 * 64 + y) / 64 = x := by omega
  have fourth : (x % 4 * 64 + y) % 64 = y := by omega
  rw [sextets, a, b, c, first, second, third, fourth]

theorem encode_of_group (bound : ∀ n ∈ vs, n < 64) (long : 2 ≤ vs.length) (short : vs.length ≤ 4)
    (read : group vs = (octets, true)) :
    encode form octets =
      vs.map (symbol form) ++ List.replicate (if form.padded then 4 - vs.length else 0) pad := by
  match vs with
  | [] | [_] => simp at long
  | [v, w] =>
    simp only [group, Prod.mk.injEq, decide_eq_true_eq] at read
    obtain ⟨rfl, unused⟩ := read
    rw [encode_one, sextets_one bound unused]
    rfl
  | [v, w, x] =>
    simp only [group, Prod.mk.injEq, decide_eq_true_eq] at read
    obtain ⟨rfl, unused⟩ := read
    rw [encode_two, sextets_two bound unused]
    rfl
  | [v, w, x, y] =>
    simp only [group, Prod.mk.injEq, and_true] at read
    subst read
    rw [encode_three, sextets_three bound]
    cases form.padded <;> rfl
  | _ :: _ :: _ :: _ :: _ :: _ =>
    simp only [List.length_cons] at short
    omega

end Group

theorem length_of_padsFit {symbols pads : Nat} (long : 2 ≤ symbols) (short : symbols + pads ≤ 4)
    (fit : padsFit form symbols pads = true) : pads = if form.padded then 4 - symbols else 0 := by
  unfold padsFit at fit
  split at fit
  · next padded =>
    rw [decide_eq_true_eq] at fit
    rw [if_pos padded]
    omega
  · next bare =>
    rw [if_neg bare]
    exact of_decide_eq_true fit

theorem decodeLast_eq_ok {tail : Bytes} (read : decodeLast form offset tail = .ok octets) :
    ∃ vs pads, tail = vs.map (symbol form) ++ pads ∧ (∀ v ∈ vs, v < 64) ∧ (∀ b ∈ pads, b = pad) ∧
      (tail ≠ [] → 2 ≤ vs.length) ∧ padsFit form vs.length pads.length = true ∧
      group vs = (octets, true) := by
  have whole : tail.takeWhile (· ≠ pad) ++ tail.dropWhile (· ≠ pad) = tail :=
    List.takeWhile_append_dropWhile
  unfold decodeLast at read
  dsimp only at read
  generalize tail.takeWhile (· ≠ pad) = symbols at read whole
  generalize tail.dropWhile (· ≠ pad) = pads at read whole
  subst whole
  cases hv : values form offset symbols with
  | error e =>
    rw [hv] at read
    cases read
  | ok vs =>
    obtain ⟨bound, rfl⟩ := values_eq_ok hv
    rw [hv] at read
    dsimp only at read
    split at read
    · cases read
    · next padsOnly =>
      split at read
      · cases read
      · next enough =>
        split at read
        · next fit =>
          split at read
          · next decoded =>
            cases read
            refine ⟨vs, pads, rfl, bound, fun b member => Decidable.byContradiction fun other => ?_,
              fun filled => Nat.not_lt.mp fun few => enough ⟨filled, few⟩, fit, decoded⟩
            refine padsOnly ⟨List.ne_nil_of_mem member, .inr ?_⟩
            exact List.any_eq_true.mpr ⟨b, member, decide_eq_true other⟩
          · cases read
        · cases read

theorem encode_of_decodeLast {tail : Bytes} (short : tail.length ≤ 4)
    (read : decodeLast form offset tail = .ok octets) : tail = encode form octets := by
  obtain ⟨vs, pads, rfl, bound, padsOnly, enough, fit, decoded⟩ := decodeLast_eq_ok read
  by_cases filled : vs.map (symbol form) ++ pads = []
  · obtain ⟨none, _⟩ := List.append_eq_nil_iff.mp filled
    rw [List.map_eq_nil_iff.mp none] at decoded
    cases decoded
    rw [filled]
    rfl
  · have long := enough filled
    rw [List.length_append, List.length_map] at short
    have count := length_of_padsFit long short fit
    rw [encode_of_group bound long (by omega) decoded, ← count, ← List.eq_replicate_of_mem padsOnly]

theorem encode_of_decodeGroups (read : decodeGroups form offset bs = .ok octets) :
    bs = encode form octets := by
  fun_induction decodeGroups form offset bs generalizing octets with
  | case1 => cases read
  | case2 offset a b c d e rest vs hv ih =>
    obtain ⟨bound, symbols⟩ := values_eq_ok hv
    cases more : decodeGroups form (offset + 4) (e :: rest) with
    | error err =>
      rw [more] at read
      cases read
    | ok octets' =>
      rw [more] at read
      cases read
      have four : vs.length = 4 := by rw [← List.length_map (symbol form), symbols]; rfl
      match vs with
      | [v, w, x, y] =>
        rw [ih more]
        dsimp only [group]
        simp only [List.cons_append, List.nil_append]
        rw [encode_three, sextets_three bound, symbols]
        rfl
  | case3 offset tail few =>
    refine encode_of_decodeLast ?_ read
    match tail with
    | [] | [_] | [_, _] | [_, _, _] | [_, _, _, _] => simp
    | a :: b :: c :: d :: e :: rest => exact (few a b c d e rest rfl).elim

theorem decode_eq_ok (legible : form.Legible) : decode form bs = .ok octets ↔ bs = encode form octets := by
  constructor
  · intro read
    unfold decode at read
    split at read
    · cases read
    · exact encode_of_decodeGroups read
  · rintro rfl
    exact decode_encode legible octets

end PushGateway.Base64
