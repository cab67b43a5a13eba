import PushGateway.Proofs.Json.Halting
import PushGateway.Proofs.Text.Sequences
/-!
The spellings of a string: each character as itself, with a letter, by its number, or as a pair of numbers.
-/

namespace PushGateway.Json

def shortEscapes : List (Char × Char) :=
  [('"', '"'), ('\\', '\\'), ('/', '/'), ('b', '\x08'), ('f', '\x0C'), ('n', '\n'), ('r', '\r'), ('t', '\t')]

def pairNumber (high low : Nat) : Nat := 0x10000 + (high - 0xD800) * 0x400 + (low - 0xDC00)

inductive Spells : Char → Bytes → Prop where
  | bare {c : Char} : 0x20 ≤ c.toNat → c ≠ '"' → c ≠ '\\' → Spells c (Utf8.encodeChar c)
  | letter {l c : Char} : (l, c) ∈ shortEscapes → Spells c [backslash, l.toUInt8]
  | number {c : Char} {w x y z : UInt8} : hex4? w x y z = some c.toNat → Spells c [backslash, 'u'.toUInt8, w, x, y, z]
  | pair {c : Char} {high low : Nat} {w x y z w' x' y' z' : UInt8} : hex4? w x y z = some high →
      hex4? w' x' y' z' = some low → isHighSurrogate high = true → isLowSurrogate low = true →
      c.toNat = pairNumber high low →
      Spells c [backslash, 'u'.toUInt8, w, x, y, z, backslash, 'u'.toUInt8, w', x', y', z']

inductive Spelling : List Char → Bytes → Prop where
  | close : Spelling [] [quotationMark]
  | char {c : Char} {cs : List Char} {x w : Bytes} : Spells c x → Spelling cs w → Spelling (c :: cs) (x ++ w)

section Writing

variable {c : Char} {cs : List Char} {x w os rest more : Bytes} {b : UInt8}

def Bare (b : UInt8) : Prop := b ≠ quotationMark ∧ b ≠ backslash ∧ ¬ b < 0x20

theorem bare_of_mem_encodeChar (solid : 0x20 ≤ c.toNat) (quote : c ≠ '"') (back : c ≠ '\\')
    (member : b ∈ Utf8.encodeChar c) : Bare b := by
  by_cases ascii : b < 128
  · obtain rfl := Utf8.eq_of_mem_encodeChar ascii member
    refine ⟨?_, ?_, fun control => ?_⟩
    · rintro rfl
      exact quote (by decide)
    · rintro rfl
      exact back (by decide)
    · have codes : ∀ n, n < 0x20 → (Char.ofNat n).toNat = n := by decide
      have small : b.toNat < 0x20 := UInt8.lt_iff_toNat_lt.mp control
      rw [codes b.toNat small] at solid
      omega
  · refine ⟨?_, ?_, fun control => ascii (UInt8.lt_trans control (by decide))⟩ <;>
      rintro rfl <;> exact ascii (by decide)

theorem textOctets_bare (bare : Bare b) : textOctets (b :: more) = (textOctets more).map (b :: ·) := by
  rw [textOctets.eq_def]
  simp only [if_neg bare.1, if_neg bare.2.2, if_pos bare.2.1]

theorem textOctets_bares (bare : ∀ b ∈ x, Bare b) (read : textOctets more = .done os rest) :
    textOctets (x ++ more) = .done (x ++ os) rest := by
  induction x with
  | nil => exact read
  | cons b x ih =>
    obtain ⟨first, others⟩ := List.forall_mem_cons.mp bare
    rw [List.cons_append, textOctets_bare first, ih others]
    rfl

theorem escaped?_shortEscapes :
    ∀ e ∈ shortEscapes, ∃ v, escaped? e.1.toUInt8 = some v ∧ Utf8.encodeChar e.2 = [v] := by decide

theorem not_surrogate (c : Char) : isLowSurrogate c.toNat = false ∧ isHighSurrogate c.toNat = false := by
  have valid := c.valid
  simp only [isLowSurrogate, isHighSurrogate, decide_eq_false_iff_not, not_and, Char.toNat]
  simp only [UInt32.isValidChar, Nat.isValidChar] at valid
  omega

theorem surrogatePair_eq (high low : Nat) : surrogatePair high low = codePoint (pairNumber high low) := rfl

theorem codePoint_toNat (c : Char) : codePoint c.toNat = Utf8.encodeChar c := by
  rw [codePoint, Char.ofNat_toNat]

theorem Spells.octets (spells : Spells c x) (read : textOctets more = .done os rest) :
    textOctets (x ++ more) = .done (Utf8.encodeChar c ++ os) rest := by
  cases spells with
  | bare solid quote back => exact textOctets_bares (fun b => bare_of_mem_encodeChar solid quote back) read
  | @letter l _ listed =>
    obtain ⟨v, known, char⟩ := escaped?_shortEscapes _ listed
    rw [char, List.cons_append, List.singleton_append, textOctets.eq_def]
    simp only [backslash_ne, ne_eq, not_true_eq_false, if_false, known, read]
    rfl
  | number hex =>
    obtain ⟨low, high⟩ := not_surrogate c
    simp only [List.cons_append, List.nil_append, textOctets_number hex, low, high, Bool.false_eq_true, if_false, read,
      codePoint_toNat]
    rfl
  | @pair _ n m _ _ _ _ _ _ _ _ hex hex' high low same =>
    have notLow : isLowSurrogate n = false := by
      simp only [isHighSurrogate, isLowSurrogate, decide_eq_true_eq, decide_eq_false_iff_not] at high ⊢
      omega
    have char : surrogatePair n m = Utf8.encodeChar c := by
      rw [surrogatePair_eq, ← same, codePoint_toNat]
    simp only [List.cons_append, List.nil_append, textOctets_number hex, notLow, high, Bool.false_eq_true, if_false,
      if_true, afterHigh, ne_eq, not_true_eq_false, hex', low, read, char]
    rfl

theorem Spelling.octets (spelling : Spelling cs w) (rest : Bytes) :
    textOctets (w ++ rest) = .done (cs.flatMap Utf8.encodeChar) rest := by
  induction spelling with
  | close =>
    rw [List.singleton_append, textOctets.eq_def]
    simp only [if_true]
    rfl
  | char spells _ ih =>
    rw [List.append_assoc]
    exact spells.octets ih

theorem Spelling.read {s : String} (spelling : Spelling s.toList w) (rest : Bytes) :
    readText (w ++ rest) = .done s rest := by
  have octets := spelling.octets rest
  rw [← Utf8.encode_eq_flatMap] at octets
  simp only [readText, octets, Utf8.decode?_encode]

theorem TextTail.bares (bare : ∀ b ∈ x, Bare b) (tail : TextTail w) : TextTail (x ++ w) := by
  induction x with
  | nil => exact tail
  | cons b x ih =>
    obtain ⟨first, others⟩ := List.forall_mem_cons.mp bare
    exact .plain first.1 first.2.1 first.2.2 (ih others)

theorem Spelling.tail (spelling : Spelling cs w) : TextTail w := by
  induction spelling with
  | close => exact .close
  | char spells _ ih =>
    cases spells with
    | bare solid quote back => exact ih.bares fun b => bare_of_mem_encodeChar solid quote back
    | letter listed =>
      obtain ⟨v, known, -⟩ := escaped?_shortEscapes _ listed
      exact .letter (known ▸ rfl) ih
    | number hex => exact .number (hex ▸ rfl) ih
    | pair hex hex' => exact .number (hex ▸ rfl) (.number (hex' ▸ rfl) ih)

end Writing

section Reading

variable {c : Char} {cs : List Char} {x y w os ks bs rest : Bytes} {b : UInt8}

/-- The parts of a string that are read at once, each with the octets that it stands for. -/
inductive Piece : Bytes → Bytes → Prop where
  | bare {b : UInt8} : Bare b → Piece [b] [b]
  | letter {l v : UInt8} : escaped? l = some v → Piece [backslash, l] [v]
  | number {w x y z : UInt8} {n : Nat} : hex4? w x y z = some n → isLowSurrogate n = false →
      isHighSurrogate n = false → Piece [backslash, 'u'.toUInt8, w, x, y, z] (codePoint n)
  | pair {w x y z w' x' y' z' : UInt8} {high low : Nat} : hex4? w x y z = some high →
      hex4? w' x' y' z' = some low → isHighSurrogate high = true → isLowSurrogate low = true →
      Piece [backslash, 'u'.toUInt8, w, x, y, z, backslash, 'u'.toUInt8, w', x', y', z'] (surrogatePair high low)

inductive Pieces : Bytes → Bytes → Prop where
  | close : Pieces [quotationMark] []
  | piece {x y w os : Bytes} : Piece x y → Pieces w os → Pieces (x ++ w) (y ++ os)

theorem pieces_of_textOctets (read : textOctets bs = .done os rest) : ∃ w, Pieces w os ∧ bs = w ++ rest := by
  have first {x y bs os} (piece : Piece x y) (others : ∃ w, Pieces w os ∧ bs = w ++ rest) :
      ∃ w, Pieces w (y ++ os) ∧ x ++ bs = w ++ rest := by
    obtain ⟨w, pieces, rfl⟩ := others
    exact ⟨x ++ w, .piece piece pieces, (List.append_assoc x w rest).symm⟩
  fun_induction textOctets bs generalizing os with
  | case2 more =>
    cases read
    exact ⟨_, .close, rfl⟩
  | case4 b more quote control plain ih =>
    obtain ⟨os, inner, rfl⟩ := Outcome.map_eq_done.mp read
    exact first (.bare ⟨quote, plain, control⟩) (ih inner)
  | case6 b _ _ solidus c more _ known ih =>
    obtain rfl := not_not.mp solidus
    obtain ⟨os, inner, rfl⟩ := Outcome.map_eq_done.mp read
    exact first (.letter known) (ih inner)
  | case10 b _ _ solidus c _ letter w x y z more n hex low high ih =>
    obtain rfl := not_not.mp solidus
    obtain rfl := not_not.mp letter
    obtain ⟨os, inner, rfl⟩ := Outcome.map_eq_done.mp read
    exact first (.number hex (eq_false_of_ne_true low) (by simpa using high)) (ih inner)
  | case16 b _ _ solidus c _ letter w x y z n hex low high d solidus' e letter' w' x' y' z' more m hex' low' ih =>
    obtain rfl := not_not.mp solidus
    obtain rfl := not_not.mp letter
    obtain rfl := not_not.mp solidus'
    obtain rfl := not_not.mp letter'
    obtain ⟨os, inner, rfl⟩ := Outcome.map_eq_done.mp read
    exact first (.pair hex hex' (by simpa using high) low') (ih inner)
  | _ => cases read

theorem hexValue?_lt {n : Nat} (digit : hexValue? b = some n) : n < 16 := by
  have values : ∀ m, m < 256 → ∀ n ∈ hexValue? m.toUInt8, n < 16 := by decide +kernel
  refine values b.toNat b.toNat_lt n ?_
  rwa [show b.toNat.toUInt8 = b from UInt8.ofNat_toNat]

theorem hex4?_lt {w x y z : UInt8} {n : Nat} (hex : hex4? w x y z = some n) : n < 0x10000 := by
  simp only [hex4?, Option.bind_eq_bind, Option.bind_eq_some_iff, Option.pure_def, Option.some.injEq] at hex
  obtain ⟨i, hi, j, hj, k, hk, l, hl, rfl⟩ := hex
  have := hexValue?_lt hi
  have := hexValue?_lt hj
  have := hexValue?_lt hk
  have := hexValue?_lt hl
  omega

theorem escaped?_listed {l v : UInt8} (known : escaped? l = some v) :
    v < 128 ∧ ∃ e ∈ shortEscapes, e.1.toUInt8 = l ∧ e.2 = Char.ofNat v.toNat := by
  have letters : ∀ m, m < 256 → ∀ v ∈ escaped? m.toUInt8,
      v < 128 ∧ ∃ e ∈ shortEscapes, e.1.toUInt8 = m.toUInt8 ∧ e.2 = Char.ofNat v.toNat := by decide +kernel
  have same : l.toNat.toUInt8 = l := UInt8.ofNat_toNat
  have listed := letters l.toNat l.toNat_lt v (same.symm ▸ known)
  rwa [same] at listed

theorem toNat_ofNat {n : Nat} (valid : n.isValidChar) : (Char.ofNat n).toNat = n := by
  rw [Char.ofNat, dif_pos valid]
  rfl

theorem pairNumber_valid {high low : Nat} (isHigh : isHighSurrogate high = true) (isLow : isLowSurrogate low = true) :
    (pairNumber high low).isValidChar := by
  have ⟨_, highest⟩ := of_decide_eq_true isHigh
  have ⟨_, lowest⟩ := of_decide_eq_true isLow
  refine .inr ⟨?_, ?_⟩ <;> unfold pairNumber <;> omega

theorem Piece.ne_nil (piece : Piece x y) : y ≠ [] := by
  cases piece with
  | bare => exact List.cons_ne_nil _ _
  | letter => exact List.cons_ne_nil _ _
  | number => exact Utf8.encodeChar_ne_nil _
  | pair =>
    rw [surrogatePair_eq]
    exact Utf8.encodeChar_ne_nil _

theorem Pieces.continued (pieces : Pieces w (ks ++ os)) (continues : ∀ k ∈ ks, Utf8.Continues k) :
    ∃ v, w = ks ++ v ∧ Pieces v os := by
  induction ks generalizing w with
  | nil => exact ⟨w, rfl, pieces⟩
  | cons k ks ih =>
    obtain ⟨first, others⟩ := List.forall_mem_cons.mp continues
    generalize same : k :: ks ++ os = all at pieces
    cases pieces with
    | close => cases same
    | @piece x y w os' piece pieces =>
      -- every other piece begins a character
      have lead {c : Char} {more : Bytes} (same : k :: (ks ++ os) = Utf8.encodeChar c ++ more) : False := by
        obtain ⟨b, cs, char, begins, -⟩ := Utf8.encodeChar_lead c
        rw [char, List.cons_append] at same
        exact begins ((List.cons.inj same).1 ▸ first)
      cases piece with
      | bare _ =>
        obtain ⟨rfl, rfl⟩ := List.cons.inj same
        obtain ⟨v, rfl, later⟩ := ih pieces others
        exact ⟨v, rfl, later⟩
      | letter known =>
        obtain ⟨rfl, -⟩ := List.cons.inj same
        exact absurd first (Utf8.not_continues_of_ascii (escaped?_listed known).1)
      | number => exact (lead same).elim
      | pair =>
        rw [surrogatePair_eq] at same
        exact (lead same).elim

theorem Spells.of_bare (bare : Bare b) (char : Utf8.encodeChar c = b :: ks) : Spells c (b :: ks) := by
  rw [← char]
  refine .bare ?_ ?_ ?_
  · by_contra control
    have codes : ∀ n, n < 0x20 → Utf8.encodeChar (Char.ofNat n) = [n.toUInt8] ∧ n.toUInt8 < 0x20 := by decide
    obtain ⟨octets, small⟩ := codes c.toNat (Nat.not_le.mp control)
    rw [Char.ofNat_toNat] at octets
    rw [octets] at char
    exact bare.2.2 ((List.cons.inj char).1 ▸ small)
  · rintro rfl
    exact bare.1 (List.cons.inj char).1.symm
  · rintro rfl
    exact bare.2.1 (List.cons.inj char).1.symm

theorem Piece.spells {more : Bytes} (piece : Piece x y) (pieces : Pieces w os)
    (same : Utf8.encodeChar c ++ more = y ++ os) : ∃ x' v, Spells c x' ∧ Pieces v more ∧ x ++ w = x' ++ v := by
  have whole {d : Char} (one : y = Utf8.encodeChar d) (spells : Spells d x) :
      ∃ x' v, Spells c x' ∧ Pieces v more ∧ x ++ w = x' ++ v := by
    rw [one] at same
    obtain ⟨rfl, rfl⟩ := Utf8.encodeChar_append_inj same
    exact ⟨x, w, spells, pieces, rfl⟩
  cases piece with
  | @bare b bare =>
    obtain ⟨b', ks, char, -, continues⟩ := Utf8.encodeChar_lead c
    have octets := same
    rw [char, List.cons_append, List.singleton_append] at octets
    obtain ⟨rfl, rfl⟩ := List.cons.inj octets
    obtain ⟨v, rfl, later⟩ := pieces.continued continues
    exact ⟨_, v, .of_bare bare char, later, rfl⟩
  | @letter l v known =>
    obtain ⟨ascii, e, listed, rfl, char⟩ := escaped?_listed known
    refine whole (d := e.2) ?_ (.letter listed)
    rw [char, Utf8.encodeChar_ascii ascii]
  | @number _ _ _ _ n hex low high =>
    have small := hex4?_lt hex
    have valid : n.isValidChar := by
      simp only [isLowSurrogate, isHighSurrogate, decide_eq_false_iff_not] at low high
      simp only [Nat.isValidChar]
      omega
    exact whole (d := Char.ofNat n) rfl (.number (by rw [toNat_ofNat valid, hex]))
  | @pair _ _ _ _ _ _ _ _ n m hex hex' high low =>
    have valid : (pairNumber n m).isValidChar := pairNumber_valid high low
    have number := toNat_ofNat valid
    have spells : Spells (Char.ofNat (pairNumber n m)) _ := .pair hex hex' high low number
    exact whole (surrogatePair_eq n m) spells

theorem Pieces.spelling (pieces : Pieces w (cs.flatMap Utf8.encodeChar)) : Spelling cs w := by
  induction cs generalizing w with
  | nil =>
    generalize same : [].flatMap Utf8.encodeChar = os at pieces
    cases pieces with
    | close => exact .close
    | piece piece _ => exact absurd (List.append_eq_nil_iff.mp same.symm).1 piece.ne_nil
  | cons c cs ih =>
    generalize same : (c :: cs).flatMap Utf8.encodeChar = os at pieces
    rw [List.flatMap_cons] at same
    cases pieces with
    | close => exact absurd (List.append_eq_nil_iff.mp same).1 (Utf8.encodeChar_ne_nil c)
    | piece piece pieces =>
      obtain ⟨x, v, spells, later, octets⟩ := piece.spells pieces same
      rw [octets]
      exact .char spells (ih later)

end Reading

/-- A string is read from its spellings and from nothing else. -/
theorem readText_eq_done {s : String} {bs rest : Bytes} :
    readText bs = .done s rest ↔ ∃ w, Spelling s.toList w ∧ bs = w ++ rest := by
  constructor
  · intro read
    have octets := readText_octets read
    rw [Utf8.encode_eq_flatMap] at octets
    obtain ⟨w, pieces, rfl⟩ := pieces_of_textOctets octets
    exact ⟨w, pieces.spelling, rfl⟩
  · rintro ⟨w, spelling, rfl⟩
    exact spelling.read rest

end PushGateway.Json
