import Mathlib.Data.List.Induction
import Mathlib.Data.Nat.Size
import PushGateway.Proofs.Key.Encoding

namespace PushGateway

namespace P256

theorem ofOctets_append (xs ys : Bytes) :
    ofOctets (xs ++ ys) = ofOctets xs * 256 ^ ys.length + ofOctets ys := by
  induction ys using List.reverseRecOn with
  | nil => simp [ofOctets]
  | append_singleton ys y ih =>
    rw [← List.append_assoc, ofOctets_concat, ofOctets_concat, ih, List.length_append,
      List.length_singleton, Nat.pow_succ, Nat.add_mul, Nat.mul_assoc, Nat.add_assoc]

theorem ofOctets_lt (xs : Bytes) : ofOctets xs < 256 ^ xs.length := by
  induction xs using List.reverseRecOn with
  | nil => decide
  | append_singleton xs x ih =>
    have octet := x.toNat_lt
    rw [ofOctets_concat, List.length_append, List.length_singleton, Nat.pow_succ]
    omega

theorem ofOctets_cons (x : UInt8) (xs : Bytes) :
    x.toNat * 256 ^ xs.length ≤ ofOctets (x :: xs) ∧
      ofOctets (x :: xs) < (x.toNat + 1) * 256 ^ xs.length := by
  have lower := ofOctets_lt xs
  have single : ofOctets [x] = x.toNat := by simp [ofOctets]
  rw [← List.singleton_append, ofOctets_append, single, Nat.add_mul]
  omega

end P256

namespace Der.Strict

variable {n : Nat} {content rest : Bytes}

theorem naturalOctets_pos (positive : n ≠ 0) :
    naturalOctets n = naturalOctets (n / 256) ++ [(n % 256).toUInt8] := by
  rw [naturalOctets, if_neg positive]

theorem toNat_octet (n : Nat) : (n % 256).toUInt8.toNat = n % 256 :=
  Nat.mod_eq_of_lt (Nat.mod_lt n (by decide))

theorem ofOctets_naturalOctets (n : Nat) : P256.ofOctets (naturalOctets n) = n := by
  induction n using Nat.strongRecOn with
  | ind n ih =>
    by_cases zero : n = 0
    · subst zero
      rw [naturalOctets, if_pos rfl]
      rfl
    · rw [naturalOctets_pos zero, P256.ofOctets_concat, ih (n / 256) (by omega), toNat_octet]
      exact Nat.div_add_mod' n 256

theorem naturalOctets_head {b : UInt8} (octets : naturalOctets n = b :: rest) : b ≠ 0 := by
  induction n using Nat.strongRecOn generalizing b rest with
  | ind n ih =>
    by_cases zero : n = 0
    · rw [naturalOctets, if_pos zero] at octets
      cases octets
    · rw [naturalOctets_pos zero] at octets
      cases higher : naturalOctets (n / 256) with
      | nil =>
        have low : n / 256 = 0 := by rw [← ofOctets_naturalOctets (n / 256), higher]; rfl
        rw [higher] at octets
        cases octets
        intro none
        have value := toNat_octet n
        rw [none] at value
        have : (0 : UInt8).toNat = 0 := rfl
        omega
      | cons c cs =>
        rw [higher] at octets
        cases octets
        exact ih (n / 256) (by omega) higher

theorem magnitude?_leading {b : UInt8} (leading : b ≠ 0) (low : b < 0x80) (rest : Bytes) :
    magnitude? (b :: rest) = some (b :: rest) := by
  unfold magnitude?
  split
  · next empty => cases empty
  · next zero => exact absurd (List.cons.inj zero).1 leading
  · next zero => exact absurd (List.cons.inj zero).1 leading
  · next same =>
    cases same
    exact if_pos low

theorem magnitude?_integerContent (n : Nat) :
    ∃ octets, magnitude? (integerContent n) = some octets ∧ P256.ofOctets octets = n := by
  have value := ofOctets_naturalOctets n
  cases octets : naturalOctets n with
  | nil =>
    rw [octets] at value
    exact ⟨[0], by rw [integerContent, octets]; rfl, value⟩
  | cons b rest =>
    have leading := naturalOctets_head octets
    rw [octets] at value
    refine ⟨b :: rest, ?_, value⟩
    rw [integerContent, octets]
    by_cases high : 0x80 ≤ b
    · simp only [if_pos high, magnitude?]
    · simp only [if_neg high, magnitude?_leading leading (UInt8.not_le.mp high)]

theorem integerContent_append (big : 256 ≤ n) :
    integerContent n = integerContent (n / 256) ++ [(n % 256).toUInt8] := by
  have split := naturalOctets_pos (n := n) (by omega)
  rw [integerContent, integerContent, split]
  cases octets : naturalOctets (n / 256) with
  | nil =>
    have value := ofOctets_naturalOctets (n / 256)
    rw [octets] at value
    have : P256.ofOctets [] = 0 := rfl
    omega
  | cons b rest => by_cases high : 0x80 ≤ b <;> simp [high]

theorem size_of_big (big : 256 ≤ n) : n.size = (n / 256).size + 8 := by
  have shift : ∀ k, 2 ^ (k + 8) = 2 ^ k * 256 := fun k => Nat.pow_add 2 k 8
  refine Nat.le_antisymm (Nat.size_le.mpr ?_) ?_
  · have upper : n / 256 < 2 ^ (n / 256).size := Nat.lt_size_self _
    rw [shift]
    omega
  · cases bits : (n / 256).size with
    | zero =>
      have nothing := Nat.size_eq_zero.mp bits
      omega
    | succ k =>
      have lower : 2 ^ k ≤ n / 256 := Nat.lt_size.mp (by omega)
      have bit : k + 8 < n.size := Nat.lt_size.mpr (by rw [shift]; omega)
      omega

theorem length_integerContent (n : Nat) : (integerContent n).length = n.size / 8 + 1 := by
  induction n using Nat.strongRecOn with
  | ind n ih =>
    by_cases big : 256 ≤ n
    · rw [integerContent_append big, List.length_append, ih (n / 256) (by omega), size_of_big big]
      simp only [List.length_singleton]
      omega
    · have small : ∀ n, n < 256 → (integerContent n).length = n.size / 8 + 1 := by decide +kernel
      exact small n (by omega)

theorem encodeLength_short (short : n < 0x80) : encodeLength n = [n.toUInt8] := if_pos short

theorem length_encode {tag : UInt8} (short : content.length < 0x80) :
    (encode tag content).length = content.length + 2 := by
  rw [encode, encodeLength_short short]
  simp

theorem element?_encode (tag : UInt8) (short : content.length < 0x80) (rest : Bytes) :
    element? tag (encode tag content ++ rest) = some (content, rest) := by
  have octet : content.length.toUInt8.toNat = content.length := Nat.mod_eq_of_lt (by omega)
  have low : content.length.toUInt8 < 0x80 := by
    rw [UInt8.lt_iff_toNat_lt, octet]
    exact short
  rw [encode, encodeLength_short short]
  simp only [List.cons_append, element?, if_true, length?, if_pos low, octet, Option.bind_some, split?]
  simp

theorem natural?_encode (short : (integerContent n).length < 0x80) (rest : Bytes) :
    ∃ octets, natural? (encode integerTag (integerContent n) ++ rest) = some (octets, rest) ∧
      P256.ofOctets octets = n := by
  obtain ⟨octets, read, value⟩ := magnitude?_integerContent n
  refine ⟨octets, ?_, value⟩
  simp only [natural?, element?_encode integerTag short, Option.bind_some, read, Option.map_some]

end Der.Strict

namespace Signature

open Der

variable {sig : Signature}

/-- The pair of numbers that a DER form of 64 octets is taken for. -/
def misread (sig : Signature) : Signature :=
  ⟨P256.ofOctets (sig.encodeDer.take 32), P256.ofOctets (sig.encodeDer.drop 32)⟩

theorem length_integerContent_le {n : Nat} (bound : n < P256.order) :
    (Strict.integerContent n).length ≤ 33 := by
  have bits : n.size ≤ 256 := Nat.size_le.mpr (Nat.lt_trans bound P256.order_lt)
  rw [Strict.length_integerContent]
  omega

theorem length_integers (hr : sig.r < P256.order) (hs : sig.s < P256.order) :
    (Strict.encode Strict.integerTag (Strict.integerContent sig.r) ++
      Strict.encode Strict.integerTag (Strict.integerContent sig.s)).length =
        6 + sig.r.size / 8 + sig.s.size / 8 := by
  have r := length_integerContent_le hr
  have s := length_integerContent_le hs
  rw [List.length_append, Strict.length_encode (by omega), Strict.length_encode (by omega),
    Strict.length_integerContent, Strict.length_integerContent]
  omega

theorem integers_short (hr : sig.r < P256.order) (hs : sig.s < P256.order) :
    (Strict.encode Strict.integerTag (Strict.integerContent sig.r) ++
      Strict.encode Strict.integerTag (Strict.integerContent sig.s)).length < 0x80 := by
  have r := length_integerContent_le hr
  have s := length_integerContent_le hs
  rw [Strict.length_integerContent] at r s
  rw [length_integers hr hs]
  omega

theorem length_encodeDer (hr : sig.r < P256.order) (hs : sig.s < P256.order) :
    sig.encodeDer.length = 8 + sig.r.size / 8 + sig.s.size / 8 := by
  rw [encodeDer, Strict.length_encode (integers_short hr hs), length_integers hr hs]
  omega

theorem decodeDer?_encodeDer (hr : sig.r < P256.order) (hs : sig.s < P256.order) :
    decodeDer? sig.encodeDer = some sig := by
  have outer := Strict.element?_encode Strict.sequenceTag (integers_short hr hs) []
  have r_short := length_integerContent_le hr
  have s_short := length_integerContent_le hs
  obtain ⟨r, read_r, value_r⟩ := Strict.natural?_encode (Nat.lt_of_le_of_lt r_short (by decide))
    (Strict.encode Strict.integerTag (Strict.integerContent sig.s))
  obtain ⟨s, read_s, value_s⟩ := Strict.natural?_encode (Nat.lt_of_le_of_lt s_short (by decide)) []
  rw [List.append_nil] at outer read_s
  simp only [decodeDer?, encodeDer, outer, read_r, read_s, value_r, value_s]

/-- The first half of such a form begins with the tag of the sequence. -/
theorem size_misread_r (long : sig.encodeDer.length = 64) : sig.misread.r.size = 254 := by
  obtain ⟨body, opened⟩ : ∃ body, sig.encodeDer = Strict.sequenceTag :: body := ⟨_, rfl⟩
  rw [opened, List.length_cons] at long
  have half : (body.take 31).length = 31 := by
    rw [List.length_take]
    omega
  have bounds := P256.ofOctets_cons Strict.sequenceTag (body.take 31)
  rw [half, show Strict.sequenceTag.toNat = 48 from rfl] at bounds
  simp only [misread, opened, List.take_succ_cons]
  refine Nat.le_antisymm (Nat.size_le.mpr ?_) (Nat.lt_size.mpr ?_)
  · exact Nat.lt_of_lt_of_le bounds.2 (by decide)
  · exact Nat.le_trans (by decide) bounds.1

theorem le_misread_s (long : sig.encodeDer.length = 64) (bits : sig.s.size / 8 = 25) :
    2 * 256 ^ 27 ≤ sig.misread.s := by
  obtain ⟨front, closed⟩ : ∃ front, sig.encodeDer =
      front ++ Strict.encode Strict.integerTag (Strict.integerContent sig.s) := by
    rw [encodeDer, Strict.encode, ← List.append_assoc]
    exact ⟨_, rfl⟩
  obtain ⟨content, tagged⟩ : ∃ content, Strict.encode Strict.integerTag (Strict.integerContent sig.s) =
      Strict.integerTag :: content := ⟨_, rfl⟩
  have octets := Strict.length_integerContent sig.s
  have length : content.length = 27 := by
    have all : (Strict.encode Strict.integerTag (Strict.integerContent sig.s)).length =
        (Strict.integerContent sig.s).length + 2 := Strict.length_encode (by omega)
    rw [tagged, List.length_cons] at all
    omega
  have ahead : 32 ≤ front.length := by
    rw [closed, tagged, List.length_append, List.length_cons] at long
    omega
  have bounds := P256.ofOctets_cons Strict.integerTag content
  rw [length, show Strict.integerTag.toNat = 2 from rfl] at bounds
  simp only [misread, closed, tagged, List.drop_append_of_le_length ahead, P256.ofOctets_append]
  exact Nat.le_trans bounds.1 (Nat.le_add_left _ _)

/-- A DER form of 64 octets stands for one pair of numbers and is taken for another. -/
theorem misread_ne (hr : sig.r < P256.order) (hs : sig.s < P256.order)
    (long : sig.encodeDer.length = 64) : sig.misread ≠ sig := by
  intro same
  have first : sig.r.size = 254 := by
    rw [← congrArg Signature.r same]
    exact size_misread_r long
  have length := length_encodeDer hr hs
  have bits : sig.s.size / 8 = 25 := by omega
  have second := le_misread_s long bits
  rw [congrArg Signature.s same] at second
  have narrow : sig.s < 2 ^ 208 := Nat.size_le.mp (by omega)
  have wide : 2 ^ 208 ≤ 2 * 256 ^ 27 := by decide
  omega

end Signature

namespace Verifier

variable {sig : Signature}

theorem verify_encodeFixed (hr : sig.r < P256.order) (hs : sig.s < P256.order) (v : Verifier)
    (message : Bytes) : v.verify message sig.encodeFixed = Ecdsa.verify v.point message sig := by
  have long := sig.length_encodeFixed
  simp only [verify, Signature.decode?, if_pos long, Signature.decodeFixed?_encodeFixed hr hs]

theorem verify_encodeDer (hr : sig.r < P256.order) (hs : sig.s < P256.order) (v : Verifier)
    (message : Bytes) : v.verify message sig.encodeDer =
      Ecdsa.verify v.point message (if sig.encodeDer.length = 64 then sig.misread else sig) := by
  by_cases long : sig.encodeDer.length = 64
  · have fixed : sig.encodeDer.length = Signature.fixedLength := long
    simp only [verify, Signature.decode?, Signature.decodeFixed?, if_pos fixed, if_pos long,
      Signature.misread]
  · have free : sig.encodeDer.length ≠ Signature.fixedLength := long
    simp only [verify, Signature.decode?, if_neg free, if_neg long, Signature.decodeDer?_encodeDer hr hs]

/-- Both encodings have the same verdict exactly when the DER form is not 64 octets long, or when the other
pair of numbers that it is then taken for has the verdict of the signature itself. -/
theorem verify_encodings_iff (sig : Signature) (range : sig.inRange = true) :
    (sig.encodeDer.length = 64 ↔ sig.r.size / 8 + sig.s.size / 8 = 56) ∧
    (sig.encodeDer.length = 64 → sig.misread ≠ sig) ∧
    ∀ (v : Verifier) (message : Bytes),
      v.verify message sig.encodeFixed = v.verify message sig.encodeDer ↔
        (sig.encodeDer.length = 64 →
          Ecdsa.verify v.point message sig.misread = Ecdsa.verify v.point message sig) := by
  obtain ⟨-, hr, -, hs⟩ := of_decide_eq_true range
  refine ⟨?_, Signature.misread_ne hr hs, fun v message => ?_⟩
  · rw [Signature.length_encodeDer hr hs]
    omega
  · rw [verify_encodeFixed hr hs, verify_encodeDer hr hs]
    by_cases long : sig.encodeDer.length = 64
    · rw [if_pos long]
      exact ⟨fun h _ => h.symm, fun h => (h long).symm⟩
    · rw [if_neg long]
      exact ⟨fun _ h => absurd h long, fun _ => rfl⟩

/-- A signature of the text "message" by the scalar 1, with the nonce 2. -/
def plainSignature : Signature where
  r := 0x7cf27b188d034f7e8a52380304b51ac3c08969e277f21b35a60b48fc47669978
  s := 0x1422c296b8ae320adae618dd7458622c69ba3197f9e8cccd66a6b7324887f0a2

theorem verify_encodings_iff_plain : plainSignature.inRange = true ∧ plainSignature.encodeDer.length ≠ 64 ∧
    ∃ v : Verifier, v.point = P256.generator ∧
      v.verify (Utf8.encode "message") plainSignature.encodeFixed = true ∧
      v.verify (Utf8.encode "message") plainSignature.encodeDer = true := by
  have range : plainSignature.inRange = true := by decide
  obtain ⟨length, -, agree⟩ := verify_encodings_iff plainSignature range
  have free : plainSignature.encodeDer.length ≠ 64 := mt length.mp (by decide +kernel)
  let v : Verifier := ⟨P256.generator, by decide +kernel⟩
  have holds : v.verify (Utf8.encode "message") plainSignature.encodeFixed = true := by decide +kernel
  refine ⟨range, free, v, rfl, holds, ?_⟩
  rw [← (agree v (Utf8.encode "message")).mpr fun long => absurd long free]
  exact holds

/-- The nonce 2 makes `shortSignature` of the text "message" with this key. -/
def shortKey : P256.Point where
  x := 0xfd4ccc50faec54ea3f3515ada85982d2007c41edb54c0fd1be71d9d2038f5af3
  y := 0x28e8761e092b46ccdd83e67abe37f284670c7f84121e82571608a5793e900f59

def shortSignature : Signature where
  r := 0x7cf27b188d034f7e8a52380304b51ac3c08969e277f21b35a60b48fc47669978
  s := 2 ^ 200

/-- The second number takes 26 octets, so the DER form takes 64 and is refused. -/
theorem verify_encodings_differ : ∃ v, Verifier.new "ES256" shortKey.encode = .ok v ∧
    shortSignature.inRange = true ∧ v.verify (Utf8.encode "message") shortSignature.encodeFixed = true ∧
    v.verify (Utf8.encode "message") shortSignature.encodeDer = false := by
  have range : shortSignature.inRange = true := by decide
  have evaluated : (Verifier.new "ES256" shortKey.encode).toOption.any (fun v =>
      v.verify (Utf8.encode "message") shortSignature.encodeFixed ∧
        v.verify (Utf8.encode "message") shortSignature.encodeDer = false) = true := by decide +kernel
  cases accepted : Verifier.new "ES256" shortKey.encode with
  | error e =>
    rw [accepted] at evaluated
    cases evaluated
  | ok v =>
    rw [accepted] at evaluated
    simp only [Except.toOption, Option.any_some, decide_eq_true_eq] at evaluated
    exact ⟨v, rfl, range, evaluated.1, evaluated.2⟩

end Verifier
end PushGateway
