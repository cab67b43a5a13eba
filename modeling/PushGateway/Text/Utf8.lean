/-!
Octets and text. Text is a `String`; files, token segments, certificates and network peers deliver
octets. `Utf8.decode?` accepts exactly the well-formed sequences, and `Utf8.decodeLossy` replaces each
maximal ill-formed part by U+FFFD. Main statement: decoding an encoded text gives it back.
-/

namespace PushGateway

/-- Octets in the order in which they are read. -/
abbrev Bytes := List UInt8

namespace Utf8

def encode (s : String) : Bytes := s.toUTF8.data.toList

/-- The text that a well-formed sequence of octets stands for. -/
def decode? (bs : Bytes) : Option String := String.fromUTF8? ⟨bs.toArray⟩

def encodeChar (c : Char) : Bytes := String.utf8EncodeChar c

@[simp] theorem decode?_encode (s : String) : decode? (encode s) = some s := by
  rw [decode?, encode, String.toUTF8_eq_toByteArray, String.fromUTF8?]
  exact dif_pos s.isValidUTF8

theorem encode_of_decode? {bs : Bytes} {s : String} (read : decode? bs = some s) : encode s = bs := by
  unfold decode? String.fromUTF8? at read
  split at read
  case isTrue =>
    cases read
    rfl
  case isFalse => cases read

/-- Where the second octet of a sequence must lie, given its first octet, and how many octets follow. -/
def leadRange? (b : UInt8) : Option (Nat × UInt8 × UInt8) :=
  if 0xC2 ≤ b ∧ b ≤ 0xDF then some (1, 0x80, 0xBF)
  else if b = 0xE0 then some (2, 0xA0, 0xBF)
  else if b = 0xED then some (2, 0x80, 0x9F)
  else if 0xE1 ≤ b ∧ b ≤ 0xEF then some (2, 0x80, 0xBF)
  else if b = 0xF0 then some (3, 0x90, 0xBF)
  else if 0xF1 ≤ b ∧ b ≤ 0xF3 then some (3, 0x80, 0xBF)
  else if b = 0xF4 then some (3, 0x80, 0x8F)
  else none

/-- The continuation octets at the head of the input, at most `n`, the first of them within bounds. -/
def continuation : Nat → UInt8 → UInt8 → Bytes → Bytes
  | 0, _, _, _ => []
  | _, _, _, [] => []
  | n + 1, lo, hi, b :: bs => if lo ≤ b ∧ b ≤ hi then b :: continuation n 0x80 0xBF bs else []

/-- The scalar value with the given lead octet and continuation octets. -/
def scalar (lead : UInt8) (tail : Bytes) : Char :=
  let payload := lead.toNat % (64 >>> tail.length)
  Char.ofNat (tail.foldl (fun v b => v * 64 + b.toNat % 64) payload)

/-- Replaces ill-formed parts; the count says how many octets of the head are already accounted for. -/
def replaceFrom : Nat → Bytes → List Char
  | _, [] => []
  | skip + 1, _ :: rest => replaceFrom skip rest
  | 0, b :: rest =>
    if b < 0x80 then Char.ofNat b.toNat :: replaceFrom 0 rest
    else match leadRange? b with
      | none => '\uFFFD' :: replaceFrom 0 rest
      | some (n, lo, hi) =>
        let tail := continuation n lo hi rest
        (if tail.length = n then scalar b tail else '\uFFFD') :: replaceFrom tail.length rest

/-- The text of any octets: each maximal ill-formed part becomes one U+FFFD. -/
def decodeLossy (bs : Bytes) : String :=
  match decode? bs with
  | some s => s
  | none => String.ofList (replaceFrom 0 bs)

end Utf8
end PushGateway
