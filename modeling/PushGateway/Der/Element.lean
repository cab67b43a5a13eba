import PushGateway.Text.Utf8
/-!
DER read leniently, as certificates and public keys are: lengths need not be in their shortest form, and
an element's tag is known by its number. Indefinite lengths are refused.
-/

namespace PushGateway.Der

/-- How reports name what is wrong with a DER document; they give no details. -/
def complaint : String := "<der>"

/-- An element without its content's structure. -/
structure Element where
  /-- 0 universal, 1 application, 2 context, 3 private. -/
  tagClass : Nat
  constructed : Bool
  tag : Nat
  content : Bytes
  deriving DecidableEq, Repr

namespace Tag

def boolean : Nat := 1
def integer : Nat := 2
def bitString : Nat := 3
def octetString : Nat := 4
def utf8String : Nat := 12
def sequence : Nat := 16
def set : Nat := 17
def numericString : Nat := 18
def printableString : Nat := 19
def ia5String : Nat := 22
def utcTime : Nat := 23
def generalizedTime : Nat := 24

end Tag

/-- Continues a tag number of several octets, at most `fuel` of them; it is kept in 32 bits. -/
def longTag? (acc : Nat) : Nat → Bytes → Option (Nat × Bytes)
  | 0, _ => none
  | _, [] => none
  | fuel + 1, b :: rest =>
    let n := (acc * 128 + b.toNat % 128) % 4294967296
    if b < 0x80 then some (n, rest) else longTag? n fuel rest

/-- Reads a tag number that does not fit the first octet, given without its upper bits. -/
def tag? (first : UInt8) (rest : Bytes) : Option (Nat × Bytes) :=
  let low := first.toNat % 32
  if low = 31 then longTag? 0 5 rest else some (low, rest)

/-- The number that length octets stand for, when it fits 64 bits. -/
def lengthNumber? (bs : Bytes) : Option Nat :=
  let n := bs.foldl (fun n b => n * 256 + b.toNat) 0
  if n < 18446744073709551616 then some n else none

def length? : Bytes → Option (Nat × Bytes)
  | [] => none
  | b :: rest =>
    if b < 0x80 then some (b.toNat, rest)
    else if b = 0x80 ∨ b = 0xFF then none
    else
      let count := b.toNat - 0x80
      if rest.length < count then none
      else (lengthNumber? (rest.take count)).map fun n => (n, rest.drop count)

def element? : Bytes → Option (Element × Bytes)
  | [] => none
  | b :: rest =>
    (tag? b rest).bind fun (tag, rest) =>
      (length? rest).bind fun (n, rest) =>
        if n ≤ rest.length then
          some (⟨b.toNat / 64, b.toNat / 32 % 2 = 1, tag, rest.take n⟩, rest.drop n)
        else none

def tagged? (tag : Nat) (bs : Bytes) : Option (Element × Bytes) :=
  match element? bs with
  | some (e, rest) => if e.tag = tag then some (e, rest) else none
  | none => none

/-- Reads as many items as there are, at most `fuel`, and returns what is left. -/
def manyFrom {α : Type} (item? : Bytes → Option (α × Bytes)) : Nat → Bytes → List α × Bytes
  | 0, bs => ([], bs)
  | fuel + 1, bs =>
    match item? bs with
    | none => ([], bs)
    | some (a, rest) =>
      let (others, left) := manyFrom item? fuel rest
      (a :: others, left)

/-- Reads as many items as there are; each takes an octet or more. -/
def many {α : Type} (item? : Bytes → Option (α × Bytes)) (bs : Bytes) : List α × Bytes :=
  manyFrom item? bs.length bs

/-- How many zero bits an octet ends in. -/
def trailingZeros (b : UInt8) : Nat := ((List.range 8).takeWhile fun i => !b.toNat.testBit i).length

/-- The octets of a bit string: primitive, with a count of unused bits, which must be zero. -/
def Element.bits? (e : Element) : Option Bytes :=
  if e.tag ≠ Tag.bitString ∨ e.constructed then none
  else match e.content with
    | [] => none
    | unused :: data =>
      match data.getLast? with
      | none => if unused = 0 then some [] else none
      | some last => if unused ≤ 7 ∧ unused.toNat ≤ trailingZeros last then some data else none

end PushGateway.Der
