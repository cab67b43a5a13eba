import PushGateway.Der.Element
/-!
Object identifiers and their dotted text.
-/

namespace PushGateway.Der

structure Oid where
  octets : Bytes
  deriving DecidableEq, Repr

namespace Oid

/-- The numbers after the first octet, each in base 128; an unfinished last one counts as it is. -/
def arcs (acc : Nat) (unfinished : Bool) : Bytes → List Nat
  | [] => if unfinished then [acc] else []
  | b :: rest =>
    let n := (acc * 128 + b.toNat % 128) % 18446744073709551616
    if b < 0x80 then n :: arcs 0 false rest else arcs n true rest

/-- Whether some finished number has more than nine digits in base 128. -/
def oversized (digits : Nat) : Bytes → Bool
  | [] => false
  | b :: rest => if b < 0x80 then digits + 1 > 9 || oversized 0 rest else oversized (digits + 1) rest

/-- The numbers of the identifier: the first octet holds two of them. -/
def numbers : Bytes → List Nat
  | [] => []
  | [0] => [0]
  | b :: rest => b.toNat / 40 :: b.toNat % 40 :: arcs 0 false rest

def hexOctet (b : UInt8) : String :=
  String.ofList [Nat.digitChar (b.toNat / 16), Nat.digitChar (b.toNat % 16)]

/-- Dotted numbers, or the octets in hexadecimal when a number is too large. -/
def text (o : Oid) : String :=
  if oversized 0 o.octets.tail then " ".intercalate (o.octets.map hexOctet)
  else ".".intercalate ((numbers o.octets).map toString)

end Oid

/-- Reads an identifier: any primitive element will do. -/
def oid? (bs : Bytes) : Option (Oid × Bytes) :=
  match element? bs with
  | some (e, rest) => if e.constructed then none else some (⟨e.content⟩, rest)
  | none => none

end PushGateway.Der
