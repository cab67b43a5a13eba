import PushGateway.Text.Utf8
/-!
DER read strictly: one-octet tags, lengths in their shortest form and below 65536, and integers without
needless leading octets. Readers take the head of the input and return the rest.
-/

namespace PushGateway.Der.Strict

def sequenceTag : UInt8 := 0x30

def booleanTag : UInt8 := 0x01

def integerTag : UInt8 := 0x02

def bitStringTag : UInt8 := 0x03

def octetStringTag : UInt8 := 0x04

def objectIdentifierTag : UInt8 := 0x06

/-- The constructed context tag with a number below 31. -/
def contextTag (n : UInt8) : UInt8 := 0xA0 + n

/-- The first `n` octets and the rest, when there are so many. -/
def split? (n : Nat) (bs : Bytes) : Option (Bytes × Bytes) :=
  if n ≤ bs.length then some (bs.take n, bs.drop n) else none

/-- Reads a length in its shortest form. -/
def length? : Bytes → Option (Nat × Bytes)
  | [] => none
  | b :: rest =>
    if b < 0x80 then some (b.toNat, rest)
    else if b = 0x81 then
      match rest with
      | c :: rest => if 0x80 ≤ c then some (c.toNat, rest) else none
      | [] => none
    else if b = 0x82 then
      match rest with
      | c :: d :: rest => if c = 0 then none else some (c.toNat * 256 + d.toNat, rest)
      | _ => none
    else none

def element? (tag : UInt8) : Bytes → Option (Bytes × Bytes)
  | [] => none
  | t :: rest =>
    if t = tag then (length? rest).bind fun (n, rest) => split? n rest else none

/-- The octets of a non-negative integer without its sign octet. -/
def magnitude? : Bytes → Option Bytes
  | [] => none
  | [0] => some [0]
  | 0 :: b :: rest => if 0x80 ≤ b then some (b :: rest) else none
  | b :: rest => if b < 0x80 then some (b :: rest) else none

def natural? (bs : Bytes) : Option (Bytes × Bytes) :=
  (element? integerTag bs).bind fun (content, rest) => (magnitude? content).map fun m => (m, rest)

/-- Reads a non-negative integer below 256. -/
def small? (bs : Bytes) : Option (Nat × Bytes) :=
  match natural? bs with
  | some ([b], rest) => some (b.toNat, rest)
  | _ => none

/-- The shortest form of a length below 65536. -/
def encodeLength (n : Nat) : Bytes :=
  if n < 0x80 then [n.toUInt8]
  else if n < 0x100 then [0x81, n.toUInt8]
  else [0x82, (n / 256).toUInt8, (n % 256).toUInt8]

def encode (tag : UInt8) (content : Bytes) : Bytes := tag :: encodeLength content.length ++ content

/-- The octets of a number without leading zeros, the most significant first; none for zero. -/
def naturalOctets (n : Nat) : Bytes :=
  if n = 0 then [] else naturalOctets (n / 256) ++ [(n % 256).toUInt8]
termination_by n

/-- The content of an integer: its octets, after a zero when the first would read as a sign. -/
def integerContent (n : Nat) : Bytes :=
  match naturalOctets n with
  | [] => [0]
  | b :: rest => if 0x80 ≤ b then 0 :: b :: rest else b :: rest

end PushGateway.Der.Strict
