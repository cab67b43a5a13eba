import PushGateway.Text.Utf8
/-!
Base64 in the two forms the gateway meets: token segments use the URL-safe alphabet without padding,
fixture keys and certificate files the standard alphabet with padding. Reading is strict: every octet
belongs to the alphabet, padding is exactly as the form says, and unused bits are zero.
-/

namespace PushGateway.Base64

/-- An alphabet, named by its last two symbols, and whether groups are completed by `=`. -/
structure Form where
  symbol62 : Char
  symbol63 : Char
  padded : Bool

def standard : Form := ⟨'+', '/', true⟩

def urlSafe : Form := ⟨'-', '_', false⟩

/-- Why a text is not base64 of its form. Offsets count octets from the start. -/
inductive Error where
  | symbol (octet : UInt8) (offset : Nat)
  | length (count : Nat)
  | lastSymbol (octet : UInt8) (offset : Nat)
  | padding
  deriving DecidableEq, Repr

namespace Error

def message : Error → String
  | .symbol b offset => s!"Invalid symbol {b.toNat}, offset {offset}."
  | .length n => s!"Invalid input length: {n}"
  | .lastSymbol b offset => s!"Invalid last symbol {b.toNat}, offset {offset}."
  | .padding => "Invalid padding"

end Error

/-- The sign that completes a group. -/
def pad : UInt8 := '='.toUInt8

def symbol (form : Form) (n : Nat) : UInt8 :=
  if n < 26 then ('A'.toNat + n).toUInt8
  else if n < 52 then ('a'.toNat + (n - 26)).toUInt8
  else if n < 62 then ('0'.toNat + (n - 52)).toUInt8
  else if n = 62 then form.symbol62.toUInt8
  else form.symbol63.toUInt8

def value? (form : Form) (b : UInt8) : Option Nat :=
  if 'A'.toUInt8 ≤ b ∧ b ≤ 'Z'.toUInt8 then some (b.toNat - 'A'.toNat)
  else if 'a'.toUInt8 ≤ b ∧ b ≤ 'z'.toUInt8 then some (b.toNat - 'a'.toNat + 26)
  else if '0'.toUInt8 ≤ b ∧ b ≤ '9'.toUInt8 then some (b.toNat - '0'.toNat + 52)
  else if b = form.symbol62.toUInt8 then some 62
  else if b = form.symbol63.toUInt8 then some 63
  else none

/-- Three octets become four symbols; a shorter last group is completed as the form says. -/
def encode (form : Form) : Bytes → Bytes
  | [] => []
  | [a] =>
    [symbol form (a.toNat / 4), symbol form (a.toNat % 4 * 16)] ++
      if form.padded then [pad, pad] else []
  | [a, b] =>
    [symbol form (a.toNat / 4), symbol form (a.toNat % 4 * 16 + b.toNat / 16),
      symbol form (b.toNat % 16 * 4)] ++ if form.padded then [pad] else []
  | a :: b :: c :: rest =>
    symbol form (a.toNat / 4) :: symbol form (a.toNat % 4 * 16 + b.toNat / 16) ::
      symbol form (b.toNat % 16 * 4 + c.toNat / 64) :: symbol form (c.toNat % 64) :: encode form rest

/-- The values of symbols that stand from `offset` on. -/
def values (form : Form) (offset : Nat) : Bytes → Except Error (List Nat)
  | [] => .ok []
  | b :: rest =>
    match value? form b with
    | none => .error (.symbol b offset)
    | some v => (values form (offset + 1) rest).map (v :: ·)

/-- The octets of a group of two to four values, and whether its unused bits are zero. -/
def group : List Nat → Bytes × Bool
  | [v, w] => ([(v * 4 + w / 16).toUInt8], w % 16 = 0)
  | [v, w, x] => ([(v * 4 + w / 16).toUInt8, (w % 16 * 16 + x / 4).toUInt8], x % 4 = 0)
  | [v, w, x, y] =>
    ([(v * 4 + w / 16).toUInt8, (w % 16 * 16 + x / 4).toUInt8, (x % 4 * 64 + y).toUInt8], true)
  | _ => ([], true)

/-- Whether the number of pads is the one the form asks for after `symbols` symbols. -/
def padsFit (form : Form) (symbols pads : Nat) : Bool :=
  if form.padded then (symbols + pads) % 4 = 0 else pads = 0

/-- Reads the last group, which starts at `offset` and alone may hold padding. -/
def decodeLast (form : Form) (offset : Nat) (tail : Bytes) : Except Error Bytes :=
  let symbols := tail.takeWhile (· ≠ pad)
  let pads := tail.dropWhile (· ≠ pad)
  match values form offset symbols with
  | .error e => .error e
  | .ok vs =>
    if pads ≠ [] ∧ (vs.length < 2 ∨ pads.any (· ≠ pad)) then .error (.symbol pad (offset + vs.length))
    else if tail ≠ [] ∧ vs.length < 2 then .error (.length (offset + vs.length))
    else if padsFit form vs.length pads.length then
      match group vs with
      | (octets, true) => .ok octets
      | (_, false) => .error (.lastSymbol (symbols.getLastD pad) (offset + vs.length - 1))
    else .error .padding

/-- Reads group after group from `offset` on; a group that something follows holds four symbols. -/
def decodeGroups (form : Form) (offset : Nat) : Bytes → Except Error Bytes
  | a :: b :: c :: d :: e :: rest =>
    match values form offset [a, b, c, d] with
    | .error err => .error err
    | .ok vs => (decodeGroups form (offset + 4) (e :: rest)).map ((group vs).1 ++ ·)
  | tail => decodeLast form offset tail

/-- An octet left over after complete groups that is no symbol at all is reported before all else. -/
def strayLast? (form : Form) (bs : Bytes) : Option Error :=
  if bs.length % 4 = 1 then
    let last := bs.getLastD pad
    if last ≠ pad ∧ (value? form last).isNone then some (.symbol last (bs.length - 1)) else none
  else none

def decode (form : Form) (bs : Bytes) : Except Error Bytes :=
  match strayLast? form bs with
  | some e => .error e
  | none => decodeGroups form 0 bs

end PushGateway.Base64
