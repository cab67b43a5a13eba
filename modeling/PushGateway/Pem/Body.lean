import PushGateway.Base64
/-!
The body of a PEM section: standard base64 in which blanks are ignored, padding may be missing and unused
bits are not judged. Symbols come in blocks of eight; padding may stand only at the end of the last one.
-/

namespace PushGateway.Pem

inductive BodyFault where
  | invalidCharacter (octet : UInt8)
  | prematurePadding
  | invalidTrailingPadding
  deriving DecidableEq, Repr

namespace BodyFault

def message : BodyFault → String
  | .invalidCharacter b => s!"InvalidCharacter({b.toNat})"
  | .prematurePadding => "PrematurePadding"
  | .invalidTrailingPadding => "InvalidTrailingPadding"

end BodyFault

namespace Body

/-- Tabs, line breaks and spaces stand between symbols without a meaning. -/
def isBlank (b : UInt8) : Bool := 9 ≤ b ∧ b ≤ 13 ∨ b = 32

inductive Symbol where
  | digit (value : Nat)
  | pad
  deriving DecidableEq, Repr

def symbol? (b : UInt8) : Option Symbol :=
  if b = Base64.pad then some .pad else (Base64.value? Base64.standard b).map .digit

def Symbol.value? : Symbol → Option Nat
  | .digit v => some v
  | .pad => none

/-- The octets that up to four symbols stand for. -/
def octets (symbols : List Symbol) : Bytes := (Base64.group (symbols.filterMap (·.value?))).1

/-- Reads the last symbols, at most four: nothing, or two digits or more and then any missing part of the
padding, but not a part of it. -/
def lastOctets (symbols : List Symbol) : Except BodyFault Bytes :=
  match symbols with
  | [] => .ok []
  | [.digit _, .digit _] | [.digit _, .digit _, .pad, .pad]
  | [.digit _, .digit _, .digit _] | [.digit _, .digit _, .digit _, .pad]
  | [.digit _, .digit _, .digit _, .digit _] => .ok (octets symbols)
  | _ => .error .invalidTrailingPadding

def lastBlock (block : List Symbol) : Except BodyFault Bytes :=
  if 4 < block.length then
    if .pad ∈ block.take 4 then .error .prematurePadding
    else (lastOctets (block.drop 4)).map (octets (block.take 4) ++ ·)
  else lastOctets block

/-- Reads a body of which the given symbols of the current block have been seen. -/
def decodeFrom (block : List Symbol) : Bytes → Except BodyFault Bytes
  | [] => lastBlock block
  | b :: rest =>
    if isBlank b then decodeFrom block rest
    else match symbol? b with
      | none => .error (.invalidCharacter b)
      | some s =>
        if block.length < 8 then decodeFrom (block ++ [s]) rest
        else if .pad ∈ block then .error .prematurePadding
        else (decodeFrom [s] rest).map (octets (block.take 4) ++ octets (block.drop 4) ++ ·)

def decode (body : Bytes) : Except BodyFault Bytes := decodeFrom [] body

end Body
end PushGateway.Pem
