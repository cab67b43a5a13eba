import PushGateway.Json.Reader
/-!
JSON strings: `quote` writes one, `readText` reads one, and `skipText` passes over one without asking
whether its escapes and octets make up a text.
-/

namespace PushGateway.Json

def quotationMark : UInt8 := '"'.toUInt8

def backslash : UInt8 := '\\'.toUInt8

def hexDigit (n : Nat) : UInt8 :=
  if n < 10 then ('0'.toNat + n).toUInt8 else ('a'.toNat + (n - 10)).toUInt8

def hexValue? (b : UInt8) : Option Nat :=
  if '0'.toUInt8 ≤ b ∧ b ≤ '9'.toUInt8 then some (b.toNat - '0'.toNat)
  else if 'a'.toUInt8 ≤ b ∧ b ≤ 'f'.toUInt8 then some (b.toNat - 'a'.toNat + 10)
  else if 'A'.toUInt8 ≤ b ∧ b ≤ 'F'.toUInt8 then some (b.toNat - 'A'.toNat + 10)
  else none

def hex4? (a b c d : UInt8) : Option Nat := do
  let w ← hexValue? a
  let x ← hexValue? b
  let y ← hexValue? c
  let z ← hexValue? d
  return ((w * 16 + x) * 16 + y) * 16 + z

def escape (b : UInt8) : Bytes :=
  if b = quotationMark then [backslash, quotationMark]
  else if b = backslash then [backslash, backslash]
  else if b = 0x08 then [backslash, 'b'.toUInt8]
  else if b = 0x0C then [backslash, 'f'.toUInt8]
  else if b = 0x0A then [backslash, 'n'.toUInt8]
  else if b = 0x0D then [backslash, 'r'.toUInt8]
  else if b = 0x09 then [backslash, 't'.toUInt8]
  else if b < 0x20 then
    [backslash, 'u'.toUInt8, '0'.toUInt8, '0'.toUInt8, hexDigit (b.toNat / 16), hexDigit (b.toNat % 16)]
  else [b]

/-- A text between quotation marks, with escapes only where they are needed. -/
def quote (s : String) : Bytes :=
  quotationMark :: (Utf8.encode s).flatMap escape ++ [quotationMark]

def escaped? (b : UInt8) : Option UInt8 :=
  if b = quotationMark ∨ b = backslash ∨ b = '/'.toUInt8 then some b
  else if b = 'b'.toUInt8 then some 0x08
  else if b = 'f'.toUInt8 then some 0x0C
  else if b = 'n'.toUInt8 then some 0x0A
  else if b = 'r'.toUInt8 then some 0x0D
  else if b = 't'.toUInt8 then some 0x09
  else none

def isHighSurrogate (n : Nat) : Bool := 0xD800 ≤ n ∧ n ≤ 0xDBFF

def isLowSurrogate (n : Nat) : Bool := 0xDC00 ≤ n ∧ n ≤ 0xDFFF

/-- The octets of the code point with the given number, which is no surrogate. -/
def codePoint (n : Nat) : Bytes := Utf8.encodeChar (Char.ofNat n)

def surrogatePair (high low : Nat) : Bytes :=
  codePoint (0x10000 + (high - 0xD800) * 0x400 + (low - 0xDC00))

/-- The octets of a string whose opening quotation mark has been read, up to its closing one. -/
def textOctets : Bytes → Outcome Bytes
  | [] => .failed (.ended .text) []
  | b :: rest =>
    if b = quotationMark then .done [] rest
    else if b < 0x20 then .failed .controlCharacter rest
    else if b ≠ backslash then (textOctets rest).map (b :: ·)
    else match rest with
      | [] => .failed (.ended .text) []
      | c :: rest =>
        match escaped? c with
        | some v => (textOctets rest).map (v :: ·)
        | none =>
          if c ≠ 'u'.toUInt8 then .failed .invalidEscape rest
          else match rest with
            | w :: x :: y :: z :: rest =>
              match hex4? w x y z with
              | none => .failed .invalidEscape rest
              | some n =>
                if isLowSurrogate n then .failed .loneSurrogate rest
                else if !isHighSurrogate n then (textOctets rest).map (codePoint n ++ ·)
                else match rest with
                  | [] => .failed (.ended .text) []
                  | d :: rest =>
                    if d ≠ backslash then .failed .endOfHexEscape rest
                    else match rest with
                      | [] => .failed (.ended .text) []
                      | e :: rest =>
                        if e ≠ 'u'.toUInt8 then .failed .endOfHexEscape rest
                        else match rest with
                          | w :: x :: y :: z :: rest =>
                            match hex4? w x y z with
                            | none => .failed .invalidEscape rest
                            | some m =>
                              if isLowSurrogate m then (textOctets rest).map (surrogatePair n m ++ ·)
                              else .failed .loneSurrogate rest
                          | _ => .failed (.ended .text) []
            | _ => .failed (.ended .text) []

/-- Reads a string whose opening quotation mark has been read. -/
def readText : Reader String := fun bs =>
  match textOctets bs with
  | .failed e rest => .failed e rest
  | .done octets rest =>
    match Utf8.decode? octets with
    | some s => .done s rest
    | none => .failed .invalidCodePoint rest

/-- Passes over a string whose opening quotation mark has been read. -/
def skipText : Reader Unit
  | [] => .failed (.ended .text) []
  | b :: rest =>
    if b = quotationMark then .done () rest
    else if b < 0x20 then .failed .controlCharacter (b :: rest)
    else if b ≠ backslash then skipText rest
    else match rest with
      | [] => .failed (.ended .text) []
      | c :: rest =>
        if (escaped? c).isSome then skipText rest
        else if c ≠ 'u'.toUInt8 then .failed .invalidEscape rest
        else match rest with
          | w :: x :: y :: z :: rest =>
            if (hex4? w x y z).isSome then skipText rest else .failed .invalidEscape rest
          | _ => .failed (.ended .text) []

end PushGateway.Json
