import PushGateway.Json.Reader
import PushGateway.Decimal.Unsigned
/-!
JSON numbers: `readNumber` decides whether one is a count, a negative integer or a binary number, and
`skipNumber` only checks its form.
-/

namespace PushGateway.Json

def isDigit (b : UInt8) : Bool := '0'.toUInt8 ≤ b ∧ b ≤ '9'.toUInt8

def digitValue (b : UInt8) : Nat := b.toNat - '0'.toNat

def minus : UInt8 := '-'.toUInt8

def isExponentMark (b : UInt8) : Bool := b = 'e'.toUInt8 ∨ b = 'E'.toUInt8

/-- Digits taken into a significand of 64 bits, and how many came after it was full. -/
structure Significand where
  value : Nat
  taken : Nat
  dropped : Nat

/-- A full significand takes no further digit. -/
def Significand.push (s : Significand) (b : UInt8) : Significand :=
  let next := s.value * 10 + digitValue b
  if s.dropped = 0 ∧ next ≤ Decimal.maxU64 then { s with value := next, taken := s.taken + 1 }
  else { s with dropped := s.dropped + 1 }

def maxExponent : Nat := 2147483647

/-- Takes digits into an exponent; with `none` the digit just read made it too large. -/
def exponentDigits (acc : Nat) : Bytes → Option Nat × Bytes
  | [] => (some acc, [])
  | b :: rest =>
    if isDigit b then
      let next := acc * 10 + digitValue b
      if maxExponent < next then (none, rest) else exponentDigits next rest
    else (some acc, b :: rest)

def floatNumber (negative : Bool) (significand : Nat) (exponent : Int) : Reader Number := fun rest =>
  match Decimal.Binary64.ofDecimal significand exponent with
  | none => .failed .numberOutOfRange rest
  | some x => .done (.float { x with negative := negative }) rest

/-- Reads the digits of an exponent, whose mark and sign have been read. -/
def readExponent (negative : Bool) (significand : Nat) (start : Int) (down : Bool) : Reader Number
  | [] => .failed (.ended .value) []
  | b :: rest =>
    if !isDigit b then .failed .invalidNumber rest
    else match exponentDigits (digitValue b) rest with
      | (some e, rest) =>
        floatNumber negative significand (if down then start - e else start + e) rest
      | (none, rest) =>
        if significand ≠ 0 ∧ !down then .failed .numberOutOfRange rest
        else floatNumber negative 0 0 (rest.dropWhile isDigit)

/-- Ends a number that is no integer: an exponent may follow. -/
def readScale (negative : Bool) (significand : Nat) (start : Int) : Reader Number
  | [] => floatNumber negative significand start []
  | b :: rest =>
    if isExponentMark b then
      match rest with
      | c :: rest' =>
        if c = '+'.toUInt8 then readExponent negative significand start false rest'
        else if c = minus then readExponent negative significand start true rest'
        else readExponent negative significand start false rest
      | [] => readExponent negative significand start false []
    else floatNumber negative significand start (b :: rest)

/-- Reads the digits after a point, which has been read; digits that no longer fit are ignored. -/
def readFraction (negative : Bool) (whole : Significand) : Reader Number := fun bs =>
  let digits := bs.takeWhile isDigit
  let rest := bs.dropWhile isDigit
  if digits = [] then .failed (if rest = [] then .ended .value else .invalidNumber) rest
  else
    let s := digits.foldl Significand.push ⟨whole.value, 0, 0⟩
    readScale negative s.value (whole.dropped - s.taken : Int) rest

def readAfterWhole (negative : Bool) (whole : Significand) : Reader Number := fun bs =>
  match bs with
  | b :: rest =>
    if b = '.'.toUInt8 then readFraction negative whole rest
    else if isExponentMark b ∨ whole.dropped ≠ 0 then
      readScale negative whole.value whole.dropped (b :: rest)
    else integer bs
  | [] => if whole.dropped ≠ 0 then readScale negative whole.value whole.dropped [] else integer bs
where
  /-- Zero with a sign and integers below the 64-bit ones are binary numbers. -/
  integer : Reader Number := fun rest =>
    if !negative then .done (.count whole.value) rest
    else if whole.value = 0 ∨ Decimal.minI64 < whole.value then floatNumber true whole.value 0 rest
    else .done (.negative whole.value) rest

/-- Reads a number; a minus sign has been read when `negative`. -/
def readNumber (negative : Bool) : Reader Number
  | [] => .failed (.ended .value) []
  | b :: rest =>
    if b = '0'.toUInt8 then
      match rest with
      | c :: _ =>
        if isDigit c then .failed .invalidNumber rest else readAfterWhole negative ⟨0, 0, 0⟩ rest
      | [] => readAfterWhole negative ⟨0, 0, 0⟩ []
    else if isDigit b then
      let whole := (rest.takeWhile isDigit).foldl Significand.push ⟨digitValue b, 1, 0⟩
      readAfterWhole negative whole (rest.dropWhile isDigit)
    else .failed .invalidNumber rest

/-- Passes over the digits of an exponent, whose mark has been read. -/
def skipExponent : Reader Unit := fun bs =>
  let digits := match bs with
    | b :: rest => if b = '+'.toUInt8 ∨ b = minus then rest else bs
    | [] => []
  match digits with
  | b :: rest => if isDigit b then .done () (rest.dropWhile isDigit) else .failed .invalidNumber rest
  | [] => .failed .invalidNumber []

/-- Passes over the digits after a point, which has been read. -/
def skipFraction : Reader Unit := fun bs =>
  match bs with
  | b :: rest =>
    if !isDigit b then .failed .invalidNumber bs
    else match rest.dropWhile isDigit with
      | c :: rest => if isExponentMark c then skipExponent rest else .done () (c :: rest)
      | [] => .done () []
  | [] => .failed .invalidNumber []

def skipAfterWhole : Reader Unit := fun bs =>
  match bs with
  | b :: rest =>
    if b = '.'.toUInt8 then skipFraction rest
    else if isExponentMark b then skipExponent rest
    else .done () bs
  | [] => .done () []

/-- Passes over a number whose minus sign, if any, has been read. -/
def skipNumber : Reader Unit
  | [] => .failed .invalidNumber []
  | b :: rest =>
    if b = '0'.toUInt8 then
      match rest with
      | c :: _ => if isDigit c then .failed .invalidNumber rest else skipAfterWhole rest
      | [] => .done () []
    else if isDigit b then skipAfterWhole (rest.dropWhile isDigit)
    else .failed .invalidNumber rest

end PushGateway.Json
