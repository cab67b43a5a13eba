/-!
Binary floating-point numbers with 53 significant bits, as exact values: a sign, a significand and a
power of two. `ofRatio` rounds a quotient to the nearest such number, a tie to the even one.
-/

namespace PushGateway.Decimal

/-- The value `± significand * 2 ^ exponent`. -/
structure Binary64 where
  negative : Bool
  significand : Nat
  exponent : Int
  deriving DecidableEq, Repr

/-- The nearest natural number to a quotient, a tie to the even one. -/
def nearest (num den : Nat) : Nat :=
  let q := num / den
  let twice := num % den * 2
  if den < twice then q + 1
  else if twice = den then q + q % 2
  else q

/-- A quotient of naturals times a power of two, as a quotient of naturals. -/
def scaled (num den : Nat) (exponent : Int) : Nat × Nat :=
  if 0 ≤ exponent then (num <<< exponent.toNat, den) else (num, den <<< (-exponent).toNat)

def powerOfTen (n : Nat) : Nat := Nat.pow 10 n

namespace Binary64

/-- The significands of numbers lie below the 53rd power of two. -/
def significandLimit : Nat := 9007199254740992

/-- The least significand with all 53 bits, the 52nd power of two. -/
def leastNormal : Nat := 4503599627370496

/-- The smallest exponent, that of subnormal numbers. -/
def minExponent : Int := -1074

/-- The largest exponent of a finite number. -/
def maxExponent : Int := 971

def zero (negative : Bool) : Binary64 := ⟨negative, 0, minExponent⟩

/-- The exponent for which a positive quotient has a 53-bit integer part, or the smallest one. -/
def exponentFor (num den : Nat) : Int :=
  let guess : Int := (num.log2 : Int) - den.log2 - 53
  let (n, d) := scaled num den (-guess)
  let exact := if n / d < significandLimit then guess else guess + 1
  max exact minExponent

/-- The binary number nearest to a quotient; `none` when it is too large. -/
def ofRatio (negative : Bool) (num den : Nat) : Option Binary64 :=
  if num = 0 then some (zero negative)
  else
    let e := exponentFor num den
    let (n, d) := scaled num den (-e)
    let m := nearest n d
    let (m, e) := if m = significandLimit then (leastNormal, e + 1) else (m, e)
    if maxExponent < e then none else some ⟨negative, m, e⟩

/-- The absolute value as a quotient of naturals. -/
def ratio (x : Binary64) : Nat × Nat := scaled x.significand 1 x.exponent

/-- The product of absolute values, rounded. -/
def mul (x y : Binary64) : Option Binary64 :=
  ofRatio false (x.ratio.1 * y.ratio.1) (x.ratio.2 * y.ratio.2)

/-- The quotient of absolute values, rounded. -/
def div (x y : Binary64) : Option Binary64 :=
  ofRatio false (x.ratio.1 * y.ratio.2) (x.ratio.2 * y.ratio.1)

/-- The power of ten nearest to `10 ^ n`. -/
def ofPowerOfTen (n : Nat) : Option Binary64 := ofRatio false (Decimal.powerOfTen n) 1

/-- Divides by powers of ten no larger than `10 ^ 308` until `n` of them are taken, rounding each time. -/
def divPowers (x : Binary64) (n : Nat) : Option Binary64 :=
  if 308 < n then
    if x.significand = 0 then some x
    else (ofPowerOfTen 308).bind fun p => (x.div p).bind fun y => divPowers y (n - 308)
  else (ofPowerOfTen n).bind x.div
termination_by n
decreasing_by omega

/-- A significand times a power of ten, in two roundings; `none` when it is too large. -/
def ofDecimal (significand : Nat) (exponent : Int) : Option Binary64 :=
  (ofRatio false significand 1).bind fun x =>
    if exponent < 0 then divPowers x (-exponent).toNat
    else if 308 < exponent then if significand = 0 then some x else none
    else (ofPowerOfTen exponent.toNat).bind x.mul

end Binary64
end PushGateway.Decimal
