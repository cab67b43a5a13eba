import PushGateway.Decimal.Binary
/-!
The shortest decimal that reads back as a given binary number: the fewest digits for which a decimal
lies among the reals that round to the number, and of those the nearest.
-/

namespace PushGateway.Decimal

/-- A decimal `digits * 10 ^ exponent`. -/
structure Scientific where
  digits : Nat
  exponent : Int
  deriving DecidableEq, Repr

/-- The reals that round to a number, doubled: lower end, value, upper end over a common denominator. -/
structure Interval where
  low : Nat
  value : Nat
  high : Nat
  den : Nat
  closed : Bool

namespace Interval

/-- The interval of a positive number; below a power of two the gap is half as wide. -/
def of (x : Binary64) : Interval :=
  let edge := x.significand = Binary64.leastNormal ∧ Binary64.minExponent < x.exponent
  let (num, den) := scaled 1 4 x.exponent
  { low := (4 * x.significand - if edge then 1 else 2) * num
    value := 4 * x.significand * num
    high := (4 * x.significand + 2) * num
    den := den
    closed := x.significand % 2 = 0 }

def contains (i : Interval) (d : Nat) (e : Int) : Bool :=
  let (n, m) := if 0 ≤ e then (d * powerOfTen e.toNat * i.den, 1) else (d * i.den, powerOfTen (-e).toNat)
  if i.closed then i.low * m ≤ n ∧ n ≤ i.high * m else i.low * m < n ∧ n < i.high * m

/-- The multiple of `10 ^ e` just below the value, with twice the distance's excess over half a step. -/
def floor (i : Interval) (e : Int) : Nat × Ordering :=
  let (n, m) := if 0 ≤ e then (i.value, i.den * powerOfTen e.toNat) else (i.value * powerOfTen (-e).toNat, i.den)
  (n / m, compare (n % m * 2) m)

/-- The decimal on the grid of `10 ^ e` that lies in the interval and is nearest to the value. -/
def onGrid (i : Interval) (e : Int) : Option Nat :=
  let (d, side) := i.floor e
  let up := match side with
    | .lt => false
    | .gt => true
    | .eq => d % 2 = 1
  let (first, second) := if up then (d + 1, d) else (d, d + 1)
  if i.contains first e then some first
  else if i.contains second e then some second
  else none

/-- Tries grids from coarse to fine. -/
def search (i : Interval) : Nat → Int → Scientific
  | 0, e => ⟨(i.floor e).1, e⟩
  | fuel + 1, e =>
    match i.onGrid e with
    | some d => if d = 0 then search i fuel (e - 1) else ⟨d, e⟩
    | none => search i fuel (e - 1)

end Interval

def Scientific.trim (s : Scientific) : Nat → Scientific
  | 0 => s
  | fuel + 1 =>
    if s.digits % 10 = 0 ∧ s.digits ≠ 0 then Scientific.trim ⟨s.digits / 10, s.exponent + 1⟩ fuel else s

def Binary64.shortest (x : Binary64) : Scientific :=
  let (num, den) := x.ratio
  let top : Int := (Nat.toDigits 10 (num / den)).length
  let start := if num / den = 0 then (0 : Int) else top
  ((Interval.of x).search 400 start).trim 20

/-- Positional notation is used from `10 ^ positionalMin` up to below `10 ^ (positionalMax + 1)`. -/
structure FloatFormat where
  positionalMin : Int
  positionalMax : Int

def pointAfter (n : Nat) (ds : List Char) : List Char := ds.take n ++ '.' :: ds.drop n

/-- Writes a number: one digit at least on each side of a point, an exponent with a sign unless it is
negative already. -/
def Binary64.render (format : FloatFormat) (x : Binary64) : String :=
  let sign := if x.negative then ['-'] else []
  if x.significand = 0 then String.ofList (sign ++ "0.0".toList)
  else
    let s := x.shortest
    let ds := Nat.toDigits 10 s.digits
    let point : Int := ds.length + s.exponent
    let scale := point - 1
    let body :=
      if format.positionalMin ≤ scale ∧ scale ≤ format.positionalMax then
        if point ≤ 0 then "0.".toList ++ List.replicate (-point).toNat '0' ++ ds
        else if ds.length ≤ point.toNat then
          ds ++ List.replicate (point.toNat - ds.length) '0' ++ ".0".toList
        else pointAfter point.toNat ds
      else
        let mantissa := if ds.length = 1 then ds else pointAfter 1 ds
        mantissa ++ 'e' :: (if 0 ≤ scale then ['+'] else ['-']) ++ Nat.toDigits 10 scale.natAbs
    String.ofList (sign ++ body)

end PushGateway.Decimal
