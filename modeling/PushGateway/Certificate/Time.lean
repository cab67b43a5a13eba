import PushGateway.Calendar
import PushGateway.Der.Element
/-!
The times in a certificate, read leniently: with a year of two digits, seconds may be missing and a zone
may be given; with a year of four digits, seconds are needed and may have a fraction.
-/

namespace PushGateway.Certificate

open Calendar

/-- Reads a zone: that of Greenwich, or a distance from it of at most 25 hours and 59 minutes. -/
def zone? : Bytes → Option Unit
  | [] => none
  | sign :: rest =>
    if sign = 'Z'.toUInt8 then if rest = [] then some () else none
    else if sign = '+'.toUInt8 ∨ sign = '-'.toUInt8 then do
      let (hours, rest) ← digits? 2 rest
      let (minutes, rest) ← digits? 2 rest
      if rest = [] ∧ hours ≤ 25 ∧ minutes ≤ 59 then some () else none
    else none

/-- Seconds where more than a zone letter follows the minutes. -/
def seconds? : Bytes → Option (Nat × Bytes)
  | [] => none
  | [zone] => some (0, [zone])
  | bs => digits? 2 bs

/-- A time with a year of two digits. -/
def shortTime? (bs : Bytes) : Option DateTime := do
  let (year, bs) ← digits? 2 bs
  let (t, bs) ← minuteOf? (fullYear year) bs
  let (second, bs) ← seconds? bs
  zone? bs
  let t := { t with second := second }
  if t.isReal then some t else none

/-- Passes over a fraction of at most three digits. -/
def skipFraction : Bytes → Bytes
  | b :: rest =>
    if b = '.'.toUInt8 then
      let digits := rest.takeWhile isDigit
      if digits.length ≤ 3 then rest.drop digits.length else b :: rest
    else b :: rest
  | [] => []

/-- A time with a year of four digits, always in the zone of Greenwich. -/
def longTime? (bs : Bytes) : Option DateTime := do
  let (year, bs) ← digits? 4 bs
  let (t, bs) ← minuteOf? year bs
  let (second, bs) ← digits? 2 bs
  let t := { t with second := second }
  if skipFraction bs = ['Z'.toUInt8] ∧ t.isReal then some t else none

/-- Reads a time of either kind, in its own zone. -/
def time? (bs : Bytes) : Option (DateTime × Bytes) :=
  match Der.element? bs with
  | none => none
  | some (e, rest) =>
    if e.tag = Der.Tag.utcTime then (shortTime? e.content).map fun t => (t, rest)
    else if e.tag = Der.Tag.generalizedTime then (longTime? e.content).map fun t => (t, rest)
    else none

end PushGateway.Certificate
