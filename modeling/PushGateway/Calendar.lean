import PushGateway.Text.Utf8
/-!
Dates of the Gregorian calendar with a time of day, and their distance from the start of 1970; then times in
whole seconds after that start, as far as the clock can hold them.
-/

namespace PushGateway

structure DateTime where
  year : Nat
  month : Nat
  day : Nat
  hour : Nat
  minute : Nat
  second : Nat
  deriving DecidableEq, Repr

namespace Calendar

def isLeap (year : Nat) : Bool := year % 4 = 0 ∧ (year % 100 ≠ 0 ∨ year % 400 = 0)

def daysInMonth (year month : Nat) : Nat :=
  if month = 2 then (if isLeap year then 29 else 28)
  else if month = 4 ∨ month = 6 ∨ month = 9 ∨ month = 11 then 30
  else 31

/-- Days from the start of the year 0 to the start of a year. -/
def daysBeforeYear (year : Nat) : Nat := 365 * year + (year + 3) / 4 - (year + 99) / 100 + (year + 399) / 400

def daysBeforeMonth (year month : Nat) : Nat :=
  (List.range (month - 1)).foldl (fun days i => days + daysInMonth year (i + 1)) 0

def epochYear : Nat := 1970

end Calendar

namespace DateTime

/-- Whether the date exists and the time of day is an ordinary one. -/
def isReal (t : DateTime) : Bool :=
  1 ≤ t.month ∧ t.month ≤ 12 ∧ 1 ≤ t.day ∧ t.day ≤ Calendar.daysInMonth t.year t.month ∧
    t.hour ≤ 23 ∧ t.minute ≤ 59 ∧ t.second ≤ 59

/-- Seconds after the start of the year 0. -/
def seconds (t : DateTime) : Nat :=
  (Calendar.daysBeforeYear t.year + Calendar.daysBeforeMonth t.year t.month + t.day - 1) * 86400 +
    t.hour * 3600 + t.minute * 60 + t.second

/-- Seconds after the start of 1970; none before it. -/
def unixSeconds? (t : DateTime) : Option Nat :=
  let epoch := Calendar.daysBeforeYear Calendar.epochYear * 86400
  if epoch ≤ t.seconds then some (t.seconds - epoch) else none

end DateTime

namespace Calendar

def isDigit (b : UInt8) : Bool := '0'.toUInt8 ≤ b ∧ b ≤ '9'.toUInt8

def digits? (n : Nat) (bs : Bytes) : Option (Nat × Bytes) :=
  if (bs.take n).length = n ∧ (bs.take n).all isDigit then
    some ((bs.take n).foldl (fun v b => v * 10 + (b.toNat - '0'.toNat)) 0, bs.drop n)
  else none

/-- Reads month, day, hour and minute, two digits each, after a year that has been read. -/
def minuteOf? (year : Nat) (bs : Bytes) : Option (DateTime × Bytes) := do
  let (month, bs) ← digits? 2 bs
  let (day, bs) ← digits? 2 bs
  let (hour, bs) ← digits? 2 bs
  let (minute, bs) ← digits? 2 bs
  return (⟨year, month, day, hour, minute, 0⟩, bs)

/-- The year that two digits stand for: 1950 to 2049. -/
def fullYear (n : Nat) : Nat := if 50 ≤ n then 1900 + n else 2000 + n

end Calendar

/-- The largest number of seconds that the clock can hold: one less than the 63rd power of two. -/
def UnixTime.latest : Nat := 9223372036854775807

structure UnixTime where
  seconds : Nat
  representable : seconds ≤ UnixTime.latest
  deriving DecidableEq, Repr

namespace UnixTime

/-- The time that many seconds after the start of 1970, when the clock can hold it. -/
def ofSeconds? (seconds : Nat) : Option UnixTime :=
  if h : seconds ≤ latest then some ⟨seconds, h⟩ else none

def overflow : String := "overflow when adding duration to `SystemTime`"

end UnixTime
end PushGateway
