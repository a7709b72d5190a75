import Mathlib.Algebra.Group.Nat.Defs

/-!
# The `time` package

An instant is a number of nanoseconds since 1970. A `Location` is the offset from UTC at each
instant; `date` resolves a civil time by two lookups, as `time.Date` does.  Products of durations
wrap (`duration`).
-/

namespace Go

def int64 (x : Int) : Int := Int.bmod x (2 ^ 64)

structure Time where
  nanos : Int
  deriving DecidableEq, Repr

structure Location where
  offset : Int → Int

def nanosPerSecond : Int := 1000000000

def secondsPerDay : Int := 86400

def unixTime (sec : Int) : Time := ⟨sec * nanosPerSecond⟩

def Time.unix (t : Time) : Int := t.nanos / nanosPerSecond

def Time.add (t : Time) (d : Int) : Time := ⟨t.nanos + d⟩

def duration (n unit : Int) : Int := int64 (n * unit)

/-! ## Civil dates -/

/-- Days from 1970-01-01 to a date; the month is in 1..12. -/
def daysFromCivil (year month day : Int) : Int :=
  let y := if month ≤ 2 then year - 1 else year
  let era := y / 400
  let yoe := y - era * 400
  let doy := (153 * ((month + 9) % 12) + 2) / 5 + day - 1
  let doe := yoe * 365 + yoe / 4 - yoe / 100 + doy
  era * 146097 + doe - 719468

def civilFromDays (days : Int) : Int × Int × Int :=
  let z := days + 719468
  let era := z / 146097
  let doe := z - era * 146097
  let yoe := (doe - doe / 1460 + doe / 36524 - doe / 146096) / 365
  let doy := doe - (365 * yoe + yoe / 4 - yoe / 100)
  let mp := (5 * doy + 2) / 153
  let day := doy - (153 * mp + 2) / 5 + 1
  let month := if mp < 10 then mp + 3 else mp - 9
  (if month ≤ 2 then yoe + era * 400 + 1 else yoe + era * 400, month, day)

/-- The wall clock in `loc`, in seconds since 1970-01-01 00:00 local time. -/
def Time.wall (t : Time) (loc : Location) : Int := t.unix + loc.offset t.unix

def Time.day (t : Time) (loc : Location) : Int := t.wall loc / secondsPerDay

def Time.clock (t : Time) (loc : Location) : Int := t.wall loc % secondsPerDay

def Time.civil (t : Time) (loc : Location) : Int × Int × Int := civilFromDays (t.day loc)

def Time.weekday (t : Time) (loc : Location) : Int := (t.day loc + 4) % 7

/-- `time.Date`, with the clock in seconds. Months and days outside their range carry. -/
def date (loc : Location) (year month day clock nanos : Int) : Time :=
  let days := daysFromCivil (year + (month - 1) / 12) ((month - 1) % 12 + 1) 1 + (day - 1)
  let wall := days * secondsPerDay + clock
  let offset := loc.offset (wall - loc.offset wall)
  ⟨(wall - offset) * nanosPerSecond + nanos⟩

def Time.addDate (t : Time) (loc : Location) (years months days : Int) : Time :=
  let c := t.civil loc
  date loc (c.1 + years) (c.2.1 + months) (c.2.2 + days) (t.clock loc) (t.nanos % nanosPerSecond)

def utc : Location := ⟨fun _ => 0⟩

example : civilFromDays 20141 = (2025, 2, 22) := by decide

example : (date utc 2025 1 31 0 0).addDate utc 0 1 0 = date utc 2025 3 3 0 0 := by decide

end Go
