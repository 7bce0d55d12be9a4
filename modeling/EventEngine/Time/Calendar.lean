import EventEngine.Time.Instant

/-!
# Calendar dates

A wall time is written as date and time of day in universal time, in the Gregorian calendar. The
days since 1970 are counted from the first of March of a leap-year cycle of 400 years, so that a
leap day is the last day of its year.
-/
namespace EventEngine

/-- A day of the Gregorian calendar. -/
structure Date where
  year : Nat
  month : Nat
  day : Nat
  deriving DecidableEq, Repr

/-- A number with at least as many digits as asked for. -/
def padded (width n : Nat) : String :=
  let digits := Nat.toDigits 10 n
  String.ofList (List.replicate (width - digits.length) '0' ++ digits)

namespace Date

/-- The date of a day, counted from 1 January 1970. -/
def ofDays (days : Nat) : Date :=
  let shifted := days + 719468
  let dayOfCycle := shifted % 146097
  let yearOfCycle :=
    (dayOfCycle - dayOfCycle / 1460 + dayOfCycle / 36524 - dayOfCycle / 146096) / 365
  let dayOfYear := dayOfCycle - (365 * yearOfCycle + yearOfCycle / 4 - yearOfCycle / 100)
  let fromMarch := (5 * dayOfYear + 2) / 153
  let month := if fromMarch < 10 then fromMarch + 3 else fromMarch - 9
  let year := shifted / 146097 * 400 + yearOfCycle
  { year := if month ≤ 2 then year + 1 else year
    month
    day := dayOfYear - (153 * fromMarch + 2) / 5 + 1 }

def text (d : Date) : String :=
  padded 4 d.year ++ "-" ++ padded 2 d.month ++ "-" ++ padded 2 d.day

example : (ofDays 0).text = "1970-01-01" := by cbv
example : (ofDays 19676).text = "2023-11-15" := by cbv
example : (ofDays 11016).text = "2000-02-29" := by cbv

end Date

namespace WallTime

def date (t : WallTime) : Date := .ofDays (t.secs / 86400)

/-- The part of a second, in as few groups of three digits as give it exactly. -/
def fractionText (t : WallTime) : String :=
  let n := t.subsecNanos
  if n = 0 then ""
  else if n % 1000000 = 0 then "." ++ padded 3 (n / 1000000)
  else if n % 1000 = 0 then "." ++ padded 6 (n / 1000)
  else "." ++ padded 9 n

/-- Date and time of day. -/
def text (t : WallTime) : String :=
  let second := t.secs % 86400
  t.date.text ++ "T" ++ padded 2 (second / 3600) ++ ":" ++ padded 2 (second / 60 % 60) ++ ":" ++
    padded 2 (second % 60) ++ t.fractionText ++ "Z"

end WallTime
end EventEngine
