import SearchMapper.Number.Written

namespace SearchMapper.Time

/-- Seconds since the start of 1970 and nanoseconds; a thousand million nanoseconds or more are
the leap second after that second. -/
structure Instant where
  seconds : Int
  nanos : Nat
deriving DecidableEq

structure Date where
  year : Int
  month : Nat
  day : Nat
deriving DecidableEq

/-- The Gregorian date of a day counted from the start of 1970. Years begin in March here, so
that the leap day is the last of its year, and are counted within eras of 400 years. -/
def Date.ofDays (days : Int) : Date :=
  let z := days + 719468
  let era := z / 146097
  let dayOfEra := (z % 146097).toNat
  let yearOfEra := (dayOfEra - dayOfEra / 1460 + dayOfEra / 36524 - dayOfEra / 146096) / 365
  let dayOfYear := dayOfEra - (365 * yearOfEra + yearOfEra / 4 - yearOfEra / 100)
  let fromMarch := (5 * dayOfYear + 2) / 153
  let month := if fromMarch < 10 then fromMarch + 3 else fromMarch - 9
  { year := yearOfEra + era * 400 + (if month ≤ 2 then 1 else 0)
    month := month
    day := dayOfYear - (153 * fromMarch + 2) / 5 + 1 }

def padded (width n : Nat) : String :=
  let digits := Number.digitsOf n
  String.ofList (List.replicate (width - digits.length) '0' ++ digits)

/-- Four digits; a year outside them has its sign. -/
def yearText (year : Int) : String :=
  if 0 ≤ year ∧ year ≤ 9999 then padded 4 year.toNat
  else (if year < 0 then "-" else "+") ++ padded 4 year.natAbs

def Date.text (d : Date) : String :=
  yearText d.year ++ "-" ++ padded 2 d.month ++ "-" ++ padded 2 d.day

namespace Instant

/-- Seconds of the minute, 60 for a leap second, and the nanoseconds within it. -/
def secondOfMinute (t : Instant) : Nat × Nat :=
  let second := (t.seconds % 60).toNat
  if t.nanos < 1000000000 then (second, t.nanos) else (second + 1, t.nanos - 1000000000)

def wholeText (t : Instant) : String :=
  let ofDay := (t.seconds % 86400).toNat
  (Date.ofDays (t.seconds / 86400)).text ++ "T" ++ padded 2 (ofDay / 3600) ++ ":" ++
    padded 2 (ofDay / 60 % 60) ++ ":" ++ padded 2 t.secondOfMinute.1

/-- The text with milliseconds, cut off. -/
def text (t : Instant) : String :=
  t.wholeText ++ "." ++ padded 3 (t.secondOfMinute.2 / 1000000) ++ "Z"

/-- No fraction, or as many groups of three digits as it has. -/
def fractionText (nanos : Nat) : String :=
  if nanos = 0 then ""
  else if nanos % 1000000 = 0 then "." ++ padded 3 (nanos / 1000000)
  else if nanos % 1000 = 0 then "." ++ padded 6 (nanos / 1000)
  else "." ++ padded 9 nanos

def exactText (t : Instant) : String :=
  t.wholeText ++ fractionText t.secondOfMinute.2 ++ "Z"

end Instant

end SearchMapper.Time
