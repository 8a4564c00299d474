import Conform.Time.Civil
import Conform.Number.Basic

/-!
# Instants

A point in time to the nanosecond. A leap second is written as the second before it with a billion
nanoseconds or more, so that seconds since the epoch stay those of the calendar.
-/

namespace Conform

/-- A point in time: whole seconds since the epoch, and nanoseconds past them. -/
structure Instant where
  seconds : Int
  nanos : Nat
  deriving DecidableEq, Repr, Inhabited

namespace Instant

/-- Milliseconds since the epoch, rounded down; what comparisons of dates look at. -/
def millis (t : Instant) : Int := t.seconds * 1000 + t.nanos / 1000000

/-- The instant so many milliseconds after the epoch, if its year is in range. -/
def ofMillis? (millis : Int) : Option Instant :=
  let seconds := millis / 1000
  if Civil.yearInRange (Civil.ofDays (seconds / 86400)).year then
    some ⟨seconds, (millis % 1000).toNat * 1000000⟩
  else none

/-- The instant at a number of milliseconds, rounded to the nearest one. -/
def ofNumber? (millis : Number) : Option Instant :=
  if millis.isFinite then
    ofMillis? (millis.round.clampInt (-0x8000000000000000) 0x7fffffffffffffff)
  else none

/-- `n` in at least `width` digits. -/
def padded (width n : Nat) : String :=
  let digits := toString n
  "".pushn '0' (width - digits.length) ++ digits

/-- A year in four digits; outside 0 to 9999 the sign is written. -/
def yearText (year : Int) : String :=
  if 0 ≤ year ∧ year ≤ 9999 then padded 4 year.toNat
  else (if year < 0 then "-" else "+") ++ padded 4 year.natAbs

/-- The date and time in UTC, to the millisecond below. -/
def text (t : Instant) : String :=
  let date := Civil.ofDays (t.seconds / 86400)
  let second := (t.seconds % 86400).toNat
  let leap := if 1000000000 ≤ t.nanos then 1 else 0
  yearText date.year ++ "-" ++ padded 2 date.month ++ "-" ++ padded 2 date.day ++ "T" ++
    padded 2 (second / 3600) ++ ":" ++ padded 2 (second / 60 % 60) ++ ":" ++
    padded 2 (second % 60 + leap) ++ "." ++ padded 3 (t.nanos % 1000000000 / 1000000) ++ "Z"

end Instant

end Conform
