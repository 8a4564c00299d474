import Conform.Time.Instant
import Conform.Text.Blank

/-!
# Reading dates and times

The strict form `2020-01-02T03:04:05.678+01:00`, and looser forms without an offset, read as UTC.
Each reader takes characters from the front of a text and gives back the rest.
-/

namespace Conform.Time

/-- The value of ASCII digits. -/
def digitsValue (cs : List Char) : Nat :=
  cs.foldl (fun acc c => acc * 10 + (c.toNat - '0'.toNat)) 0

/-- The digits at the front, at most `most` of them when that is given, and the rest. -/
def spanDigits (most : Option Nat) (cs : List Char) : List Char × List Char :=
  let digits := cs.takeWhile Char.isDigit
  let digits := match most with
    | some n => digits.take n
    | none => digits
  (digits, cs.drop digits.length)

/-- A number of at least `least` and at most `most` digits; values past 63 bits are refused. -/
def number? (least : Nat) (most : Option Nat) (cs : List Char) : Option (Nat × List Char) :=
  let (digits, rest) := spanDigits most cs
  if digits.length < least ∨ Nat.pow 2 63 ≤ digitsValue digits then none
  else some (digitsValue digits, rest)

/-- One given character. -/
def char? (c : Char) : List Char → Option (List Char)
  | d :: rest => if d = c then some rest else none
  | [] => none

/-- Digits of a fraction of a second as nanoseconds; digits past the ninth are dropped. -/
def nanos? (cs : List Char) : Option (Nat × List Char) :=
  let (digits, rest) := spanDigits none cs
  let kept := digits.take 9
  if kept.isEmpty then none else some (digitsValue kept * Nat.pow 10 (9 - kept.length), rest)

/-- A fraction of a second if a point follows. -/
def fraction? : List Char → Option (Nat × List Char)
  | '.' :: rest => nanos? rest
  | cs => some (0, cs)

/-- The instant of a date and time that differs from UTC by `offset` seconds. Second 60 is a leap
second, at any minute. -/
def instant? (date : Civil) (hour minute second nanos : Nat) (offset : Int) : Option Instant :=
  if hour ≤ 23 ∧ minute ≤ 59 ∧ second ≤ 60 then
    let (second, nanos) := if second = 60 then (59, nanos + 1000000000) else (second, nanos)
    some ⟨date.toDays * 86400 + hour * 3600 + minute * 60 + second - offset, nanos⟩
  else none

/-- An offset from UTC in seconds: `Z`, or a sign, hours below 24, a colon and minutes. -/
def offset? : List Char → Option (Int × List Char)
  | [] => none
  | c :: rest =>
    if c = 'Z' ∨ c = 'z' then some (0, rest)
    else if c = '+' ∨ c = '-' ∨ c = '−' then do
      let (hours, rest) ← number? 2 (some 2) rest
      let rest ← char? ':' rest
      let (minutes, rest) ← number? 2 (some 2) rest
      if hours ≤ 23 ∧ minutes ≤ 59 then
        let seconds : Int := hours * 3600 + minutes * 60
        some (if c = '+' then seconds else -seconds, rest)
      else none
    else none

/-- The strict form: four, two and two digits, `T`, `t` or a space, a time with seconds, an
offset. -/
def strict? (s : String) : Option Instant := do
  let (year, cs) ← number? 4 (some 4) s.toList
  let cs ← char? '-' cs
  let (month, cs) ← number? 2 (some 2) cs
  let cs ← char? '-' cs
  let (day, cs) ← number? 2 (some 2) cs
  let cs ← match cs with
    | c :: rest => if c = 'T' ∨ c = 't' ∨ c = ' ' then some rest else none
    | [] => none
  let (hour, cs) ← number? 2 (some 2) cs
  let cs ← char? ':' cs
  let (minute, cs) ← number? 2 (some 2) cs
  let cs ← char? ':' cs
  let (second, cs) ← number? 2 (some 2) cs
  let (nanos, cs) ← fraction? cs
  let (offset, cs) ← offset? cs
  if cs.isEmpty then instant? (← Civil.ofParts? year month day) hour minute second nanos offset
  else none

/-- A number after blanks, of at most `most` digits. -/
def field? (most : Nat) (cs : List Char) : Option (Nat × List Char) :=
  number? 1 (some most) (cs.dropWhile Text.isBlank)

/-- A year after blanks: four digits at most, or any number of them after a sign. -/
def year? (cs : List Char) : Option (Int × List Char) :=
  match cs.dropWhile Text.isBlank with
  | '-' :: rest => (number? 1 none rest).map fun (n, rest) => (-(n : Int), rest)
  | '+' :: rest => (number? 1 none rest).map fun (n, rest) => ((n : Int), rest)
  | rest => (number? 1 (some 4) rest).map fun (n, rest) => ((n : Int), rest)

/-- A date whose numbers need not be padded. -/
def looseDate? (cs : List Char) : Option (Civil × List Char) := do
  let (year, cs) ← year? cs
  let cs ← char? '-' cs
  let (month, cs) ← field? 2 cs
  let cs ← char? '-' cs
  let (day, cs) ← field? 2 cs
  let date ← Civil.ofParts? year month day
  some (date, cs)

/-- Hours and minutes after a `T`. -/
def looseMinutes? (cs : List Char) : Option ((Nat × Nat) × List Char) := do
  let cs ← char? 'T' cs
  let (hour, cs) ← field? 2 cs
  let cs ← char? ':' cs
  let (minute, cs) ← field? 2 cs
  some ((hour, minute), cs)

/-- A date, optionally with a time to the minute, the second or below, in UTC. -/
def loose? (s : String) : Option Instant := do
  let (date, cs) ← looseDate? s.toList
  if cs.isEmpty then instant? date 0 0 0 0 0
  else
    let ((hour, minute), cs) ← looseMinutes? cs
    if cs.isEmpty then instant? date hour minute 0 0 0
    else
      let cs ← char? ':' cs
      let (second, cs) ← field? 2 cs
      let (nanos, cs) ← fraction? cs
      if cs.isEmpty then instant? date hour minute second nanos 0 else none

/-- A date text in the strict form or one of the looser ones. -/
def read? (s : String) : Option Instant := strict? s <|> loose? s

end Conform.Time
