import Conform.Number.Basic

/-!
# The shortest decimal of a double

Among all decimals that read back as a given double, `Shortest.ofMeaning` takes one with the fewest
digits, and of those the nearest to the double. The reals that round to `m · 2 ^ q` are the
interval between the midpoints to its two neighbours, ends included exactly when `m` is even. For
one digit, two digits and so on, the two points of that decimal grid next to the value are tried;
if any point of a grid lies in the interval, one of these two does. A double may lie exactly in the
middle of the two, as 1125899906842624.25 does; which of them is then taken is a `Tie`.
-/

namespace Conform.Number

/-- The decimal `digits · 10 ^ exponent`. -/
structure Decimal where
  digits : Nat
  exponent : Int
  deriving DecidableEq, Repr, Inhabited

/-- Which of two equally near neighbours is taken. -/
inductive Tie
  /-- The one farther from zero. -/
  | up
  /-- The one with an even last digit. -/
  | toEven
  deriving DecidableEq, Repr

/-- Whether the neighbour above `below` is taken. -/
def Tie.roundsUp : Tie → Nat → Bool
  | .up, _ => true
  | .toEven, below => below % 2 == 1

namespace Shortest

/-- A value and the interval of reals rounding to it, over one denominator. -/
structure Interval where
  low : Nat
  value : Nat
  high : Nat
  den : Nat
  closed : Bool
  deriving Repr

/-- The rounding interval of `m · 2 ^ q`. Below a power of two the neighbour is half as far. -/
def interval (m : Nat) (q : Int) : Interval :=
  let below := if m = Nat.pow 2 52 ∧ -1074 < q then 1 else 2
  let (unit, den) := scaled 1 1 (q - 2)
  { low := (4 * m - below) * unit, value := 4 * m * unit, high := (4 * m + 2) * unit, den,
    closed := m % 2 == 0 }

/-- Whether `d · 10 ^ p` lies in the interval. -/
def Interval.holds (i : Interval) (d : Nat) (p : Int) : Bool :=
  let up := Nat.pow 10 (-p).toNat
  let x := d * Nat.pow 10 p.toNat * i.den
  if i.closed then decide (i.low * up ≤ x ∧ x ≤ i.high * up)
  else decide (i.low * up < x ∧ x < i.high * up)

/-- The nearer of the value's two neighbours on the grid `10 ^ p` that lie in the interval. -/
def Interval.onGrid? (tie : Tie) (i : Interval) (p : Int) : Option Nat :=
  let num := i.value * Nat.pow 10 (-p).toNat
  let den := i.den * Nat.pow 10 p.toNat
  let below := num / den
  let rest := 2 * (num % den)
  match i.holds below p, i.holds (below + 1) p with
  | true, true =>
    some (if den < rest ∨ (rest = den ∧ tie.roundsUp below) then below + 1 else below)
  | true, false => some below
  | false, true => some (below + 1)
  | false, false => none

/-- The number of decimal digits of `n`; none for zero. -/
def digitCount (n : Nat) : Nat := if n = 0 then 0 else (Nat.toDigits 10 n).length

/-- The place of the leading decimal digit: the `e` with `10 ^ e ≤ num / den < 10 ^ (e + 1)`. -/
def leadingPlace (num den : Nat) : Int :=
  if den ≤ num then digitCount (num / den) - 1
  else
    -- one guess from the lengths, at most one too small
    let guess : Int := (digitCount num : Int) - digitCount den
    let (n, d) := if guess < 0 then (num * Nat.pow 10 (-guess).toNat, den) else (num, den)
    if d ≤ n then guess else guess - 1

/-- Trailing zeros moved into the exponent. -/
def strip (fuel digits : Nat) (exponent : Int) : Decimal :=
  match fuel with
  | 0 => ⟨digits, exponent⟩
  | fuel + 1 =>
    if digits ≠ 0 ∧ digits % 10 = 0 then strip fuel (digits / 10) (exponent + 1)
    else ⟨digits, exponent⟩

/-- The first hit among grids of `count`, `count + 1`, … digits, for `more` grids. -/
def search (tie : Tie) (i : Interval) (leading : Int) (count : Nat) : Nat → Decimal
  | 0 => ⟨0, 0⟩
  | more + 1 =>
    let p : Int := leading - count + 1
    match i.onGrid? tie p with
    | some d => strip (count + 1) d p
    | none => search tie i leading (count + 1) more

/-- The shortest decimal of `m · 2 ^ q`; seventeen digits always suffice. -/
def ofMeaning (tie : Tie) (m : Nat) (q : Int) : Decimal :=
  if m = 0 then ⟨0, 0⟩
  else
    let i := interval m q
    search tie i (leadingPlace i.value i.den) 1 17

end Shortest

/-- The shortest decimal of the absolute value of a finite number. -/
def shortest (tie : Tie) (n : Number) : Decimal :=
  match n.meaning with
  | .finite _ m q => Shortest.ofMeaning tie m q
  | _ => ⟨0, 0⟩

/-- The double nearest to `± digits · 10 ^ exponent`. Exponents far outside the range of doubles are
settled before any power is computed. -/
def ofDecimal (negative : Bool) (digits : Nat) (exponent : Int) : Number :=
  let leading := exponent + Shortest.digitCount digits
  if digits = 0 ∨ leading < -330 then ofMagnitude negative 0
  else if 310 < leading then infinity negative
  else ofRatio negative (digits * Nat.pow 10 exponent.toNat) (Nat.pow 10 (-exponent).toNat)

end Conform.Number
