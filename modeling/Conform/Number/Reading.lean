import Conform.Number.Shortest
import Conform.Text.Blank

/-!
# Reading numerals

Decimal numerals as people write them: an optional sign, digits with an optional point among or
around them, and an optional exponent. A numeral reads as the nearest double.
-/

namespace Conform.Number

/-- A numeral taken apart. The value is `± digits · 10 ^ (exponent - fraction length)`. -/
structure Numeral where
  negative : Bool
  whole : List Char
  fraction : List Char
  exponent : Int
  deriving Repr, DecidableEq

def digitsToNat (cs : List Char) : Nat := cs.foldl (fun acc c => acc * 10 + (c.toNat - '0'.toNat)) 0

/-- A sign, if there is one. -/
def signed : List Char → Bool × List Char
  | '-' :: rest => (true, rest)
  | '+' :: rest => (false, rest)
  | cs => (false, cs)

/-- What is left after the digits at the front. -/
def afterDigits (cs : List Char) : List Char := cs.dropWhile Char.isDigit

/-- The exponent that ends a numeral, zero if there is none. -/
def exponentOf? : List Char → Option Int
  | [] => some 0
  | c :: rest =>
    let (negative, digits) := signed rest
    if (c = 'e' ∨ c = 'E') ∧ !digits.isEmpty ∧ digits.all Char.isDigit then
      some (if negative then -(digitsToNat digits : Int) else digitsToNat digits)
    else none

namespace Numeral

/-- The parts of a numeral; none if the text is not one. -/
def ofChars? (cs : List Char) : Option Numeral := do
  let (negative, cs) := signed cs
  let whole := cs.takeWhile Char.isDigit
  let rest := afterDigits cs
  let (fraction, rest) := match rest with
    | '.' :: rest => (rest.takeWhile Char.isDigit, afterDigits rest)
    | rest => ([], rest)
  let exponent ← exponentOf? rest
  if whole.isEmpty && fraction.isEmpty then none
  else some ⟨negative, whole, fraction, exponent⟩

/-- The nearest double. -/
def toNumber (n : Numeral) : Number :=
  ofDecimal n.negative (digitsToNat (n.whole ++ n.fraction)) (n.exponent - n.fraction.length)

/-- The digits without zeros at either end. -/
def significantDigits (n : Numeral) : List Char :=
  (((n.whole ++ n.fraction).dropWhile (· == '0')).reverse.dropWhile (· == '0')).reverse

end Numeral

/-- The digits of the shortest decimal of a finite number; none for zero. -/
def significantDigits (n : Number) : List Char :=
  if n.isZero then [] else Nat.toDigits 10 (n.shortest .up).digits

end Conform.Number
