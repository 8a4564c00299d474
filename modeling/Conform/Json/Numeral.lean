import Conform.Json.Basic

/-!
# Numerals of JSON texts

A numeral without fraction and exponent that fits 64 bits is an integer. Every other numeral is a
double computed from as many of its digits as fit 64 bits, scaled by one power of ten, or by two
when the exponent is far below the range; digits that no longer fit count only by their place. The
result can differ from the nearest double in its last bit. A numeral past the largest double has no
value.
-/

namespace Conform.Json

/-- The digits of a numeral read so far: those that fit 64 bits, and the power of ten to scale
by. -/
structure Significand where
  digits : Nat
  exponent : Int
  full : Bool
  deriving Repr

namespace Significand

def empty : Significand := ⟨0, 0, false⟩

/-- Takes a digit in front of the point. -/
def pushWhole (s : Significand) (digit : Nat) : Significand :=
  if s.full ∨ Nat.pow 2 64 ≤ s.digits * 10 + digit then
    { s with exponent := s.exponent + 1, full := true }
  else { s with digits := s.digits * 10 + digit }

/-- Takes a digit behind the point. Once one no longer fits, all further ones are dropped. -/
def pushFraction (s : Significand) (digit : Nat) : Significand :=
  if s.full ∨ Nat.pow 2 64 ≤ s.digits * 10 + digit then { s with full := true }
  else { s with digits := s.digits * 10 + digit, exponent := s.exponent - 1 }

end Significand

/-- `10 ^ n` as a double, for `n` up to 308. -/
def powerOfTen (n : Nat) : Number := Number.ofDecimal false 1 n

/-- `digits · 10 ^ exponent` by at most one product, or by quotients. -/
def scale? (digits : Nat) (exponent : Int) : Option Number :=
  let significand := Number.ofNat digits
  if exponent.natAbs ≤ 308 then
    if 0 ≤ exponent then
      let product := significand.mul (powerOfTen exponent.toNat)
      if product.isInfinite then none else some product
    else some (significand.div (powerOfTen exponent.natAbs))
  else if digits = 0 then some significand
  else if 0 ≤ exponent then none
  else
    let lowered := significand.div (powerOfTen 308)
    if -616 ≤ exponent then some (lowered.div (powerOfTen (exponent + 308).natAbs))
    else some (Number.ofMagnitude false 0)

/-- The value of a numeral with a fraction or an exponent, or too long for an integer. -/
def float? (negative : Bool) (digits : Nat) (exponent : Int) : Option Json :=
  (scale? digits exponent).map fun n => .float (if negative then n.neg else n)

/-- The value of a numeral without fraction and exponent: an integer if it fits, and a negative zero
or a negative numeral past 64 bits as a double. -/
def whole? (negative : Bool) (s : Significand) : Option Json :=
  if s.full then float? negative s.digits s.exponent
  else if !negative then some (.int s.digits)
  else if s.digits = 0 ∨ Nat.pow 2 63 < s.digits then some (.float (Number.ofNat s.digits).neg)
  else some (.int (-(s.digits : Int)))

/-- The value of a numeral with an exponent. An exponent past 32 bits makes zero or nothing. -/
def withExponent? (negative : Bool) (s : Significand) (negativeExponent : Bool) (exponent : Nat) :
    Option Json :=
  if Nat.pow 2 31 ≤ exponent then
    if s.digits ≠ 0 ∧ !negativeExponent then none
    else some (.float (if negative then Number.zero.neg else Number.zero))
  else
    let signed : Int := if negativeExponent then -(exponent : Int) else exponent
    float? negative s.digits (s.exponent + signed)

end Conform.Json
