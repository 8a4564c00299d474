import Conform.Number.Shortest

/-!
# Writing numbers

One way to lay out the shortest decimal of a number, and the two layouts in use: the plain one,
which never has an exponent, and the one of JSON documents.
-/

namespace Conform.Number

/-- How the digits of a decimal become text. -/
structure Layout where
  /-- Leading-digit places written without an exponent; every place when absent. -/
  positional : Option (Int × Int)
  /-- Whether a whole number keeps `.0`. -/
  keepsPoint : Bool
  /-- Which of two shortest decimals equally near to the number is written. -/
  tie : Tie
  deriving DecidableEq, Repr

/-- The plain layout: no exponent, a point only before a fraction, and a tie going up. -/
def plainLayout : Layout := ⟨none, false, .up⟩

/-- The layout of JSON documents: a point always, an exponent with its sign for numbers below
`10 ^ -5` or from `10 ^ 16` on, and a tie going to the even digit. -/
def jsonLayout : Layout := ⟨some (-5, 15), true, .toEven⟩

/-- The digits with the point after the first `places` of them, zeros filling the gaps. -/
def positionalText (keepsPoint : Bool) (digits : String) (places : Int) : String :=
  let count : Int := digits.length
  if places ≤ 0 then "0." ++ "".pushn '0' (-places).toNat ++ digits
  else if count ≤ places then
    digits ++ "".pushn '0' (places - count).toNat ++ (if keepsPoint then ".0" else "")
  else
    let cs := digits.toList
    String.ofList (cs.take places.toNat) ++ "." ++ String.ofList (cs.drop places.toNat)

/-- The digits as `d.ddd` and an exponent. -/
def exponentText (digits : String) (exponent : Int) : String :=
  let mantissa := match digits.toList with
    | first :: second :: rest => String.ofList (first :: '.' :: second :: rest)
    | short => String.ofList short
  mantissa ++ "e" ++ (if exponent < 0 then "-" else "+") ++ toString exponent.natAbs

/-- The absolute value of a finite number in a layout. -/
def Decimal.text (layout : Layout) (d : Decimal) : String :=
  if d.digits = 0 then (if layout.keepsPoint then "0.0" else "0")
  else
    let digits := toString d.digits
    let places := d.exponent + digits.length
    match layout.positional with
    | none => positionalText layout.keepsPoint digits places
    | some (lowest, highest) =>
      if lowest ≤ places - 1 ∧ places - 1 ≤ highest then
        positionalText layout.keepsPoint digits places
      else exponentText digits (places - 1)

/-- A finite number in a layout, with its sign. -/
def text (layout : Layout) (n : Number) : String :=
  (if n.isNegative then "-" else "") ++ (n.shortest layout.tie).text layout

/-- The plain text of any number. -/
def plainText (n : Number) : String :=
  if n.isNaN then "NaN"
  else if n.isInfinite then (if n.isNegative then "-inf" else "inf")
  else n.text plainLayout

/-- How many digits the plain text has after its point. -/
def decimalPlaces (n : Number) : Nat :=
  if n.isFinite then (-(n.shortest plainLayout.tie).exponent).toNat else 0

end Conform.Number
