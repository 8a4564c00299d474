import Conform.Check.Basic
import Conform.Number.Reading
import Conform.Number.Text

/-!
# Numbers

Converting reads numerals. A numeral whose digits a double cannot keep is refused rather than
changed, unless the schema allows that. Where a precision is set, converting also rounds to it.
-/

namespace Conform.NumberCheck

/-- The number that a text stands for: none if it is no numeral, an error if digits would be
lost. -/
def read? (allowUnsafe : Bool) (text : String) : Option (Except Unit Number) := do
  let numeral ← Number.Numeral.ofChars? (Text.trimBlank text.toList)
  let number := numeral.toNumber
  let number := if number.isZero then Number.zero else number
  if number.isFinite && !allowUnsafe && numeral.significantDigits != number.significantDigits then
    return .error ()
  else return .ok number

def coerce (allowUnsafe : Bool) (site : Site) (value : Value) : Except Report Value :=
  match value with
  | .string text =>
    match read? allowUnsafe text with
    | some (.ok number) => .ok (.number number)
    | some (.error ()) => .error (site.report "number.unsafe" value)
    | none => .ok value
  | value => .ok value

/-- The largest whole number that every representation keeps. -/
def maxSafe : Number := Number.ofNat (Number.safeIntegerBound - 1)

/-- The number without its sign. -/
def abs (n : Number) : Number := Number.ofMagnitude false n.magnitude

/-- The number of decimal places asked for by a literal argument of the last precision rule. -/
def places? (schema : Schema) : Option Nat := do
  let rule ← schema.rule? "precision"
  match rule.args.head? with
  | some (.literal (.number n)) => some (n.clampInt 0 0x7fffffff).toNat
  | _ => none

/-- The number rounded to some decimal places; as it is if that leaves the range. -/
def roundTo (places : Nat) (n : Number) : Number :=
  let factor := Number.pow 10 places
  let rounded := (n.mul factor).round.div factor
  if rounded.isFinite then rounded else n

/-- Finite numbers pass, and, unless the schema allows it, none that other representations would
change. -/
def base (allowUnsafe : Bool) (site : Site) (value : Value) : Outcome :=
  match value with
  | .number n =>
    if n.isNaN then .failure value (site.report "number.base" value)
    else if n.isInfinite then .failure value (site.report "number.infinity" value)
    else if !allowUnsafe && maxSafe.lt (abs n) then
      .failure value (site.report "number.unsafe" value)
    else
      match site.prefs.convert, places? site.schema with
      | true, some places => { value := .number (roundTo places n) }
      | _, _ => { value }
  | value => .failure value (site.report "number.base" value)

/-- A comparison with the limit. -/
def compare (site : Site) (code : String) (given : Given) (value : Value)
    (passes : Number → Number → Bool) : Except Report Value :=
  let limit := given.number "limit"
  match value.number? with
  | some n =>
    if passes n limit then .ok value else .error (site.limitReport code value (.number limit))
  | none => .error (site.limitReport code value (.number limit))

/-- A test of the number. -/
def test (site : Site) (code : String) (value : Value) (passes : Number → Bool) :
    Except Report Value :=
  site.require code value ((value.number?.map passes).getD false)

/-- The rules of numbers. -/
def rule (site : Site) (name : String) (given : Given) (value : Value) : Except Report Value :=
  match name with
  | "min" => compare site "number.min" given value fun n limit => limit.le n
  | "max" => compare site "number.max" given value fun n limit => n.le limit
  | "greater" => compare site "number.greater" given value fun n limit => limit.lt n
  | "less" => compare site "number.less" given value fun n limit => n.lt limit
  | "integer" => test site "number.integer" value Number.isIntegral
  | "precision" =>
    let limit := given.count "limit"
    site.requireSize "number.precision" value limit
      ((value.number?.map fun n => decide (n.decimalPlaces ≤ limit)).getD false)
  | "multiple" =>
    let base := given.number "base"
    if (value.number?.map fun n => n.isMultipleOf base).getD false then .ok value
    else .error (site.report "number.multiple" value [("multiple", .number base)])
  | "positive" => test site "number.positive" value (Number.zero.lt ·)
  | "negative" => test site "number.negative" value (·.lt Number.zero)
  | "port" =>
    test site "number.port" value fun n =>
      n.isIntegral && Number.zero.le n && n.le (Number.ofNat 65535)
  | _ => .ok value

end Conform.NumberCheck
