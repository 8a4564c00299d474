import Conform.Check.Basic
import Conform.Number.Reading
import Conform.Time.Reading

/-!
# Dates

Converting reads date texts and numbers of milliseconds, or, as the schema says, of seconds. Dates
are compared to the millisecond.
-/

namespace Conform.DateCheck

/-- Whether a text is digits with an optional sign in front and an optional point inside. -/
def isPlainNumeral (text : String) : Bool :=
  let (_, body) := Number.signed text.toList
  let whole := body.takeWhile Char.isDigit
  match Number.afterDigits body with
  | [] => !whole.isEmpty
  | '.' :: fraction => !whole.isEmpty && !fraction.isEmpty && fraction.all Char.isDigit
  | _ => false

/-- The date of a number in a format; the text format takes no numbers. -/
def ofNumber? (format : Option DateFormat) (n : Number) : Option Instant :=
  match format with
  | some .unix => Instant.ofNumber? (n.mul (Number.ofNat 1000))
  | some .iso => none
  | _ => Instant.ofNumber? n

/-- The date of a text in a format: a date text where texts are expected, else a numeral. -/
def ofText? (format : Option DateFormat) (text : String) : Option Instant :=
  if (Text.trimBlank text.toList).isEmpty then none
  else if format = some .iso then Time.read? text
  else if isPlainNumeral text then
    (Number.Numeral.ofChars? text.toList).bind fun numeral => ofNumber? format numeral.toNumber
  else if format = none then Time.read? text
  else none

/-- The date that a value stands for. -/
def read? (format : Option DateFormat) (value : Value) : Option Instant :=
  match value with
  | .date t => some t
  | .number n => ofNumber? format n
  | .string text => ofText? format text
  | _ => none

/-- The date that a limit stands for; `now` is the time of the validation. -/
def limit? (now : Instant) (value : Value) : Option Instant :=
  match value with
  | .string "now" => some now
  | value => read? none value

def coerce (format : Option DateFormat) (value : Value) : Value :=
  match value with
  | .number n => ((read? format (.number n)).map Value.date).getD value
  | .string s => ((read? format (.string s)).map Value.date).getD value
  | value => value

/-- Only dates pass. A text that could not be read is reported with the format it should have
had. -/
def base (format : Option DateFormat) (site : Site) (value : Value) : Outcome :=
  match value with
  | .date t => { value := .date t }
  | value =>
    match format, value.string?, site.prefs.convert with
    | some format, some _, true =>
      .failure value (site.report "date.format" value [("format", .string format.name)])
    | _, _, _ => .failure value (site.report "date.base" value)

/-- A comparison with the limit, in milliseconds. -/
def compare (site : Site) (code : String) (given : Given) (value : Value)
    (passes : Int → Int → Bool) : Except Report Value :=
  match limit? site.env.now (given.value "limit") with
  | none => .error (site.limitReport code value (given.value "limit"))
  | some limit =>
    if (value.date?.map fun t => passes t.millis limit.millis).getD false then .ok value
    else .error (site.limitReport code value (.date limit))

/-- The rules of dates. -/
def rule (site : Site) (name : String) (given : Given) (value : Value) : Except Report Value :=
  match name with
  | "min" => compare site "date.min" given value fun t limit => decide (limit ≤ t)
  | "max" => compare site "date.max" given value fun t limit => decide (t ≤ limit)
  | "greater" => compare site "date.greater" given value fun t limit => decide (limit < t)
  | "less" => compare site "date.less" given value fun t limit => decide (t < limit)
  | _ => .ok value

end Conform.DateCheck
