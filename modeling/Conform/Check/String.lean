import Conform.Check.Basic
import Conform.Time.Reading

/-!
# Texts

Converting changes case, trims, replaces and cuts, in that order; the rules then look at the result
only. Lengths are counted in characters.
-/

namespace Conform.StringForm

/-- The text in the case that the last case rule asks for. -/
def inCase (schema : Schema) (text : String) : String :=
  match (schema.rule? "case").bind (·.args.head?) with
  | some (.literal (.string direction)) =>
    if direction == "upper" then Text.upper text else Text.lower text
  | _ => text

/-- The text trimmed if the last trim rule is on. -/
def trimmed (schema : Schema) (text : String) : String :=
  match (schema.rule? "trim").bind (·.args.head?) with
  | some (.literal (.bool true)) => Text.trim text
  | _ => text

/-- The text with the replacements made one after another. -/
def replaced (form : StringForm) (text : String) : String :=
  form.replacements.foldl (fun text (pattern, template) => pattern.replaceAll text template) text

/-- The limit that the last max rule sets for a text. -/
def cutLimit? (site : Site) (text : String) : Option Nat := do
  let arg ← (site.schema.rule? "max").bind (·.args.head?)
  let limit ← match arg with
    | .literal value => value.number?
    | .reference r => (r.resolve (.string text) site.scope).number?
    | _ => none
  if limit.isFinite && Number.zero.le limit then some limit.toCount else none

/-- The text cut down to the limit, if the schema truncates. -/
def cut (form : StringForm) (site : Site) (text : String) : String :=
  if form.truncate then
    match cutLimit? site text with
    | some limit => String.ofList (text.toList.take limit)
    | none => text
  else text

def coerce (form : StringForm) (site : Site) (value : Value) : Value :=
  match value with
  | .string text =>
    .string (form.cut site (form.replaced (trimmed site.schema (inCase site.schema text))))
  | value => value

/-- Only texts pass. -/
def base (site : Site) (value : Value) : Outcome :=
  match value with
  | .string s => { value := .string s }
  | value => .failure value (site.report "string.base" value)

/-- A digit counted twice, the digits of the product added up. -/
def doubled (digit : Nat) : Nat := if 9 < digit * 2 then digit * 2 - 9 else digit * 2

/-- The sum of digits, last one first, every second of them doubled. -/
def luhnSum : List Nat → Nat
  | [] => 0
  | [d] => d
  | d :: e :: rest => d + doubled e + luhnSum rest

/-- Digits whose weighted sum, counted from the right, is a multiple of ten. -/
def luhn (text : String) : Bool :=
  let cs := text.toList
  !cs.isEmpty && cs.all Char.isDigit &&
    luhnSum (cs.reverse.map fun c => c.toNat - '0'.toNat) % 10 == 0

def isHexDigit (c : Char) : Bool := (Bytes.hexValue? c).isSome

/-- A test of the text; other values fail it. -/
def test (site : Site) (code : String) (value : Value) (passes : String → Bool) :
    Except Report Value :=
  site.require code value ((value.string?.map passes).getD false)

/-- The text; empty for other values. -/
def textOf (value : Value) : String := value.string?.getD ""

/-- The rule of patterns. -/
def patternRule (site : Site) (given : Given) (value : Value) : Except Report Value :=
  match given.pattern? "regex" with
  | none => .ok value
  | some pattern =>
    let invert := given.isTrue "invert"
    if pattern.isMatch (textOf value) != invert then .ok value
    else
      let context := [("pattern", Value.string pattern.source)]
      let code := if invert then "string.regex.invert" else "string.regex"
      match given.text? "name" with
      | some name =>
        .error (site.report (code ++ ".name") value (context ++ [("name", .string name)]))
      | none => .error (site.report (code ++ ".base") value context)

/-- The rule of hexadecimal digits, possibly in pairs. -/
def hexRule (site : Site) (given : Given) (value : Value) : Except Report Value :=
  let cs := (textOf value).toList
  if cs.isEmpty || !cs.all isHexDigit then .error (site.report "string.hex" value)
  else site.require "string.hexAlign" value (!(given.isTrue "byteAligned" && cs.length % 2 != 0))

/-- The rule of date texts; converting writes the date out in UTC. -/
def isoDateRule (site : Site) (value : Value) : Except Report Value :=
  match value.string?.bind Time.read? with
  | some t => .ok (if site.prefs.convert then .string t.text else value)
  | none => .error (site.report "string.isoDate" value)

/-- The rule of case. -/
def caseRule (site : Site) (given : Given) (value : Value) : Except Report Value :=
  let text := textOf value
  if given.text? "direction" == some "upper" then
    site.require "string.uppercase" value (Text.upper text == text)
  else site.require "string.lowercase" value (Text.lower text == text)

/-- The rules of texts. -/
def rule (site : Site) (name : String) (given : Given) (value : Value) : Except Report Value :=
  let limit := given.count "limit"
  let size := (textOf value).length
  match name with
  | "min" => site.requireSize "string.min" value limit (decide (limit ≤ size))
  | "max" => site.requireSize "string.max" value limit (decide (size ≤ limit))
  | "length" => site.requireSize "string.length" value limit (decide (size = limit))
  | "pattern" => patternRule site given value
  | "alphanum" =>
    test site "string.alphanum" value fun s => !s.isEmpty && s.toList.all Char.isAlphanum
  | "token" =>
    test site "string.token" value fun s =>
      !s.isEmpty && s.toList.all fun c => c.isAlphanum || c == '_'
  | "hex" => hexRule site given value
  | "base64" =>
    let padding := if given.isTrue "paddingRequired" then .needed else .optional
    site.require "string.base64" value (Bytes.ofBase64? padding (textOf value)).isSome
  | "creditCard" => test site "string.creditCard" value luhn
  | "isoDate" => isoDateRule site value
  | "case" => caseRule site given value
  | "trim" =>
    if given.isTrue "enabled" then test site "string.trim" value fun s => Text.trim s == s
    else .ok value
  | _ => .ok value

end Conform.StringForm
