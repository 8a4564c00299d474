import Conform.Check.Basic

/-!
# Booleans

Converting reads `true` and `false` and the values declared truthy or falsy; unless the schema is
sensitive, case does not matter.
-/

namespace Conform.BooleanForm

/-- The boolean that a value stands for. -/
def read? (form : BooleanForm) (value : Value) (scope : Scope) : Option Bool :=
  let spelled : Option Bool := match value with
    | .string s =>
      let s := if form.sensitive then s else Text.lower s
      if s == "true" then some true else if s == "false" then some false else none
    | _ => none
  spelled
    <|> (if form.truthy.has value scope !form.sensitive then some true else none)
    <|> (if form.falsy.has value scope !form.sensitive then some false else none)

def coerce (form : BooleanForm) (site : Site) (value : Value) : Value :=
  match value with
  | .bool b => .bool b
  | value => ((form.read? value site.scope).map Value.bool).getD value

/-- Only booleans pass. -/
def base (site : Site) (value : Value) : Outcome :=
  match value with
  | .bool b => { value := .bool b }
  | value => .failure value (site.report "boolean.base" value)

end Conform.BooleanForm
