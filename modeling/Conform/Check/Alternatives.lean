import Conform.Check.Basic

/-!
# Alternatives

Entries are tried in order and the first that matches decides. A conditional commits to the branch
it picks, whose outcome stands even if it fails. When nothing matches, the failures are put
together.
-/

namespace Conform.AlternativesForm

/-- The branch of the first case that holds and has one. When the last case tested held without a
branch, nothing is picked, else the branch for all other values. -/
def pickCase (check : Check) (site : Site) (input : Value) (test : Option Schema)
    (otherwise : Option Schema) (held : Bool) : List (Case Schema) → Run (Option Schema)
  | [] => return if held then none else otherwise
  | c :: rest => do
    match c.test <|> test with
    | none => pickCase check site input test otherwise held rest
    | some schema =>
      let held ← check.passes schema input site.position site.prefs
      match held, c.branch with
      | true, some branch => return some branch
      | _, _ => pickCase check site input test otherwise held rest

/-- The branch that a conditional commits to. -/
def pick (check : Check) (site : Site) (value : Value) (condition : Condition Schema)
    (cases : List (Case Schema)) (otherwise : Option Schema) : Run (Option Schema) :=
  match condition with
  | .reference r => pickCase check site (r.resolve value site.scope) none otherwise false cases
  | .schema schema => pickCase check site value (some schema) otherwise false cases

/-- Whether a failure says no more than that the value has the wrong type. -/
def isTypeMismatch (site : Site) (report : Report) : Bool :=
  report.path.length == site.position.depth && report.isBase

/-- The failures of several entries in one list: a list of types if all of them are about the type,
one entry's own failure if it alone is about more, else all of them. -/
def joined (site : Site) (value : Value) (failures : List (List Report)) : List Report :=
  if failures.all fun reports => reports.length == 1 then
    let reports := failures.flatten
    match reports.filter fun report => !isTypeMismatch site report with
    | [] =>
      let types := (reports.map Report.kind).eraseDups.map Value.string
      [site.report "alternatives.types" value [("types", .array types)]]
    | [report] => [report]
    | _ => reports
  else failures.flatten

/-- The reports when no entry matched. -/
def unmatched (site : Site) (value : Value) (failures : List (List Report)) : List Report :=
  match failures with
  | [] => [site.report "alternatives.base" value]
  | [reports] => reports
  | failures => joined site value failures

/-- Tries the entries in order, and last the schema for when no conditional picks a branch. -/
def tryEntries (form : AlternativesForm Schema) (check : Check) (site : Site) (value : Value)
    (failures : List (List Report)) : List (Match Schema) → Run Outcome
  | [] =>
    match form.base with
    | some base => check base value site.position site.prefs
    | none => return { value, reports := unmatched site value failures }
  | .attempt schema :: rest => do
    let outcome ← check schema value site.position site.prefs
    if outcome.isOk then return outcome
    else form.tryEntries check site value (failures ++ [outcome.reports]) rest
  | .conditional condition cases otherwise :: rest => do
    match ← pick check site value condition cases otherwise with
    | some branch => check branch value site.position site.prefs
    | none => form.tryEntries check site value failures rest

/-- Checks a value by alternatives. -/
def check (form : AlternativesForm Schema) (check : Check) (site : Site) (value : Value) :
    Run Outcome :=
  form.tryEntries check site value [] form.entries

end Conform.AlternativesForm
