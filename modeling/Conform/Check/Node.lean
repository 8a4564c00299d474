import Conform.Check.Alternatives
import Conform.Check.Array
import Conform.Check.Binary
import Conform.Check.Boolean
import Conform.Check.Date
import Conform.Check.Number
import Conform.Check.Object
import Conform.Check.String
import Conform.Report.Messages

/-!
# Checking by a node

The steps that every node takes, in their order: conversion, values that count as missing,
presence, allowed and denied values, the check of the type, the rules, and the finish, which puts
in replacements and defaults. Any step may lead straight to the finish.
-/

namespace Conform

namespace Site

def node (site : Site) : Node Schema := site.schema.node

/-! ### The finish -/

/-- The value that a default stands for here. -/
def defaultValue (site : Site) : Default → Except Report Value
  | .value v => .ok v
  | .reference r => .ok (r.resolve .undefined site.scope)
  | .function name =>
    match site.env.registry.defaults name with
    | none => .ok .undefined
    | some f =>
      match f ((site.position.ancestor? 0).getD .undefined) site.prefs with
      | .ok value => .ok value
      | .error reason => .error (site.report "any.default" .undefined [("error", .string reason)])
  | .deep => .ok .undefined

/-- What replaces a value that failed, if there is something. -/
def replacement? (site : Site) : Option Value :=
  match site.node.flags.failover.map site.defaultValue with
  | some (.ok value) => if value.isDefined then some value else none
  | _ => none

/-- Replaces a value that failed, and forgets the reports. -/
def recover (site : Site) (value : Value) (reports : List Report) : Value × List Report :=
  if reports.isEmpty then (value, reports)
  else
    match site.replacement? with
    | some replacement => (replacement, [])
    | none => (value, reports)

/-- Under a message of the schema's own, one report with that message stands for all. -/
def withOwnMessage (site : Site) (value : Value) (reports : List Report) : List Report :=
  match reports, site.node.flags.message with
  | first :: _, some template =>
    let report := site.report first.code value
    [{ report with message := some (Template.interpolate template report.context) }]
  | reports, _ => reports

/-- Puts the default in for a missing value. -/
def fillIn (site : Site) (value : Value) (reports : List Report) : Value × List Report :=
  if value.isDefined || site.prefs.noDefaults then (value, reports)
  else
    match site.node.flags.default.map site.defaultValue with
    | none => (value, reports)
    | some (.ok value) => (value, reports)
    | some (.error report) => (value, reports ++ [report])

/-- Finishes a node: replacement, message, default, and, if asked for, the value as it came. -/
def finish (site : Site) (value : Value) (reports : List Report) (strip : Bool := false) :
    Outcome :=
  let (value, reports) := site.recover value reports
  let reports := site.withOwnMessage value reports
  let (value, reports) := site.fillIn value reports
  { value := if site.node.flags.raw then site.input else value
    reports
    strip := strip || site.node.flags.strip }

/-! ### The steps -/

/-- Converts a value by the type. -/
def convert (site : Site) (value : Value) : Except Report Value :=
  if !site.prefs.convert || !value.isDefined then .ok value
  else
    match site.node.form with
    | .array _ => .ok (ArrayForm.coerce value)
    | .binary encoding => .ok (Binary.coerce encoding value)
    | .boolean form => .ok (form.coerce site value)
    | .date format => .ok (DateCheck.coerce format value)
    | .number allowUnsafe => NumberCheck.coerce allowUnsafe site value
    | .object _ => .ok (ObjectForm.coerce value)
    | .string form => .ok (form.coerce site value)
    | _ => .ok value

/-- Takes a value away that counts as missing. -/
def dropEmpty (site : Site) (check : Check) (value : Value) : Run Value := do
  match site.node.empty with
  | some empty =>
    if value.isDefined then
      return if ← check.passes empty value site.position site.prefs then .undefined else value
    else return value
  | none => return value

/-- The presence that the node asks for: its own, or that of the preferences. -/
def presence (site : Site) : Presence :=
  match site.node.flags.presence, site.prefs.presence with
  | some presence, _ => presence
  | none, .ignore => .optional
  | none, presence => presence

/-- Whether a missing value is made from the defaults of its children. -/
def isDeep (site : Site) : Bool :=
  !site.prefs.noDefaults &&
    match site.node.flags.default with
    | some .deep => true
    | _ => false

/-- The check of presence: a value to go on with, or the reports to finish with. -/
def checkPresence (site : Site) (value : Value) : Except (List Report) Value :=
  match site.presence, value.isDefined with
  | .required, false => .error [site.report "any.required" value]
  | .forbidden, true => .error [site.report "any.unknown" value]
  | .forbidden, false => .error []
  | .optional, false => if site.isDeep then .ok (.object []) else .error []
  | _, _ => .ok value

/-- The allowed value that the value equals, in the spelling to go on with. -/
def allowed? (site : Site) (value : Value) : Option Value :=
  (site.node.allowed.get? value site.scope site.node.flags.insensitive).map fun found =>
    if site.prefs.convert then found else value

/-- The reports on a value that is not allowed: because it is denied, and because only allowed ones
are taken. -/
def denials (site : Site) (value : Value) : List Report :=
  let code := match value with
    | .string "" => "any.empty"
    | _ => "any.invalid"
  (if site.node.denied.has value site.scope site.node.flags.insensitive then
    [site.report code value [("invalids", .array site.node.denied.toValues)]] else []) ++
  (if site.node.flags.only then
    [site.report "any.allowOnly" value [("valids", .array site.node.allowed.toValues)]] else [])

/-- The check of the type. -/
def checkBase (site : Site) (check : Check) (value : Value) : Run Outcome :=
  match site.node.form with
  | .any => return { value }
  | .alternatives form => form.check check site value
  | .array form => form.base check site value
  | .binary _ => return Binary.base site value
  | .boolean _ => return BooleanForm.base site value
  | .date format => return DateCheck.base format site value
  | .lazy form => do
    let schema ← site.env.force form
    check schema value site.position site.prefs
  | .number allowUnsafe => return NumberCheck.base allowUnsafe site value
  | .object form => form.base check site value
  | .string _ => return StringForm.base site value

/-! ### Rules -/

/-- The value of an argument: itself, what it references, or nothing. A reference to something that
the parameter does not admit is reported. -/
def resolveArgument (site : Site) (value : Value) (p : Parameter) (arg : Argument Schema) :
    Except Report Value :=
  match arg with
  | .literal v => .ok v
  | .reference r =>
    if p.kind = .subject then .ok .undefined
    else
      let found := r.resolve value site.scope
      match p.kind.rejection? found with
      | none => .ok found
      | some reason =>
        .error (site.report "any.ref" value
          [("ref", .string r.display), ("arg", .string p.name), ("reason", .string reason)])
  | _ => .ok .undefined

/-- The arguments of a rule by parameter. -/
def resolveArguments (site : Site) (value : Value) (parameters : List Parameter)
    (args : List (Argument Schema)) : Except Report Given := do
  let values ← (parameters.zip args).mapM fun (p, arg) => do
    return (p.name, ← site.resolveArgument value p arg)
  return { values, stored := (parameters.map (·.name)).zip args }

/-- The rule of a named function. A function that gives nothing keeps the value. -/
def customRule (site : Site) (given : Given) (value : Value) : Except Report Value :=
  match given.function? "method" with
  | none => .ok value
  | some name =>
    match site.env.registry.customs name with
    | none => .ok value
    | some f =>
      match f value site.prefs with
      | .ok replacement => .ok (if replacement.isDefined then replacement else value)
      | .error reason =>
        .error (site.report "any.custom" value [("error", .string reason), ("name", .string name)])

/-- The rules of a type. -/
def typeRule (site : Site) (check : Check) (name : String) (given : Given) (value : Value) :
    Run (Except Report Value) :=
  match site.node.form with
  | .array _ => ArrayForm.rule check site name given value
  | .binary _ => return Binary.rule site name given value
  | .date _ => return DateCheck.rule site name given value
  | .number _ => return NumberCheck.rule site name given value
  | .object _ => ObjectForm.rule check site name given value
  | .string _ => return StringForm.rule site name given value
  | _ => return .ok value

/-- Applies one rule. -/
def applyRule (site : Site) (check : Check) (value : Value) (rule : Rule Schema) :
    Run (Except Report Value) :=
  match site.node.kind.rule? rule.name with
  | none => return .ok value
  | some spec =>
    match site.resolveArguments value spec.parameters rule.args with
    | .error report => return .error report
    | .ok given =>
      if spec.name = "custom" then return site.customRule given value
      else site.typeRule check spec.name given value

/-- Applies rules in order; each sees the value that the one before it gave. -/
def applyRules (site : Site) (check : Check) (value : Value) (reports : List Report) :
    List (Rule Schema) → Run (Value × List Report)
  | [] => return (value, reports)
  | rule :: rest => do
    match ← site.applyRule check value rule with
    | .ok value => site.applyRules check value reports rest
    | .error report =>
      let reports := reports ++ [report]
      if site.prefs.abortEarly then return (value, reports)
      else site.applyRules check value reports rest

/-- The check of the type and the rules, for a value already reported on as `reports` say. -/
def checkContent (site : Site) (check : Check) (value : Value) (reports : List Report) :
    Run Outcome := do
  let base ← site.checkBase check value
  if !base.isOk then return site.finish base.value (reports ++ base.reports) base.strip
  let (value, reports) ← site.applyRules check base.value reports site.node.rules
  return site.finish value reports base.strip

/-- All that comes after the check of presence. -/
def checkPresent (site : Site) (check : Check) (value : Value) : Run Outcome :=
  match site.allowed? value with
  | some value => return site.finish value []
  | none =>
    match site.denials value, site.prefs.abortEarly with
    | report :: _, true => return site.finish value [report]
    | reports, _ => site.checkContent check value reports

/-- All steps of a node. -/
def run (site : Site) (check : Check) : Run Outcome := do
  match site.convert site.input with
  | .error report => return site.finish site.input [report]
  | .ok value =>
    let value ← site.dropEmpty check value
    match site.checkPresence value with
    | .error reports => return site.finish value reports
    | .ok value => site.checkPresent check value

end Site

/-- Checks by a node, its inner schemas being checked by `check`. -/
def Check.node (env : Environment) (check : Check) : Check := fun schema value position prefs =>
  Site.run ⟨env, schema, position, prefs.merged schema.node.prefs, value⟩ check

/-- Checks by a schema whose nodes stand no more than `fuel` deep. -/
def Check.within (env : Environment) : Nat → Check
  | 0 => fun _ _ _ _ => failure
  | fuel + 1 => Check.node env (Check.within env fuel)

/-- Nodes may stand this deep inside one another. Schemas made by lazy nodes count, so a schema that
makes itself forever ends here. -/
def nestingLimit : Nat := 20000

namespace Schema

/-- Checks a value that stands at the root. -/
def check (env : Environment) (schema : Schema) (value : Value) (prefs : Preferences) :
    Run Outcome :=
  Check.within env nestingLimit schema value .root prefs

/-- Validates a value: what comes of it, and the failures with their messages. -/
def validate (env : Environment) (schema : Schema) (value : Value) (prefs : Preferences := {})
    (renderer : Messages.Renderer := Messages.english) : Run Verdict := do
  let outcome ← schema.check env value prefs
  return {
    value := if outcome.strip then .undefined else outcome.value
    failures := outcome.reports.map (Messages.detail prefs.messages.entries renderer) }

end Schema

end Conform
