import Conform.Schema.Error
import Conform.Schema.Tree
import Conform.Time.Reading

/-!
# Rule tables

Which rules a type of schema has, and what their arguments must be. Arguments are checked when a
rule is added; an argument that is a reference is checked again, against the same table, when it is
resolved.
-/

namespace Conform

/-- What an argument must be. -/
inductive ArgumentKind
  /-- A whole number that is not negative. -/
  | limit
  /-- A finite number. -/
  | number
  /-- A finite number above zero. -/
  | positive
  /-- A date, milliseconds since the epoch, a date text, or `now`. -/
  | date
  | bool
  | text
  | pattern
  | schema
  /-- A custom rule. -/
  | function
  /-- A reference that the rule resolves itself. -/
  | subject
  deriving DecidableEq, Repr, Inhabited

namespace ArgumentKind

/-- Why a value does not do; none if it does. -/
def rejection? (kind : ArgumentKind) (value : Value) : Option String :=
  match kind with
  | .limit =>
    match value with
    | .number n =>
      if n.isFinite && Number.zero.le n && n.isIntegral then none
      else some "must be a non-negative integer"
    | _ => some "must be a non-negative integer"
  | .number =>
    match value with
    | .number n => if n.isFinite then none else some "must be a number"
    | _ => some "must be a number"
  | .positive =>
    match value with
    | .number n =>
      if n.isFinite && Number.zero.lt n then none else some "must be a positive number"
    | _ => some "must be a positive number"
  | .date =>
    match value with
    | .date _ => none
    | .number n => if n.isFinite then none else some "must be a date"
    | .string s => if s == "now" || (Time.strict? s).isSome then none else some "must be a date"
    | _ => some "must be a date"
  | .bool =>
    match value with
    | .bool _ => none
    | _ => some "must be a boolean"
  | .text =>
    match value with
    | .string _ => none
    | _ => some "must be a string"
  | .pattern => none
  | .schema => none
  | .function => none
  | .subject => none

end ArgumentKind

/-- A parameter of a rule. -/
structure Parameter where
  name : String
  kind : ArgumentKind
  /-- May be a reference. -/
  references : Bool := false
  /-- May be missing. -/
  optional : Bool := false
  deriving DecidableEq, Repr

/-- A rule that a type has. -/
structure RuleSpec where
  name : String
  parameters : List Parameter := []
  /-- Whether rules of this name add up; otherwise the last one counts. -/
  repeats : Bool := false
  deriving DecidableEq, Repr

/-- One limit, which may be a reference. -/
def limitParameter (kind : ArgumentKind) : List Parameter :=
  [{ name := "limit", kind, references := true }]

/-- Rules that compare with a limit. -/
def limitRules (kind : ArgumentKind) (names : List String) : List RuleSpec :=
  names.map fun name => { name, parameters := limitParameter kind }

/-- Rules without parameters. -/
def plainRules (names : List String) : List RuleSpec := names.map fun name => { name }

/-- Rules with one boolean. -/
def switchRule (name parameter : String) : RuleSpec :=
  { name, parameters := [{ name := parameter, kind := .bool }] }

namespace Kind

/-- The rules of a type's own. -/
def ownRules : Kind → List RuleSpec
  | .string =>
    limitRules .limit ["min", "max", "length"] ++
      [{ name := "pattern", repeats := true,
         parameters := [{ name := "regex", kind := .pattern },
          { name := "name", kind := .text, optional := true },
          { name := "invert", kind := .bool }] }] ++
      plainRules ["alphanum", "token"] ++
      [switchRule "hex" "byteAligned", switchRule "base64" "paddingRequired"] ++
      plainRules ["creditCard", "isoDate"] ++
      [{ name := "case", parameters := [{ name := "direction", kind := .text }] },
       switchRule "trim" "enabled"]
  | .number =>
    limitRules .number ["min", "max", "greater", "less"] ++ plainRules ["integer"] ++
      [{ name := "precision", parameters := [{ name := "limit", kind := .limit }] },
       { name := "multiple", repeats := true,
         parameters := [{ name := "base", kind := .positive, references := true }] }] ++
      plainRules ["positive", "negative", "port"]
  | .date => limitRules .date ["min", "max", "greater", "less"]
  | .binary => limitRules .limit ["min", "max", "length"]
  | .array =>
    limitRules .limit ["min", "max", "length"] ++
      [{ name := "unique", repeats := true,
         parameters := [{ name := "comparator", kind := .text, optional := true },
           { name := "ignoreUndefined", kind := .bool }] },
       { name := "has", repeats := true, parameters := [{ name := "schema", kind := .schema }] }]
  | .object =>
    limitRules .limit ["min", "max", "length"] ++
      [{ name := "assert", repeats := true,
         parameters := [{ name := "subject", kind := .subject },
           { name := "schema", kind := .schema }, { name := "message", kind := .text }] }]
  | _ => []

/-- The rule that every type has: a named function. -/
def customRule : RuleSpec :=
  { name := "custom", parameters := [{ name := "method", kind := .function }], repeats := true }

/-- The rule of that name, if the type has it. -/
def rule? (kind : Kind) (name : String) : Option RuleSpec :=
  (kind.ownRules ++ [customRule]).find? fun spec => spec.name == name

end Kind

variable {σ : Type}

/-- Why an argument does not fit its parameter; none if it does. -/
def Parameter.rejection? (p : Parameter) (arg : Argument σ) : Option String :=
  match arg with
  | .reference _ =>
    if p.kind = .subject ∨ p.references then none else some "cannot be a reference"
  | .pattern _ => if p.kind = .pattern then none else some "has the wrong kind"
  | .schema _ => if p.kind = .schema then none else some "has the wrong kind"
  | .function _ => if p.kind = .function then none else some "has the wrong kind"
  | .literal value => if p.optional ∧ !value.isDefined then none else p.kind.rejection? value

/-- Checks arguments against parameters one by one. -/
def checkArguments (rule : String) : List Parameter → List (Argument σ) → Except SchemaError Unit
  | p :: parameters, arg :: args =>
    match p.rejection? arg with
    | some reason => .error (.argument rule (p.name ++ " " ++ reason))
    | none => checkArguments rule parameters args
  | _, _ => .ok ()

/-- Checks the number of arguments and each of them. -/
def RuleSpec.check (spec : RuleSpec) (args : List (Argument σ)) : Except SchemaError Unit :=
  if args.length ≠ spec.parameters.length then
    .error (.argumentCount spec.name spec.parameters.length args.length)
  else checkArguments spec.name spec.parameters args

namespace Node

def kind (n : Node σ) : Kind := n.form.kind

/-- The rules with one more: earlier ones of its name go unless they add up. -/
def appendRule (rules : List (Rule σ)) (rule : Rule σ) (repeats : Bool) : List (Rule σ) :=
  (if repeats then rules else rules.filter fun r => r.name != rule.name) ++ [rule]

/-- Adds a rule of the node's type. -/
def addRule (n : Node σ) (name : String) (args : List (Argument σ)) : Except SchemaError (Node σ) :=
  match n.kind.rule? name with
  | none => .error (.unknownRule n.kind.name name)
  | some spec => do
    spec.check args
    return { n with rules := appendRule n.rules ⟨spec.name, args⟩ spec.repeats }

/-- Allows a value, which is then no longer denied. -/
def allow (n : Node σ) (item : SetItem) : Node σ :=
  { n with allowed := n.allowed.add item, denied := n.denied.remove item }

/-- Denies a value, which is then no longer allowed. -/
def deny (n : Node σ) (item : SetItem) : Node σ :=
  { n with allowed := n.allowed.remove item, denied := n.denied.add item }

end Node

end Conform
