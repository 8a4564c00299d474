import Conform.Report.Basic
import Conform.Schema.Registry
import Conform.Schema.Traverse

/-!
# Checking values

What all checks share: what one node produced, what a check knows besides the value, and the little
state that validations keep, namely the schemas that lazy nodes have made.

A check of inner schemas is a parameter everywhere (`Check`). The recursion is closed in one place,
so each step can be read, and reasoned about, on its own.
-/

namespace Conform

/-- What checking a value by a schema gives. -/
structure Outcome where
  value : Value
  reports : List Report := []
  /-- Whether the parent is to drop the value once its siblings are checked. -/
  strip : Bool := false
  deriving Inhabited

namespace Outcome

def isOk (o : Outcome) : Bool := o.reports.isEmpty

/-- A failure with one report. -/
def failure (value : Value) (report : Report) : Outcome := { value, reports := [report] }

end Outcome

/-- Schemas made by lazy nodes, and how often each generator was used. -/
structure Workshop where
  /-- The next stamp or cell to give away. -/
  nextNumber : Nat := 0
  /-- The schemas kept, by the form of the node: its generator and its cell. -/
  cells : List (LazyForm × Schema) := []
  uses : List (String × Nat) := []
  deriving Inhabited

/-- A computation that may use lazy schemas. Nothing comes of one that nests too deep. -/
abbrev Run := StateT Workshop Option

/-- What is the same for a whole validation: the registered functions and the time. -/
structure Environment where
  registry : Registry := {}
  now : Instant := default

namespace Environment

/-- What a generator makes after so many uses. -/
def made (env : Environment) (name : String) (used : Nat) : Schema :=
  match env.registry.generators name with
  | some generator => generator used
  | none => default

/-- Makes a schema by a generator; the lazy schemas inside get cells. -/
def generate (env : Environment) (name : String) : Run Schema := do
  let shop ← get
  let used := (Members.get? shop.uses name).getD 0
  let (schema, nextNumber) := (env.made name used).furnish.run shop.nextNumber
  set { shop with nextNumber, uses := Members.insert shop.uses name (used + 1) }
  return schema

/-- The schema of a lazy node: made anew, or made once and kept in the node's cell. -/
def force (env : Environment) (form : LazyForm) : Run Schema :=
  match form.once, form.cell with
  | true, some _ => do
    match (← get).cells.lookup form with
    | some schema => return schema
    | none =>
      let schema ← env.generate form.generator
      modify fun shop => { shop with cells := (form, schema) :: shop.cells }
      return schema
  | _, _ => env.generate form.generator

end Environment

/-- A way to check a value by a schema at a position. -/
abbrev Check := Schema → Value → Position → Preferences → Run Outcome

/-- Whether a value passes, where the first failure settles it. -/
def Check.passes (check : Check) (schema : Schema) (value : Value) (position : Position)
    (prefs : Preferences) : Run Bool := do
  return (← check schema value position { prefs with abortEarly := true }).isOk

/-- A report about `value` at a position. The label is the schema's or the path; the last step of
the path and the value are added to the context unless it has them. -/
def reportAt (schema : Schema) (position : Position) (code : String) (value : Value)
    (context : List (String × Value)) : Report :=
  let label := schema.node.flags.label.getD position.label
  let context := Members.insertNew context "label" (.string label)
  let context := match position.key? with
    | some segment => Members.insertNew context "key" segment.toValue
    | none => context
  let context := if value.isDefined then Members.insertNew context "value" value else context
  { code, path := position.path, context }

/-- What the steps of a node know besides the value. -/
structure Site where
  env : Environment
  schema : Schema
  position : Position
  /-- The preferences with the node's own patch. -/
  prefs : Preferences
  /-- The value as it came. -/
  input : Value

namespace Site

/-- What references see. -/
def scope (site : Site) : Scope :=
  ⟨site.position, site.prefs, site.env.registry.adjusters⟩

/-- A report at the site's position. -/
def report (site : Site) (code : String) (value : Value) (context : List (String × Value) := []) :
    Report :=
  reportAt site.schema site.position code value context

/-- A report that names a limit. -/
def limitReport (site : Site) (code : String) (value limit : Value) : Report :=
  site.report code value [("limit", limit)]

/-- A value that passes a test, or a report. -/
def require (site : Site) (code : String) (value : Value) (passes : Bool) : Except Report Value :=
  if passes then .ok value else .error (site.report code value)

/-- A value whose size passes a comparison with a limit, or a report. -/
def requireSize (site : Site) (code : String) (value : Value) (limit : Nat) (passes : Bool) :
    Except Report Value :=
  if passes then .ok value else .error (site.limitReport code value (.ofNat limit))

end Site

/-- The arguments of a rule by parameter: as stored, and with references resolved. -/
structure Given where
  values : List (String × Value)
  stored : List (String × Argument Schema)

namespace Given

def value (given : Given) (name : String) : Value :=
  (Members.get? given.values name).getD .undefined

/-- A number; zero if the argument is none. -/
def number (given : Given) (name : String) : Number := ((given.value name).number?).getD 0

def count (given : Given) (name : String) : Nat := (given.number name).toCount

def isTrue (given : Given) (name : String) : Bool := (given.value name).isTrue

def text? (given : Given) (name : String) : Option String := (given.value name).string?

def pattern? (given : Given) (name : String) : Option Pattern :=
  match Members.get? given.stored name with
  | some (.pattern p) => some p
  | _ => none

def schema? (given : Given) (name : String) : Option Schema :=
  (Members.get? given.stored name).bind Argument.schema?

def subject? (given : Given) (name : String) : Option Reference :=
  (Members.get? given.stored name).bind Argument.reference?

def function? (given : Given) (name : String) : Option String :=
  match Members.get? given.stored name with
  | some (.function f) => some f
  | _ => none

end Given

end Conform
