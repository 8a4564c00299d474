import Conform.Manifest.Basic
import Conform.Manifest.Literal
import Conform.Schema.Construct
import Conform.Schema.Registry

/-!
# Building schemas from descriptions

Literals are decoded, functions are looked up by name, and rules are added under the checks that
hold for any rule. The first thing that is wrong, in the order of building, is the reason for a
refusal: the form, the flags, the sets, the rules, the examples.
-/

namespace Conform.Build

open Manifest

/-- A result that may be a refusal. -/
abbrev Attempt := Except SchemaError

/-- The name of a function, if there is one of that name. -/
def registered {α : Type} (find : String → Option α) (name : String) : Attempt String :=
  if (find name).isSome then .ok name else .error (.unknownFunction name)

/-- What an object of one member holds under that member. -/
def untagged? (json : Json) (tag : String) : Option Json :=
  match json with
  | .object [(name, content)] => if name = tag then some content else none
  | _ => none

def text? : Json → Option String
  | .string s => some s
  | _ => none

/-- The text under a tag. -/
def untaggedText? (json : Json) (tag : String) : Option String := (untagged? json tag).bind text?

/-- The reference of an entry. -/
def reference (registry : Registry) (entry : ReferenceEntry) : Attempt Reference := do
  let r := Reference.ofKey entry.key entry.separator
  let r := match entry.ancestor with
    | some levels => r.withLevel levels
    | none => r
  let table ← entry.table.mapM fun (source, target) => do
    return (← Literal.decode source, ← Literal.decode target)
  let adjuster ← entry.adjuster.mapM (registered registry.adjusters)
  return { r with inValues := entry.inValues, table, adjuster }

/-- The reference among literals, if the JSON is one. -/
def taggedReference? (registry : Registry) (json : Json) : Attempt (Option Reference) :=
  match untagged? json "ref" with
  | none => .ok none
  | some content =>
    match ReferenceEntry.read? content.toSource with
    | none => .error (.unreadable "reference")
    | some entry => (reference registry entry).map some

def item (registry : Registry) (json : Json) : Attempt SetItem := do
  match ← taggedReference? registry json with
  | some r => return .reference r
  | none => return .literal (← Literal.decode json)

def set (registry : Registry) (items : List Json) : Attempt ValueSet := do
  return ValueSet.empty.addAll (← items.mapM (item registry))

def default (registry : Registry) (json : Json) : Attempt Default := do
  match ← taggedReference? registry json with
  | some r => return .reference r
  | none =>
    match untaggedText? json "function" with
    | some name => return .function (← registered registry.defaults name)
    | none =>
      if untaggedText? json "special" = some "deep" then return .deep
      else return .value (← Literal.decode json)

/-- A rule argument; `make` builds the schemas among them. -/
def argument (registry : Registry) (make : Manifest → Attempt Schema) (p : Parameter)
    (json : Json) : Attempt (Argument Schema) := do
  match ← taggedReference? registry json with
  | some r => return .reference r
  | none =>
    match p.kind with
    | .pattern =>
      match untaggedText? json "regex" with
      | some source => return .pattern (← Schema.readPattern source)
      | none => throw (.argumentShape p.name "be a regex")
    | .schema =>
      match untagged? json "schema" with
      | some content =>
        match Manifest.read? content.toSource with
        | some manifest => return .schema (← make manifest)
        | none => throw (.unreadable "schema")
      | none => throw (.argumentShape p.name "be a schema")
    | .function =>
      match untaggedText? json "function" with
      | some name => return .function (← registered registry.customs name)
      | none => throw (.argumentShape p.name "name a function")
    | _ => return .literal (← Literal.decode json)

/-- The argument for a parameter of a described rule. A missing boolean is off. -/
def argumentOf (registry : Registry) (make : Manifest → Attempt Schema) (rule : RuleEntry)
    (p : Parameter) : Attempt (Argument Schema) :=
  match Members.get? rule.args p.name, p.kind with
  | some json, _ => argument registry make p json
  | none, .bool => .ok (.literal (.bool false))
  | none, _ => .ok (.literal .undefined)

/-- Adds a described rule. -/
def addRule (registry : Registry) (make : Manifest → Attempt Schema) (n : Node Schema)
    (rule : RuleEntry) : Attempt (Node Schema) :=
  match n.kind.rule? rule.name with
  | none => .error (.unknownRule n.kind.name rule.name)
  | some spec => do
    n.addRule rule.name (← spec.parameters.mapM (argumentOf registry make rule))

/-! ### Flags -/

/-- What a flag is set to, if it is set to a boolean. -/
def switch? (flags : List (String × Json)) (name : String) : Option Bool :=
  match Members.get? flags name with
  | some (.bool b) => some b
  | _ => none

/-- Whether a flag is on. -/
def isOn (flags : List (String × Json)) (name : String) : Bool := (switch? flags name).getD false

/-- A flag that holds a text. -/
def textFlag (flags : List (String × Json)) (name : String) : Attempt (Option String) :=
  match Members.get? flags name with
  | none => .ok none
  | some (.string s) => .ok (some s)
  | some json => .error (.flagNotText name json)

/-- A flag that holds one of some names. -/
def choiceFlag {α : Type} (flags : List (String × Json)) (name : String)
    (ofName? : String → Option α) : Attempt (Option α) :=
  match Members.get? flags name with
  | none => .ok none
  | some json =>
    match json.toSource.choice?.bind ofName? with
    | some choice => .ok (some choice)
    | none => .error (.unreadable name)

/-- Sets the flags, the annotations among the flags, and what counts as missing. -/
def setFlags (registry : Registry) (make : Manifest → Attempt Schema) (sheet : Sheet Manifest)
    (n : Node Schema) : Attempt (Node Schema) := do
  let flags := sheet.flags
  let presence ← choiceFlag flags "presence" Presence.ofName?
  let label ← textFlag flags "label"
  let message ← textFlag flags "message"
  let description ← textFlag flags "description"
  let unit ← textFlag flags "unit"
  let initial ← (Members.get? flags "default").mapM (default registry)
  let failover ← (Members.get? flags "failover").mapM (default registry)
  let empty ← sheet.empty.mapM make
  return { n with
    flags := {
      presence, label, message, failover
      default := initial
      only := isOn flags "only"
      insensitive := isOn flags "insensitive"
      strip := isOn flags "strip"
      raw := isOn flags "raw" }
    empty
    notes := { n.notes with description, unit } }

/-! ### Forms -/

/-- The pattern for undeclared keys. -/
def keyPattern (make : Manifest → Attempt Schema) (entry : PatternEntry Manifest) :
    Attempt (KeyPattern Schema) := do
  let matcher : KeyMatcher Schema ← match entry.regex, entry.schema with
    | some source, none => do pure (.pattern (← Schema.readPattern source))
    | none, some manifest => do pure (.schema (← make manifest))
    | _, _ => throw .keyPatternShape
  return ⟨matcher, ← make entry.rule⟩

/-- An object's form with its children declared, if there are any. -/
def declare (make : Manifest → Attempt Schema) (form : ObjectForm Schema) :
    Option (List (String × Manifest)) → Attempt (ObjectForm Schema)
  | some children => do
    form.setChildren (← children.mapM fun (key, child) => do return (key, ← make child))
  | none => .ok form

/-- The form of an object. -/
def object (make : Manifest → Attempt Schema) (sheet : Sheet Manifest) :
    Attempt (ObjectForm Schema) := do
  let form ← declare make { unknown := switch? sheet.flags "unknown" } sheet.keys
  let form ← sheet.renames.foldlM ObjectForm.addRename form
  let patterns ← sheet.patterns.mapM (keyPattern make)
  return { form with dependencies := sheet.dependencies, patterns }

/-- The condition of a conditional entry. -/
def condition (registry : Registry) (make : Manifest → Attempt Schema)
    (entry : MatchEntry Manifest) :
    Attempt (Condition Schema) :=
  match entry.reference, entry.condition with
  | some r, none => (reference registry r).map .reference
  | none, some manifest => (make manifest).map .schema
  | _, _ => .error .matchShape

/-- An entry of alternatives. -/
def matchEntry (registry : Registry) (make : Manifest → Attempt Schema)
    (entry : MatchEntry Manifest) :
    Attempt (Match Schema) := do
  match entry.schema with
  | some manifest => return .attempt (← make manifest)
  | none =>
    let condition ← condition registry make entry
    let cases ← entry.cases.mapM fun c => do
      let test ← c.test.mapM make
      let branch ← c.branch.mapM make
      return (⟨test, branch⟩ : Case Schema)
    return .conditional condition cases (← entry.otherwise.mapM make)

/-- A pattern with what replaces its occurrences. -/
def replacement (entry : String × String) : Attempt (Pattern × String) := do
  return (← Schema.readPattern entry.1, entry.2)

/-- The form of a lazy schema. -/
def lazyForm (registry : Registry) (sheet : Sheet Manifest) : Attempt LazyForm := do
  match sheet.generator with
  | none => throw .noGenerator
  | some name =>
    let generator ← registered registry.generators name
    return { generator, once := (switch? sheet.flags "once").getD true }

/-- The form of a type, with what a sheet says about it. -/
def form (registry : Registry) (make : Manifest → Attempt Schema) (kind : Kind)
    (sheet : Sheet Manifest) : Attempt (Form Schema) := do
  let flags := sheet.flags
  match kind with
  | .any => return .any
  | .alternatives =>
    let entries ← sheet.entries.mapM (matchEntry registry make)
    return .alternatives { entries, base := ← sheet.base.mapM make }
  | .array =>
    let items ← sheet.items.mapM make
    let ordered ← sheet.ordered.mapM make
    return .array { items, ordered, sparse := isOn flags "sparse", single := isOn flags "single" }
  | .binary => return .binary ((Members.get? flags "encoding").bind text?)
  | .boolean =>
    let truthy ← set registry sheet.truthy
    let falsy ← set registry sheet.falsy
    return .boolean { truthy, falsy, sensitive := isOn flags "sensitive" }
  | .date => return .date (← choiceFlag flags "format" DateFormat.ofName?)
  | .lazy => return .lazy (← lazyForm registry sheet)
  | .number => return .number (isOn flags "unsafe")
  | .object => return .object (← object make sheet)
  | .string =>
    let replacements ← sheet.replacements.mapM replacement
    return .string { truncate := isOn flags "truncate", replacements }

/-- The schema of a sheet; `make` builds its inner ones. -/
def schema (registry : Registry) (make : Manifest → Attempt Schema) (sheet : Sheet Manifest) :
    Attempt Schema := do
  match Kind.ofName? sheet.kind with
  | none => throw (.unknownType sheet.kind)
  | some kind =>
    let n ← setFlags registry make sheet { form := ← form registry make kind sheet }
    let allowed ← sheet.allow.mapM (item registry)
    let denied ← sheet.invalid.mapM (item registry)
    let n := denied.foldl Node.deny (allowed.foldl Node.allow n)
    let n ← sheet.rules.foldlM (addRule registry make) n
    let examples ← sheet.examples.mapM Literal.decode
    let metas ← sheet.metas.mapM Literal.decode
    return { node := { n with
      prefs := sheet.preferences
      notes := { n.notes with notes := sheet.notes, tags := sheet.tags, examples, metas } } }

/-- Builds the schema of a description no higher than `fuel`. -/
def schemaWithin (registry : Registry) : Nat → Manifest → Attempt Schema
  | 0, _ => .error (.unreadable "nesting")
  | fuel + 1, m => schema registry (schemaWithin registry fuel) m.sheet

end Conform.Build

namespace Conform.Manifest

/-- Builds the schema of a description, with the functions of a registry. -/
def build (m : Manifest) (registry : Registry := {}) : Except SchemaError Schema :=
  Build.schemaWithin registry m.height m

end Conform.Manifest
