import Conform.Manifest.Basic
import Conform.Manifest.Literal
import Conform.Schema.RuleTable

/-!
# Describing schemas

The description of a schema says all that a validation depends on; functions are mentioned by name.
-/

namespace Conform

open Json Manifest

/-- The entry of a reference. -/
def Reference.describe (r : Reference) : ReferenceEntry where
  key := r.key
  separator := r.separator
  ancestor := r.setLevel?
  inValues := r.inValues
  table := r.table.map fun (source, target) => (Literal.encode source, Literal.encode target)
  adjuster := r.adjuster

namespace Describe

variable {σ : Type}

/-- A reference among literals, its members sorted like those of any JSON data. -/
def reference (r : Reference) : Json := Literal.tagged "ref" r.describe.toJson.sorted

def function (name : String) : Json := Literal.tagged "function" (.string name)

def item : SetItem → Json
  | .literal value => Literal.encode value
  | .reference r => reference r

def set (s : ValueSet) : List Json := s.items.map item

def default : Default → Json
  | .value value => Literal.encode value
  | .reference r => reference r
  | .function name => function name
  | .deep => Literal.special "deep"

/-- A rule argument; one that is missing is left out. -/
def argument? (inner : σ → Manifest) : Argument σ → Option Json
  | .literal .undefined => none
  | .literal value => some (Literal.encode value)
  | .reference r => some (reference r)
  | .pattern p => some (Literal.tagged "regex" (.string p.source))
  | .schema s => some (Literal.tagged "schema" (inner s).toJson.sorted)
  | .function name => some (function name)

/-- The parameters of a rule. -/
def parameters (kind : Kind) (rule : String) : List Parameter :=
  ((kind.rule? rule).map (·.parameters)).getD []

def rule (inner : σ → Manifest) (kind : Kind) (rule : Rule σ) : RuleEntry where
  name := rule.name
  args := ((parameters kind rule.name).zip rule.args).filterMap fun (p, arg) =>
    (argument? inner arg).map fun json => (p.name, json)

/-- The flags of every type. -/
def commonFlags (flags : Flags) (notes : Annotations) : List (String × Json) :=
  optionalMember "presence" flags.presence (fun presence => .string presence.name) ++
    switchMember "only" flags.only ++ switchMember "insensitive" flags.insensitive ++
    optionalMember "default" flags.default default ++
    optionalMember "failover" flags.failover default ++ textMember "label" flags.label ++
    switchMember "strip" flags.strip ++ switchMember "raw" flags.raw ++
    textMember "message" flags.message ++ textMember "description" notes.description ++
    textMember "unit" notes.unit

/-- The flags of a type's own. -/
def formFlags : Form σ → List (String × Json)
  | .any => []
  | .alternatives _ => []
  | .array form => switchMember "sparse" form.sparse ++ switchMember "single" form.single
  | .binary encoding => textMember "encoding" encoding
  | .boolean form => switchMember "sensitive" form.sensitive
  | .date format => optionalMember "format" format fun format => .string format.name
  | .lazy form => [("once", .bool form.once)]
  | .number allowUnsafe => switchMember "unsafe" allowUnsafe
  | .object form => optionalMember "unknown" form.unknown Json.bool
  | .string form => switchMember "truncate" form.truncate

def pattern (inner : σ → Manifest) (p : KeyPattern σ) : PatternEntry Manifest :=
  match p.matcher with
  | .pattern regex => { regex := some regex.source, rule := inner p.schema }
  | .schema s => { schema := some (inner s), rule := inner p.schema }

def entry (inner : σ → Manifest) : Match σ → MatchEntry Manifest
  | .attempt s => { schema := some (inner s) }
  | .conditional condition cases otherwise =>
    { reference := condition.reference?.map Reference.describe
      condition := condition.schema?.map inner
      cases := cases.map fun c => ⟨c.test.map inner, c.branch.map inner⟩
      otherwise := otherwise.map inner }

/-- Fills in the fields of a type's own. -/
def form (inner : σ → Manifest) (f : Form σ) (sheet : Sheet Manifest) : Sheet Manifest :=
  match f with
  | .alternatives form =>
    { sheet with entries := form.entries.map (entry inner), base := form.base.map inner }
  | .array form => { sheet with items := form.items.map inner, ordered := form.ordered.map inner }
  | .boolean form => { sheet with truthy := set form.truthy, falsy := set form.falsy }
  | .lazy form => { sheet with generator := some form.generator }
  | .object form =>
    { sheet with
      keys := form.keys.map fun children => children.map fun (key, s) => (key, inner s)
      renames := form.renames
      dependencies := form.dependencies
      patterns := form.patterns.map (pattern inner) }
  | .string form =>
    { sheet with replacements := form.replacements.map fun (p, template) => (p.source, template) }
  | _ => sheet

/-- The sheet of a node, its inner schemas described by `inner`. -/
def node (inner : σ → Manifest) (n : Node σ) : Sheet Manifest :=
  form inner n.form
    { kind := n.kind.name
      flags := commonFlags n.flags n.notes ++ formFlags n.form
      empty := n.empty.map inner
      preferences := n.prefs
      allow := set n.allowed
      invalid := set n.denied
      rules := n.rules.map (rule inner n.kind)
      notes := n.notes.notes
      tags := n.notes.tags
      examples := n.notes.examples.map Literal.encode
      metas := n.notes.metas.map Literal.encode }

end Describe

namespace Schema

/-- The description of a schema no higher than `fuel`. -/
def describeWithin : Nat → Schema → Manifest
  | 0, _ => default
  | fuel + 1, s => ⟨Describe.node (describeWithin fuel) s.node⟩

/-- The description of a schema. -/
def describe (s : Schema) : Manifest := s.describeWithin s.height

end Schema

end Conform
