import Conform.Json.Decode
import Conform.Schema.Tree

/-!
# Descriptions of schemas

A manifest is a schema as data: what a file says, and what a schema is written out as. It is a tree
of sheets. Every field of a sheet may be missing, and only what differs from the default is written
out. Literals, rule arguments and flags stay JSON until a schema is built.

Main statement: `sizeOf_child`, what is inside a manifest is smaller.
-/

namespace Conform

namespace Manifest

/-- A rule with its arguments by parameter. -/
structure RuleEntry where
  name : String
  args : List (String × Json) := []

/-- A reference, its table still in JSON and its adjuster a name. -/
structure ReferenceEntry where
  key : String
  separator : Char := '.'
  /-- The level, where it is set apart from the key. -/
  ancestor : Option Nat := none
  inValues : Bool := false
  table : List (Json × Json) := []
  adjuster : Option String := none

/-- A schema for undeclared keys: those that match a pattern, or those that match a schema. -/
structure PatternEntry (δ : Type) where
  regex : Option String := none
  schema : Option δ := none
  rule : δ

/-- An entry of alternatives: a schema to try, or a conditional on a reference or a schema. -/
structure MatchEntry (δ : Type) where
  schema : Option δ := none
  reference : Option ReferenceEntry := none
  condition : Option δ := none
  cases : List (Case δ) := []
  otherwise : Option δ := none

/-- A node of a description over inner descriptions of type `δ`. -/
structure Sheet (δ : Type) where
  /-- The name of the type. -/
  kind : String := ""
  flags : List (String × Json) := []
  empty : Option δ := none
  preferences : Option PreferencesPatch := none
  allow : List Json := []
  invalid : List Json := []
  rules : List RuleEntry := []
  keys : Option (List (String × δ)) := none
  renames : List Rename := []
  dependencies : List Dependency := []
  patterns : List (PatternEntry δ) := []
  items : List δ := []
  ordered : List δ := []
  entries : List (MatchEntry δ) := []
  base : Option δ := none
  truthy : List Json := []
  falsy : List Json := []
  /-- Patterns and what their occurrences are replaced by. -/
  replacements : List (String × String) := []
  generator : Option String := none
  notes : List String := []
  tags : List String := []
  examples : List Json := []
  metas : List Json := []

end Manifest

/-- The description of a schema. -/
structure Manifest where
  sheet : Manifest.Sheet Manifest

instance : Inhabited Manifest := ⟨⟨{}⟩⟩

namespace Manifest

variable {δ : Type}

/-! ### The tree -/

def PatternEntry.inner (p : PatternEntry δ) : List δ := p.schema.toList ++ [p.rule]

def MatchEntry.inner (m : MatchEntry δ) : List δ :=
  m.schema.toList ++ m.condition.toList ++ m.cases.flatMap Case.schemas ++
    m.otherwise.toList

/-- The descriptions directly inside a sheet. -/
def Sheet.inner (s : Sheet δ) : List δ :=
  s.empty.toList ++ (s.keys.getD []).map (·.2) ++ s.patterns.flatMap PatternEntry.inner ++
    s.items ++ s.ordered ++ s.entries.flatMap MatchEntry.inner ++ s.base.toList

section
variable [SizeOf δ]

theorem sizeOf_patternInner {p : PatternEntry δ} {d : δ} (h : d ∈ p.inner) :
    sizeOf d < sizeOf p := by
  obtain ⟨regex, schema, rule⟩ := p
  simp only [PatternEntry.inner, List.mem_append, List.mem_singleton] at h
  simp only [PatternEntry.mk.sizeOf_spec]
  rcases h with h | h
  · have h1 := Schema.sizeOf_toList h
    omega
  · subst h; omega

theorem sizeOf_matchInner {m : MatchEntry δ} {d : δ} (h : d ∈ m.inner) : sizeOf d < sizeOf m := by
  obtain ⟨schema, reference, condition, cases, otherwise⟩ := m
  simp only [MatchEntry.inner, List.mem_append, List.mem_flatMap] at h
  simp only [MatchEntry.mk.sizeOf_spec]
  rcases h with ((h | h) | ⟨c, hc, h⟩) | h
  · have h1 := Schema.sizeOf_toList h
    omega
  · have h1 := Schema.sizeOf_toList h
    omega
  · have h1 := List.sizeOf_lt_of_mem hc
    have h2 := Schema.sizeOf_caseSchemas h
    omega
  · have h1 := Schema.sizeOf_toList h
    omega

theorem sizeOf_keys {keys : Option (List (String × δ))} {d : δ}
    (h : d ∈ (keys.getD []).map (·.2)) : sizeOf d < sizeOf keys := by
  cases keys with
  | none => simp at h
  | some children =>
    simp only [Option.getD_some, List.mem_map] at h
    obtain ⟨⟨key, e⟩, hc, rfl⟩ := h
    have h1 := List.sizeOf_lt_of_mem hc
    simp only [Prod.mk.sizeOf_spec, Option.some.sizeOf_spec] at h1 ⊢
    omega

theorem sizeOf_inner {s : Sheet δ} {d : δ} (h : d ∈ s.inner) : sizeOf d < sizeOf s := by
  cases s
  simp only [Sheet.inner, List.mem_append, List.mem_flatMap] at h
  simp only [Sheet.mk.sizeOf_spec]
  rcases h with (((((h | h) | ⟨p, hp, h⟩) | h) | h) | ⟨m, hm, h⟩) | h
  · have h1 := Schema.sizeOf_toList h
    omega
  · have h1 := sizeOf_keys h
    omega
  · have h1 := List.sizeOf_lt_of_mem hp
    have h2 := sizeOf_patternInner h
    omega
  · have h1 := List.sizeOf_lt_of_mem h
    omega
  · have h1 := List.sizeOf_lt_of_mem h
    omega
  · have h1 := List.sizeOf_lt_of_mem hm
    have h2 := sizeOf_matchInner h
    omega
  · have h1 := Schema.sizeOf_toList h
    omega

end

/-- The descriptions directly inside a description. -/
def inner (m : Manifest) : List Manifest := m.sheet.inner

/-- What is inside a description is smaller. -/
theorem sizeOf_child {m child : Manifest} (h : child ∈ m.inner) : sizeOf child < sizeOf m := by
  have h1 := sizeOf_inner h
  cases m
  simp only [Manifest.mk.sizeOf_spec] at h1 ⊢
  omega

/-- The greatest of some numbers. -/
def greatest (numbers : List Nat) : Nat := numbers.foldl max 0

/-- How deep the rule arguments nest; they may hold descriptions too. -/
def argumentDepth (m : Manifest) : Nat :=
  greatest (m.sheet.rules.flatMap fun rule => rule.args.map fun arg => arg.2.depth)

/-- How many descriptions stand inside one another, at most. -/
def height (m : Manifest) : Nat :=
  max m.argumentDepth (greatest (m.inner.attach.map fun ⟨child, _⟩ => child.height)) + 1
  termination_by sizeOf m
  decreasing_by exact sizeOf_child ‹_›

/-! ### Writing -/

open Json

/-- A text member of an object. -/
def textMember (name : String) (text : Option String) : List (String × Json) :=
  optionalMember name text Json.string

def textsMember (name : String) (texts : List String) : List (String × Json) :=
  listMember name texts Json.string

/-- A member that is written when it is on. -/
def switchMember (name : String) (on : Bool) : List (String × Json) :=
  if on then [(name, .bool true)] else []

def RuleEntry.toJson (rule : RuleEntry) : Json :=
  .object <| ("name", .string rule.name) ::
    if rule.args.isEmpty then [] else [("args", .object rule.args)]

/-- The members of a written reference. -/
def ReferenceEntry.members (r : ReferenceEntry) : List (String × Json) :=
  [("key", .string r.key), ("separator", .string r.separator.toString)] ++
    optionalMember "ancestor" r.ancestor (fun n => .int n) ++
    switchMember "in" r.inValues ++
    listMember "map" r.table (fun (source, target) => .array [source, target]) ++
    textMember "adjust" r.adjuster

def ReferenceEntry.toJson (r : ReferenceEntry) : Json := .object r.members

def renameToJson (rename : Rename) : Json :=
  .object [("from", .string rename.source), ("to", .string rename.target),
    ("options", .object [("alias", .bool rename.options.keepSource),
      ("multiple", .bool rename.options.multiple), ("override", .bool rename.options.override),
      ("ignoreUndefined", .bool rename.options.ignoreUndefined)])]

def dependencyToJson (d : Dependency) : Json :=
  .object <|
    ("rel", .string d.relation.name) :: textMember "key" d.key ++
      [("peers", .array (d.peers.map Json.string))]

def PatternEntry.toJson (inner : δ → Json) (p : PatternEntry δ) : Json :=
  .object <|
    textMember "regex" p.regex ++ optionalMember "schema" p.schema inner ++ [("rule", inner p.rule)]

def caseToJson (inner : δ → Json) (c : Case δ) : Json :=
  .object <| optionalMember "is" c.test inner ++ optionalMember "then" c.branch inner

def MatchEntry.toJson (inner : δ → Json) (m : MatchEntry δ) : Json :=
  .object <|
    optionalMember "schema" m.schema inner ++
    optionalMember "ref" m.reference ReferenceEntry.toJson ++
    optionalMember "condition" m.condition inner ++
    listMember "switch" m.cases (caseToJson inner) ++
    optionalMember "otherwise" m.otherwise inner

def replacementToJson (replacement : String × String) : Json :=
  .object [("pattern", .string replacement.1), ("replacement", .string replacement.2)]

/-- A sheet as JSON, its inner descriptions written by `inner`. -/
def Sheet.toJson (inner : δ → Json) (s : Sheet δ) : Json :=
  .object <|
    [("type", .string s.kind)] ++
    (if s.flags.isEmpty then [] else [("flags", .object s.flags)]) ++
    optionalMember "empty" s.empty inner ++
    optionalMember "preferences" s.preferences PreferencesPatch.toJson ++
    listMember "allow" s.allow id ++ listMember "invalid" s.invalid id ++
    listMember "rules" s.rules RuleEntry.toJson ++
    optionalMember "keys" s.keys
      (fun children => .object (children.map fun (key, child) => (key, inner child))) ++
    listMember "renames" s.renames renameToJson ++
    listMember "dependencies" s.dependencies dependencyToJson ++
    listMember "patterns" s.patterns (PatternEntry.toJson inner) ++
    listMember "items" s.items inner ++ listMember "ordered" s.ordered inner ++
    listMember "matches" s.entries (MatchEntry.toJson inner) ++
    optionalMember "base" s.base inner ++
    listMember "truthy" s.truthy id ++ listMember "falsy" s.falsy id ++
    listMember "replacements" s.replacements replacementToJson ++
    textMember "generator" s.generator ++ textsMember "notes" s.notes ++
    textsMember "tags" s.tags ++
    listMember "examples" s.examples id ++ listMember "metas" s.metas id

/-- A description as JSON, no deeper than `fuel`. -/
def toJsonWithin : Nat → Manifest → Json
  | 0, _ => .null
  | fuel + 1, m => m.sheet.toJson (toJsonWithin fuel)

/-- A description as JSON, members in the order of the fields. -/
def toJson (m : Manifest) : Json := m.toJsonWithin m.height

/-! ### Reading -/

/-- An array of two. -/
def pair? (source : Source) : Option (Json × Json) :=
  match source with
  | .array [first, second] => do return (← first.toJson?, ← second.toJson?)
  | _ => none

def RuleEntry.read? (source : Source) : Option RuleEntry := do
  let fields ← source.record? ["name", "args"]
  return {
    name := ← fields.required? "name" Source.string?
    args := ← fields.withDefault? "args" [] (Source.table? Source.toJson?) }

def ReferenceEntry.read? (source : Source) : Option ReferenceEntry := do
  let fields ← source.record? ["key", "separator", "ancestor", "in", "map", "adjust"]
  return {
    key := ← fields.required? "key" Source.string?
    separator := ← fields.withDefault? "separator" '.' Source.char?
    ancestor := ← fields.withDefault? "ancestor" none (Source.nullable? Source.count?)
    inValues := ← fields.withDefault? "in" false Source.bool?
    table := ← fields.withDefault? "map" [] (Source.list? pair?)
    adjuster := ← fields.withDefault? "adjust" none (Source.nullable? Source.string?) }

def renameOptions? (source : Source) : Option RenameOptions := do
  let fields ← source.record? ["alias", "multiple", "override", "ignoreUndefined"]
  return {
    keepSource := ← fields.withDefault? "alias" false Source.bool?
    multiple := ← fields.withDefault? "multiple" false Source.bool?
    override := ← fields.withDefault? "override" false Source.bool?
    ignoreUndefined := ← fields.withDefault? "ignoreUndefined" false Source.bool? }

def rename? (source : Source) : Option Rename := do
  let fields ← source.record? ["from", "to", "options"]
  return {
    source := ← fields.required? "from" Source.string?
    target := ← fields.required? "to" Source.string?
    options := ← fields.withDefault? "options" {} renameOptions? }

def dependency? (source : Source) : Option Dependency := do
  let fields ← source.record? ["rel", "key", "peers"]
  return {
    relation := ← fields.required? "rel" fun s => s.choice?.bind Relation.ofName?
    key := ← fields.withDefault? "key" none (Source.nullable? Source.string?)
    peers := ← fields.required? "peers" (Source.list? Source.string?) }

def PatternEntry.read? (inner : Source → Option δ) (source : Source) : Option (PatternEntry δ) := do
  let fields ← source.record? ["regex", "schema", "rule"]
  return {
    regex := ← fields.withDefault? "regex" none (Source.nullable? Source.string?)
    schema := ← fields.withDefault? "schema" none (Source.nullable? inner)
    rule := ← fields.required? "rule" inner }

def case? (inner : Source → Option δ) (source : Source) : Option (Case δ) := do
  let fields ← source.record? ["is", "then"]
  return {
    test := ← fields.withDefault? "is" none (Source.nullable? inner)
    branch := ← fields.withDefault? "then" none (Source.nullable? inner) }

def MatchEntry.read? (inner : Source → Option δ) (source : Source) : Option (MatchEntry δ) := do
  let fields ← source.record? ["schema", "ref", "condition", "switch", "otherwise"]
  return {
    schema := ← fields.withDefault? "schema" none (Source.nullable? inner)
    reference := ← fields.withDefault? "ref" none (Source.nullable? ReferenceEntry.read?)
    condition := ← fields.withDefault? "condition" none (Source.nullable? inner)
    cases := ← fields.withDefault? "switch" [] (Source.list? (case? inner))
    otherwise := ← fields.withDefault? "otherwise" none (Source.nullable? inner) }

def replacement? (source : Source) : Option (String × String) := do
  let fields ← source.record? ["pattern", "replacement"]
  let pattern ← fields.required? "pattern" Source.string?
  return (pattern, ← fields.required? "replacement" Source.string?)

/-- The fields of a sheet. -/
def sheetFields : List String :=
  ["type", "flags", "empty", "preferences", "allow", "invalid", "rules", "keys", "renames",
    "dependencies", "patterns", "items", "ordered", "matches", "base", "truthy", "falsy",
    "replacements", "generator", "notes", "tags", "examples", "metas"]

/-- Reads a sheet, its inner descriptions by `inner`. -/
def Sheet.read? (inner : Source → Option δ) (source : Source) : Option (Sheet δ) := do
  let fields ← source.record? sheetFields
  let one := Source.nullable? inner
  let many := Source.list? inner
  let literals := Source.list? Source.toJson?
  let texts := Source.list? Source.string?
  return {
    kind := ← fields.withDefault? "type" "" Source.string?
    flags := ← fields.withDefault? "flags" [] (Source.table? Source.toJson?)
    empty := ← fields.withDefault? "empty" none one
    preferences :=
      ← fields.withDefault? "preferences" none (Source.nullable? PreferencesPatch.read?)
    allow := ← fields.withDefault? "allow" [] literals
    invalid := ← fields.withDefault? "invalid" [] literals
    rules := ← fields.withDefault? "rules" [] (Source.list? RuleEntry.read?)
    keys := ← fields.withDefault? "keys" none (Source.nullable? (Source.table? inner))
    renames := ← fields.withDefault? "renames" [] (Source.list? rename?)
    dependencies := ← fields.withDefault? "dependencies" [] (Source.list? dependency?)
    patterns := ← fields.withDefault? "patterns" [] (Source.list? (PatternEntry.read? inner))
    items := ← fields.withDefault? "items" [] many
    ordered := ← fields.withDefault? "ordered" [] many
    entries := ← fields.withDefault? "matches" [] (Source.list? (MatchEntry.read? inner))
    base := ← fields.withDefault? "base" none one
    truthy := ← fields.withDefault? "truthy" [] literals
    falsy := ← fields.withDefault? "falsy" [] literals
    replacements := ← fields.withDefault? "replacements" [] (Source.list? replacement?)
    generator := ← fields.withDefault? "generator" none (Source.nullable? Source.string?)
    notes := ← fields.withDefault? "notes" [] texts
    tags := ← fields.withDefault? "tags" [] texts
    examples := ← fields.withDefault? "examples" [] literals
    metas := ← fields.withDefault? "metas" [] literals }

/-- Reads a description from a source no deeper than `fuel`. -/
def readWithin : Nat → Source → Option Manifest
  | 0, _ => none
  | fuel + 1, source => (Sheet.read? (readWithin fuel) source).map Manifest.mk

/-- Reads a description. -/
def read? (source : Source) : Option Manifest := readWithin (source.depth + 1) source

end Manifest

end Conform
