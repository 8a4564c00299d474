import Conform.Schema.Children

/-!
# Merging schemas

`target.concat source` is the target extended by the source. Both have one type, or one of them has
none. Settings of the source win, its sets decide which values are allowed and denied, rules are
appended, and the forms are merged by their type: children of one key are merged in turn.
-/

namespace Conform

variable {σ : Type}

/-- `base` with `added`, without what `removed` claims. -/
def ValueSet.merge (base added removed : ValueSet) : ValueSet :=
  (base.removeAll removed.items).addAll added.items

def Flags.merge (a b : Flags) : Flags where
  presence := b.presence <|> a.presence
  only := a.only || b.only
  insensitive := a.insensitive || b.insensitive
  default := b.default <|> a.default
  failover := b.failover <|> a.failover
  label := b.label <|> a.label
  strip := a.strip || b.strip
  raw := a.raw || b.raw
  message := b.message <|> a.message

def Annotations.merge (a b : Annotations) : Annotations where
  description := b.description <|> a.description
  notes := a.notes ++ b.notes
  tags := a.tags ++ b.tags
  examples := a.examples ++ b.examples
  unit := b.unit <|> a.unit
  metas := a.metas ++ b.metas

/-- Two optional patches, the second after the first. -/
def mergePatches : Option PreferencesPatch → Option PreferencesPatch → Option PreferencesPatch
  | some a, some b => some (a.merge b)
  | a, b => b <|> a

/-- The rules of the target and those of the source, added one by one. -/
def mergeRules (kind : Kind) (a b : List (Rule σ)) : List (Rule σ) :=
  b.foldl (fun rules rule =>
    Node.appendRule rules rule ((kind.rule? rule.name).map (·.repeats) |>.getD true)) a

def AlternativesForm.merge (a b : AlternativesForm σ) : AlternativesForm σ :=
  ⟨a.entries ++ b.entries, b.base <|> a.base⟩

def ArrayForm.merge (a b : ArrayForm σ) : ArrayForm σ :=
  ⟨a.items ++ b.items, a.ordered ++ b.ordered, a.sparse || b.sparse, a.single || b.single⟩

def BooleanForm.merge (a b : BooleanForm) : BooleanForm :=
  ⟨a.truthy.concat b.truthy, a.falsy.concat b.falsy, a.sensitive || b.sensitive⟩

def StringForm.merge (a b : StringForm) : StringForm :=
  ⟨a.truncate || b.truncate, a.replacements ++ b.replacements⟩

/-- The children of the source, each merged into the target's child of its key. -/
def ObjectForm.mergedChildren (merge : Schema → Schema → Except SchemaError Schema)
    (a : ObjectForm Schema) (added : List (String × Schema)) :
    Except SchemaError (List (String × Schema)) :=
  added.mapM fun (key, schema) =>
    match Members.get? a.children key with
    | some existing => (merge existing schema).map fun merged => (key, merged)
    | none => .ok (key, schema)

/-- Object forms merged, by a way to merge children. -/
def ObjectForm.merge (merge : Schema → Schema → Except SchemaError Schema)
    (a b : ObjectForm Schema) : Except SchemaError (ObjectForm Schema) := do
  let a ← match b.keys with
    | some others => a.setChildren (← a.mergedChildren merge others)
    | none => pure a
  let a ← b.renames.foldlM ObjectForm.addRename a
  return { a with
    dependencies := a.dependencies ++ b.dependencies
    patterns := a.patterns ++ b.patterns
    unknown := b.unknown <|> a.unknown }

/-- Forms merged; a schema without a type takes the other's form. -/
def Form.merge (merge : Schema → Schema → Except SchemaError Schema) (a b : Form Schema) :
    Except SchemaError (Form Schema) :=
  match a, b with
  | a, .any => .ok a
  | .any, b => .ok b
  | .alternatives a, .alternatives b => .ok (.alternatives (a.merge b))
  | .array a, .array b => .ok (.array (a.merge b))
  | .binary a, .binary b => .ok (.binary (b <|> a))
  | .boolean a, .boolean b => .ok (.boolean (a.merge b))
  | .date a, .date b => .ok (.date (b <|> a))
  | .lazy _, .lazy b => .ok (.lazy b)
  | .number a, .number b => .ok (.number (a || b))
  | .object a, .object b => (a.merge merge b).map .object
  | .string a, .string b => .ok (.string (a.merge b))
  | a, b => .error (.cannotMerge b.kind.name a.kind.name)

namespace Schema

/-- Merges schemas, children no deeper than `fuel`. -/
def concatWithin : Nat → Schema → Schema → Except SchemaError Schema
  | 0, target, _ => .ok target
  | fuel + 1, ⟨a, _⟩, ⟨b, _⟩ => do
    let form ← a.form.merge (concatWithin fuel) b.form
    return { node := {
      form
      flags := a.flags.merge b.flags
      empty := b.empty <|> a.empty
      allowed := a.allowed.merge b.allowed b.denied
      denied := a.denied.merge b.denied b.allowed
      rules := mergeRules form.kind a.rules b.rules
      prefs := mergePatches a.prefs b.prefs
      notes := a.notes.merge b.notes } }

/-- The target extended by the source. Merging goes down the children that both have, so the height
of the source bounds it. -/
def concat (target source : Schema) : Except SchemaError Schema :=
  concatWithin source.height target source

end Schema

end Conform
