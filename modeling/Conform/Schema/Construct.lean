import Conform.Schema.Merge

/-!
# Putting schemas together

One schema for each type to start from, and the ways to extend it. Every function gives back a new
schema; those that can be asked for something impossible give back the reason instead.
-/

namespace Conform.Schema

/-- A schema of a form with no settings. -/
def ofForm (form : Form Schema) : Schema := { node := { form } }

def any : Schema := ofForm .any
def boolean : Schema := ofForm (.boolean {})
def number : Schema := ofForm (.number false)
def date : Schema := ofForm (.date none)
def binary : Schema := ofForm (.binary none)
def array : Schema := ofForm (.array {})
def object : Schema := ofForm (.object {})
def alternatives : Schema := ofForm (.alternatives {})

/-- A schema made by a named function when it is first used. -/
def lazily (generator : String) : Schema := ofForm (.lazy { generator })

/-- The schema of texts; the empty one is denied. -/
def string : Schema := (ofForm (.string {})).update (·.deny (.literal (.string "")))

/-! ### Settings of every type -/

/-- Accepts a value whatever the other checks say. -/
def allow (s : Schema) (items : List SetItem) : Schema := s.update fun n => items.foldl Node.allow n

def deny (s : Schema) (items : List SetItem) : Schema := s.update fun n => items.foldl Node.deny n

/-- Changes the flags. -/
def updateFlags (s : Schema) (f : Flags → Flags) : Schema :=
  s.update fun n => { n with flags := f n.flags }

/-- Accepts allowed values only. -/
def only (s : Schema) : Schema := s.updateFlags ({ · with only := true })

/-- Accepts these values and no others. -/
def valid (s : Schema) (items : List SetItem) : Schema := (s.allow items).only

def withPresence (s : Schema) (presence : Presence) : Schema :=
  s.updateFlags ({ · with presence := some presence })

def withDefault (s : Schema) (default : Default) : Schema :=
  s.updateFlags ({ · with default := some default })

def withFailover (s : Schema) (value : Value) : Schema :=
  s.updateFlags ({ · with failover := some (.value value) })

/-- Values that match `pattern` count as missing. -/
def withEmpty (s pattern : Schema) : Schema := s.update ({ · with empty := some pattern })

def withLabel (s : Schema) (label : String) : Schema :=
  s.updateFlags ({ · with label := some label })

def strip (s : Schema) : Schema := s.updateFlags ({ · with strip := true })

def raw (s : Schema) : Schema := s.updateFlags ({ · with raw := true })

def withMessage (s : Schema) (message : String) : Schema :=
  s.updateFlags ({ · with message := some message })

/-- Overrides preferences for the schema and what is below it. -/
def withPrefs (s : Schema) (patch : PreferencesPatch) : Schema :=
  s.update fun n => { n with prefs := mergePatches n.prefs (some patch) }

/-- Converts nothing in the schema and below it. -/
def strict (s : Schema) : Schema := s.withPrefs { convert := some false }

/-- Changes the annotations. -/
def updateNotes (s : Schema) (f : Annotations → Annotations) : Schema :=
  s.update fun n => { n with notes := f n.notes }

def withDescription (s : Schema) (text : String) : Schema :=
  s.updateNotes ({ · with description := some text })

def withNote (s : Schema) (note : String) : Schema :=
  s.updateNotes fun a => { a with notes := a.notes ++ [note] }

def withTag (s : Schema) (tag : String) : Schema :=
  s.updateNotes fun a => { a with tags := a.tags ++ [tag] }

def withExample (s : Schema) (value : Value) : Schema :=
  s.updateNotes fun a => { a with examples := a.examples ++ [value] }

def withUnit (s : Schema) (unit : String) : Schema := s.updateNotes ({ · with unit := some unit })

def withMeta (s : Schema) (value : Value) : Schema :=
  s.updateNotes fun a => { a with metas := a.metas ++ [value] }

/-- Adds a rule of the schema's type. -/
def withRule (s : Schema) (name : String) (args : List (Argument Schema)) :
    Except SchemaError Schema :=
  (s.node.addRule name args).map ({ node := · })

/-- Runs a named function after the other rules. -/
def custom (s : Schema) (name : String) : Except SchemaError Schema :=
  s.withRule "custom" [.function name]

/-! ### Settings of one type -/

/-- Changes the form. -/
def updateForm (s : Schema) (f : Form Schema → Form Schema) : Schema :=
  s.update fun n => { n with form := f n.form }

/-- Compares allowed and denied texts regardless of case. -/
def insensitive (s : Schema) : Schema := s.updateFlags ({ · with insensitive := true })

/-- Changes the form of a string schema. -/
def updateString (s : Schema) (f : StringForm → StringForm) : Schema :=
  s.updateForm fun
    | .string form => .string (f form)
    | form => form

def truncate (s : Schema) : Schema := s.updateString ({ · with truncate := true })

/-- The pattern written by a text. -/
def readPattern (source : String) : Except SchemaError Pattern :=
  match Pattern.ofSource? source with
  | some pattern => .ok pattern
  | none => .error (.regex source)

/-- Replaces all occurrences of a pattern when converting. -/
def replace (s : Schema) (source template : String) : Except SchemaError Schema := do
  let pattern ← readPattern source
  return s.updateString fun f => { f with replacements := f.replacements ++ [(pattern, template)] }

/-- Demands that a pattern occurs, or, inverted, that it does not; reports use its name if it has
one. -/
def pattern (s : Schema) (source : String) (name : Option String) (invert : Bool) :
    Except SchemaError Schema := do
  let regex ← readPattern source
  let name : Value := (name.map Value.string).getD .undefined
  s.withRule "pattern" [.pattern regex, .literal name, .literal (.bool invert)]

/-- Allows numbers that lose digits. -/
def allowUnsafe (s : Schema) : Schema :=
  s.updateForm fun
    | .number _ => .number true
    | form => form

def withFormat (s : Schema) (format : DateFormat) : Schema :=
  s.updateForm fun
    | .date _ => .date (some format)
    | form => form

/-- The encodings that texts are read by. -/
def encodings : List String := ["utf8", "base64", "hex"]

def withEncoding (s : Schema) (encoding : String) : Except SchemaError Schema :=
  if encodings.contains encoding then
    .ok <| s.updateForm fun
      | .binary _ => .binary (some encoding)
      | form => form
  else .error (.argument "encoding" ("unsupported encoding " ++ encoding))

/-- Changes the form of a boolean schema. -/
def updateBoolean (s : Schema) (f : BooleanForm → BooleanForm) : Schema :=
  s.updateForm fun
    | .boolean form => .boolean (f form)
    | form => form

def truthy (s : Schema) (items : List SetItem) : Schema :=
  s.updateBoolean fun f => { f with truthy := f.truthy.addAll items }

def falsy (s : Schema) (items : List SetItem) : Schema :=
  s.updateBoolean fun f => { f with falsy := f.falsy.addAll items }

def sensitive (s : Schema) : Schema := s.updateBoolean ({ · with sensitive := true })

/-- Changes the form of an array schema. -/
def updateArray (s : Schema) (f : ArrayForm Schema → ArrayForm Schema) : Schema :=
  s.updateForm fun
    | .array form => .array (f form)
    | form => form

def items (s : Schema) (schemas : List Schema) : Schema :=
  s.updateArray fun f => { f with items := f.items ++ schemas }

def ordered (s : Schema) (schemas : List Schema) : Schema :=
  s.updateArray fun f => { f with ordered := f.ordered ++ schemas }

def sparse (s : Schema) (enabled : Bool) : Schema := s.updateArray ({ · with sparse := enabled })

def single (s : Schema) : Schema := s.updateArray ({ · with single := true })

/-- Demands distinct members, compared as a whole or by what stands at a dotted path. -/
def unique (s : Schema) (path : Option String) (ignoreUndefined : Bool) :
    Except SchemaError Schema :=
  s.withRule "unique"
    [.literal ((path.map Value.string).getD .undefined), .literal (.bool ignoreUndefined)]

/-- Demands a member that matches. -/
def has (s schema : Schema) : Except SchemaError Schema := s.withRule "has" [.schema schema]

/-- Changes the form of an object schema. -/
def updateObject? (s : Schema)
    (f : ObjectForm Schema → Except SchemaError (ObjectForm Schema)) : Except SchemaError Schema :=
  match s.node.form with
  | .object form => do
    let form ← f form
    return s.update fun n => { n with form := .object form }
  | _ => .ok s

def updateObject (s : Schema) (f : ObjectForm Schema → ObjectForm Schema) : Schema :=
  s.updateForm fun
    | .object form => .object (f form)
    | form => form

/-- Declares children. -/
def keys (s : Schema) (children : List (String × Schema)) : Except SchemaError Schema :=
  s.updateObject? (·.setChildren children)

def rename (s : Schema) (rename : Rename) : Except SchemaError Schema :=
  s.updateObject? (·.addRename rename)

def dependency (s : Schema) (dependency : Dependency) : Schema :=
  s.updateObject fun f => { f with dependencies := f.dependencies ++ [dependency] }

/-- Checks undeclared keys that match. -/
def keyPattern (s : Schema) (matcher : KeyMatcher Schema) (schema : Schema) : Schema :=
  s.updateObject fun f => { f with patterns := f.patterns ++ [⟨matcher, schema⟩] }

def unknown (s : Schema) (allow : Bool) : Schema :=
  s.updateObject ({ · with unknown := some allow })

/-- Demands that what the subject points at matches. The subject is in the context or at least two
steps away, since a child's own schema covers one step. -/
def assert (s : Schema) (subject : Reference) (schema : Schema) (message : String) :
    Except SchemaError Schema :=
  if !subject.isContext && subject.path.length < 2 then
    .error (.argument "assert"
      (subject.display ++ " must reach into a nested key; use a key schema instead"))
  else s.withRule "assert" [.reference subject, .schema schema, .literal (.string message)]

/-- Whether a lazy schema is made once and kept, in a cell yet to be given. -/
def once (s : Schema) (once : Bool) : Schema :=
  s.updateForm fun
    | .lazy form => .lazy { form with once, cell := none }
    | form => form

end Conform.Schema
