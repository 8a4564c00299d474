import Conform.Value.Basic
import Conform.Json.Decode

/-!
# Preferences

The options of one validation, and patches that override some of them for a schema and everything
below it. A patch applied after another wins field by field; message templates are added up. A
table of templates has each code once (`MessageTable.distinct`), so no operation has to see to it.
-/

namespace Conform

/-- Whether a value may be absent. -/
inductive Presence
  | optional
  | required
  | forbidden
  /-- No check of presence at all; carried by the wrappers of conditional schemas. -/
  | ignore
  deriving DecidableEq, Repr, Inhabited

namespace Presence

def name : Presence → String
  | .optional => "optional"
  | .required => "required"
  | .forbidden => "forbidden"
  | .ignore => "ignore"

/-- The presence of that name. -/
def ofName? : String → Option Presence
  | "optional" => some .optional
  | "required" => some .required
  | "forbidden" => some .forbidden
  | "ignore" => some .ignore
  | _ => none

/-- A presence that a caller may ask for. -/
def read? (source : Source) : Option Presence :=
  match source.choice?.bind ofName? with
  | some .ignore => none
  | presence => presence

end Presence

/-- Which containers drop unknown members without a report. -/
structure StripUnknown where
  arrays : Bool := false
  objects : Bool := false
  deriving DecidableEq, Repr, Inhabited

namespace StripUnknown

/-- One boolean for both, or an object with either. -/
def read? (source : Source) : Option StripUnknown :=
  match source with
  | .bool b => some ⟨b, b⟩
  | .object _ => do
    let _ ← source.toJson?
    let fields ← source.record? ["arrays", "objects"]
    let arrays ← fields.withDefault? "arrays" false Source.bool?
    let objects ← fields.withDefault? "objects" false Source.bool?
    some ⟨arrays, objects⟩
  | _ => none

def toJson (s : StripUnknown) : Json :=
  .object [("arrays", .bool s.arrays), ("objects", .bool s.objects)]

end StripUnknown

/-- Message templates by report code, in the order in which each code was first written. No code has
two templates. -/
@[ext]
structure MessageTable where
  entries : List (String × String)
  distinct : Members.Distinct entries
  deriving Repr

namespace MessageTable

/-- The table without templates. -/
def empty : MessageTable := ⟨[], Members.distinct_nil⟩

instance : Inhabited MessageTable := ⟨empty⟩

/-- Whether the table has no templates. -/
def isEmpty (table : MessageTable) : Bool := table.entries.isEmpty

/-- The entries written in order: a repeated code keeps its first place and its last template. -/
def ofList (entries : List (String × String)) : MessageTable :=
  ⟨Members.ofList entries, Members.distinct_nil.insertAll entries⟩

/-- The table with the templates of another one written into it. -/
def insertAll (table later : MessageTable) : MessageTable :=
  ⟨Members.insertAll table.entries later.entries, table.distinct.insertAll later.entries⟩

/-- Reads a table from an object of texts. -/
def read? (source : Source) : Option MessageTable := (source.table? Source.string?).map ofList

theorem isEmpty_iff {table : MessageTable} : table.isEmpty = true ↔ table = empty := by
  obtain ⟨entries, hdistinct⟩ := table
  simp [isEmpty, empty]

end MessageTable

/-- The options of one validation. -/
structure Preferences where
  /-- Stop at the first failure instead of collecting all. -/
  abortEarly : Bool := true
  /-- Convert values, such as texts to numbers. -/
  convert : Bool := true
  allowUnknown : Bool := false
  stripUnknown : StripUnknown := {}
  presence : Presence := .optional
  /-- What references beginning with `$` read. -/
  context : Value := .undefined
  /-- Leave missing values missing. -/
  noDefaults : Bool := false
  /-- Message templates by report code. -/
  messages : MessageTable := .empty
  deriving Inhabited, Repr

/-- Options overridden; what is not set is inherited. -/
structure PreferencesPatch where
  abortEarly : Option Bool := none
  convert : Option Bool := none
  allowUnknown : Option Bool := none
  stripUnknown : Option StripUnknown := none
  presence : Option Presence := none
  context : Option Value := none
  noDefaults : Option Bool := none
  messages : MessageTable := .empty
  deriving Inhabited, Repr

namespace PreferencesPatch

/-- Whether the patch overrides nothing. -/
def isEmpty (p : PreferencesPatch) : Bool :=
  p.abortEarly.isNone && p.convert.isNone && p.allowUnknown.isNone && p.stripUnknown.isNone &&
    p.presence.isNone && p.context.isNone && p.noDefaults.isNone && p.messages.isEmpty

/-- The preferences with the patch's settings. -/
def apply (p : PreferencesPatch) (base : Preferences) : Preferences where
  abortEarly := p.abortEarly.getD base.abortEarly
  convert := p.convert.getD base.convert
  allowUnknown := p.allowUnknown.getD base.allowUnknown
  stripUnknown := p.stripUnknown.getD base.stripUnknown
  presence := p.presence.getD base.presence
  context := p.context.getD base.context
  noDefaults := p.noDefaults.getD base.noDefaults
  messages := base.messages.insertAll p.messages

/-- One patch for `p` and then `later`. -/
def merge (p later : PreferencesPatch) : PreferencesPatch where
  abortEarly := later.abortEarly <|> p.abortEarly
  convert := later.convert <|> p.convert
  allowUnknown := later.allowUnknown <|> p.allowUnknown
  stripUnknown := later.stripUnknown <|> p.stripUnknown
  presence := later.presence <|> p.presence
  context := later.context <|> p.context
  noDefaults := later.noDefaults <|> p.noDefaults
  messages := p.messages.insertAll later.messages

end PreferencesPatch

/-- The preferences under a patch, if there is one. A patch that overrides
nothing is not applied. -/
def Preferences.merged (base : Preferences) : Option PreferencesPatch → Preferences
  | none => base
  | some patch => if patch.isEmpty then base else patch.apply base

theorem PreferencesPatch.isEmpty_iff {p : PreferencesPatch} : p.isEmpty = true ↔ p = {} := by
  obtain ⟨abortEarly, convert, allowUnknown, stripUnknown, presence, context,
      noDefaults, messages⟩ := p
  simp [isEmpty, MessageTable.isEmpty_iff, and_assoc]

/-- A patch that overrides nothing would change nothing. -/
theorem Preferences.merged_some (base : Preferences) (patch : PreferencesPatch) :
    base.merged (some patch) = patch.apply base := by
  show (if patch.isEmpty then base else patch.apply base) = _
  split
  next hempty =>
    rw [PreferencesPatch.isEmpty_iff.mp hempty]
    rfl
  next => rfl

/-- The fields of preferences in JSON. -/
def preferenceFields : List String :=
  ["abortEarly", "convert", "allowUnknown", "stripUnknown", "presence", "context", "noDefaults",
    "messages"]

/-- Any JSON data as a value. -/
def Value.read? (source : Source) : Option Value := source.toJson?.map Value.ofJson

def messagesToJson (messages : MessageTable) : List (String × Json) :=
  if messages.isEmpty then []
  else
    [("messages",
      .object (messages.entries.map fun (code, template) => (code, .string template)))]

namespace Preferences

/-- Reads preferences; missing fields take their defaults. -/
def read? (source : Source) : Option Preferences := do
  let fields ← source.record? preferenceFields
  let base : Preferences := {}
  return {
    abortEarly := ← fields.withDefault? "abortEarly" base.abortEarly Source.bool?
    convert := ← fields.withDefault? "convert" base.convert Source.bool?
    allowUnknown := ← fields.withDefault? "allowUnknown" base.allowUnknown Source.bool?
    stripUnknown := ← fields.withDefault? "stripUnknown" base.stripUnknown StripUnknown.read?
    presence := ← fields.withDefault? "presence" base.presence Presence.read?
    context := ← fields.withDefault? "context" base.context Value.read?
    noDefaults := ← fields.withDefault? "noDefaults" base.noDefaults Source.bool?
    messages := ← fields.withDefault? "messages" .empty MessageTable.read? }

def toJson (p : Preferences) : Json :=
  .object <|
    [("abortEarly", .bool p.abortEarly), ("convert", .bool p.convert),
      ("allowUnknown", .bool p.allowUnknown), ("stripUnknown", p.stripUnknown.toJson),
      ("presence", .string p.presence.name)] ++
    (if p.context.isDefined then [("context", p.context.toJson)] else []) ++
    [("noDefaults", .bool p.noDefaults)] ++ messagesToJson p.messages

end Preferences

namespace PreferencesPatch

/-- Reads a patch; missing fields and, presence apart, `null` leave an option alone. -/
def read? (source : Source) : Option PreferencesPatch := do
  let fields ← source.record? preferenceFields
  return {
    abortEarly := ← fields.withDefault? "abortEarly" none (Source.nullable? Source.bool?)
    convert := ← fields.withDefault? "convert" none (Source.nullable? Source.bool?)
    allowUnknown := ← fields.withDefault? "allowUnknown" none (Source.nullable? Source.bool?)
    stripUnknown := ← fields.withDefault? "stripUnknown" none (Source.nullable? StripUnknown.read?)
    presence := ← fields.withDefault? "presence" none fun s => (Presence.read? s).map some
    context := ← fields.withDefault? "context" none (Source.nullable? Value.read?)
    noDefaults := ← fields.withDefault? "noDefaults" none (Source.nullable? Source.bool?)
    messages := ← fields.withDefault? "messages" .empty MessageTable.read? }

open Json in
def toJson (p : PreferencesPatch) : Json :=
  .object <|
    optionalMember "abortEarly" p.abortEarly .bool ++ optionalMember "convert" p.convert .bool ++
    optionalMember "allowUnknown" p.allowUnknown .bool ++
    optionalMember "stripUnknown" p.stripUnknown StripUnknown.toJson ++
    optionalMember "presence" p.presence (fun presence => .string presence.name) ++
    optionalMember "context" p.context Value.toJson ++
    optionalMember "noDefaults" p.noDefaults .bool ++ messagesToJson p.messages

end PreferencesPatch

end Conform
