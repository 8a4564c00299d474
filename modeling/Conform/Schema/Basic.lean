import Conform.Regex.Pattern
import Conform.ValueSet

/-!
# Schemas

A schema is a tree of nodes. Every node has flags, sets of allowed and denied values, rules and a
form that depends on its type; the forms of objects, arrays, alternatives, and some rule arguments
hold further schemas. The parts of a node are written over an arbitrary type `σ` of such inner
schemas, and `Schema` ties the knot.

Functions attached to a schema are named, not stored: what a name means is decided by the registry
that a validation runs with. So schemas are plain data.
-/

namespace Conform

/-- The type of a schema. -/
inductive Kind
  | any
  | alternatives
  | array
  | binary
  | boolean
  | date
  | lazy
  | number
  | object
  | string
  deriving DecidableEq, Repr, Inhabited

namespace Kind

def name : Kind → String
  | .any => "any"
  | .alternatives => "alternatives"
  | .array => "array"
  | .binary => "binary"
  | .boolean => "boolean"
  | .date => "date"
  | .lazy => "lazy"
  | .number => "number"
  | .object => "object"
  | .string => "string"

def all : List Kind :=
  [.any, .alternatives, .array, .binary, .boolean, .date, .lazy, .number, .object, .string]

/-- The type of that name. -/
def ofName? (name : String) : Option Kind := all.find? fun kind => kind.name == name

theorem ofName?_name (kind : Kind) : ofName? kind.name = some kind := by cases kind <;> decide

end Kind

/-- What takes the place of a missing or failing value. -/
inductive Default
  | value (v : Value)
  | reference (r : Reference)
  /-- Computed from the parent value by a named function. -/
  | function (name : String)
  /-- An object made of its children's defaults. -/
  | deep
  deriving Inhabited, Repr

/-- The settings of a node that hold no schema. -/
structure Flags where
  presence : Option Presence := none
  /-- Take nothing but allowed values. -/
  only : Bool := false
  /-- Compare allowed and denied texts regardless of case. -/
  insensitive : Bool := false
  default : Option Default := none
  /-- Takes the place of a value that fails. -/
  failover : Option Default := none
  label : Option String := none
  /-- Drop the value from its parent once it is checked. -/
  strip : Bool := false
  /-- Give back the value as it came. -/
  raw : Bool := false
  /-- One message for all reports of the node. -/
  message : Option String := none
  deriving Inhabited, Repr

/-- What is said about a schema and never looked at by a validation. -/
structure Annotations where
  description : Option String := none
  notes : List String := []
  tags : List String := []
  examples : List Value := []
  unit : Option String := none
  metas : List Value := []
  deriving Inhabited, Repr

/-- A stored rule argument. -/
inductive Argument (σ : Type)
  | literal (v : Value)
  | reference (r : Reference)
  | pattern (p : Pattern)
  | schema (s : σ)
  /-- A custom rule, by name. -/
  | function (name : String)

/-- A rule of a node. -/
structure Rule (σ : Type) where
  name : String
  args : List (Argument σ)

/-- How a rename treats keys that are there already. -/
structure RenameOptions where
  /-- Keep the source key as well. -/
  keepSource : Bool := false
  /-- Let several renames have one target. -/
  multiple : Bool := false
  /-- Overwrite a target that the input has. -/
  override : Bool := false
  /-- Do nothing when the source has no value. -/
  ignoreUndefined : Bool := false
  deriving DecidableEq, Inhabited, Repr

/-- A key of the input moved to another name before the children are checked. -/
structure Rename where
  source : String
  target : String
  options : RenameOptions := {}
  deriving DecidableEq, Inhabited, Repr

/-- How the presence of some keys bears on that of others. -/
inductive Relation
  | «with»
  | without
  | xor
  | oxor
  | or
  | and
  | nand
  deriving DecidableEq, Inhabited, Repr

namespace Relation

def name : Relation → String
  | .with => "with"
  | .without => "without"
  | .xor => "xor"
  | .oxor => "oxor"
  | .or => "or"
  | .and => "and"
  | .nand => "nand"

def all : List Relation := [.with, .without, .xor, .oxor, .or, .and, .nand]

/-- The relation of that name. -/
def ofName? (name : String) : Option Relation := all.find? fun relation => relation.name == name

theorem ofName?_name (relation : Relation) : ofName? relation.name = some relation := by
  cases relation <;> decide

end Relation

/-- A constraint between keys, given by dotted paths into the object. -/
structure Dependency where
  relation : Relation
  key : Option String := none
  peers : List String
  deriving DecidableEq, Inhabited, Repr

/-- Which undeclared keys a pattern is about. -/
inductive KeyMatcher (σ : Type)
  | pattern (p : Pattern)
  | schema (s : σ)

/-- A schema for the undeclared keys that match. -/
structure KeyPattern (σ : Type) where
  matcher : KeyMatcher σ
  schema : σ

/-- The form of objects. -/
structure ObjectForm (σ : Type) where
  /-- The children; none at all admits every key, an empty list none. -/
  keys : Option (List (String × σ)) := none
  /-- The keys in the order of validation: each after the siblings it references. -/
  order : List String := []
  renames : List Rename := []
  dependencies : List Dependency := []
  patterns : List (KeyPattern σ) := []
  /-- Whether undeclared keys are allowed; the preferences decide when it is not set. -/
  unknown : Option Bool := none

/-- The form of arrays. -/
structure ArrayForm (σ : Type) where
  items : List σ := []
  /-- Schemas for the first, second and further members. -/
  ordered : List σ := []
  /-- Whether members may lack a value. -/
  sparse : Bool := false
  /-- Whether another value counts as an array of one. -/
  single : Bool := false

/-- What a conditional tests. -/
inductive Condition (σ : Type)
  /-- What the reference points at, against the test of each case. -/
  | reference (r : Reference)
  /-- The value itself, against this schema. -/
  | schema (s : σ)

/-- A test and the branch it leads to. -/
structure Case (σ : Type) where
  test : Option σ := none
  branch : Option σ := none

/-- An entry of alternatives. -/
inductive Match (σ : Type)
  /-- A schema to try. -/
  | attempt (s : σ)
  /-- Commits to the branch of the first case that holds, or to the last one when none does. -/
  | conditional (condition : Condition σ) (cases : List (Case σ)) (otherwise : Option σ)

/-- The form of alternatives. -/
structure AlternativesForm (σ : Type) where
  entries : List (Match σ) := []
  /-- Used when no conditional picks a branch. -/
  base : Option σ := none

/-- The form of booleans. -/
structure BooleanForm where
  truthy : ValueSet := {}
  falsy : ValueSet := {}
  sensitive : Bool := false
  deriving Inhabited

/-- The texts and numbers that dates are read from. -/
inductive DateFormat
  | iso
  /-- Milliseconds since the epoch. -/
  | javascript
  /-- Seconds since the epoch. -/
  | unix
  deriving DecidableEq, Inhabited, Repr

namespace DateFormat

def name : DateFormat → String
  | .iso => "iso"
  | .javascript => "javascript"
  | .unix => "unix"

/-- The format of that name. -/
def ofName? : String → Option DateFormat
  | "iso" => some .iso
  | "javascript" => some .javascript
  | "unix" => some .unix
  | _ => none

end DateFormat

/-- The form of lazy schemas. -/
structure LazyForm where
  /-- The name of the function that makes the schema. -/
  generator : String
  /-- Whether the schema is made once and kept. -/
  once : Bool := true
  /-- Where the schema is kept; copies of a node share the cell. -/
  cell : Option Nat := none
  deriving Inhabited, DecidableEq, Repr

/-- The form of strings. -/
structure StringForm where
  /-- Cut texts down to the limit of the rule `max`. -/
  truncate : Bool := false
  replacements : List (Pattern × String) := []

/-- What a node has by its type. -/
inductive Form (σ : Type)
  | any
  | alternatives (f : AlternativesForm σ)
  | array (f : ArrayForm σ)
  /-- The encoding that texts are read by; their bytes themselves when it is not set. -/
  | binary (encoding : Option String)
  | boolean (f : BooleanForm)
  | date (format : Option DateFormat)
  | lazy (f : LazyForm)
  /-- Whether numbers may lose digits. -/
  | number (allowUnsafe : Bool)
  | object (f : ObjectForm σ)
  | string (f : StringForm)

def Form.kind {σ : Type} : Form σ → Kind
  | .any => .any
  | .alternatives _ => .alternatives
  | .array _ => .array
  | .binary _ => .binary
  | .boolean _ => .boolean
  | .date _ => .date
  | .lazy _ => .lazy
  | .number _ => .number
  | .object _ => .object
  | .string _ => .string

/-- A node over inner schemas of type `σ`. -/
structure Node (σ : Type) where
  form : Form σ
  flags : Flags := {}
  /-- Values that match this count as missing. -/
  empty : Option σ := none
  allowed : ValueSet := {}
  denied : ValueSet := {}
  rules : List (Rule σ) := []
  prefs : Option PreferencesPatch := none
  notes : Annotations := {}

/-- A schema. -/
structure Schema where
  node : Node Schema
  /-- Told apart from every schema made before or after it, however alike; copies share it. A schema
  that was just put together has none yet. -/
  stamp : Option Nat := none

instance : Inhabited Schema := ⟨{ node := { form := .any } }⟩

namespace Schema

def kind (s : Schema) : Kind := s.node.form.kind

/-- Whether two schemas are copies of one. -/
def isSame (s t : Schema) : Bool := s.stamp.isSome && s.stamp == t.stamp

/-- The new schema with the node changed. -/
def update (s : Schema) (f : Node Schema → Node Schema) : Schema := { node := f s.node }

/-- The last rule of that name. -/
def rule? (s : Schema) (name : String) : Option (Rule Schema) :=
  s.node.rules.reverse.find? fun rule => rule.name == name

end Schema

end Conform
