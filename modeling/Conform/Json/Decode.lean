import Conform.Json.Basic

/-!
# Records and choices in JSON

How typed data is read from a source: a record is an object of named fields, or an array of the
fields in order; fields that the record does not have are skipped unread; a choice among names is
the name, or an object holding the name with `null`.
-/

namespace Conform.Source

def isNull : Source → Bool
  | .null => true
  | _ => false

def bool? : Source → Option Bool
  | .bool b => some b
  | _ => none

def string? : Source → Option String
  | .string s => some s
  | _ => none

/-- A count of at most 64 bits. -/
def count? : Source → Option Nat
  | .int i => if 0 ≤ i then some i.toNat else none
  | _ => none

/-- A text of one character. -/
def char? : Source → Option Char
  | .string s => match s.toList with
    | [c] => some c
    | _ => none
  | _ => none

/-- A value that may be `null` instead. -/
def nullable? {α : Type} (read : Source → Option α) (source : Source) : Option (Option α) :=
  if source.isNull then some none else (read source).map some

/-- Every item of an array. -/
def list? {α : Type} (read : Source → Option α) : Source → Option (List α)
  | .array items => items.mapM read
  | _ => none

/-- The members of an object; a repeated key keeps its first place and its last value. -/
def table? {α : Type} (read : Source → Option α) : Source → Option (List (String × α))
  | .object members =>
    (members.mapM fun (member : String × Source) =>
      (read member.2).map fun value => (member.1, value)).map Members.ofList
  | _ => none

/-- The name of a choice. -/
def choice? : Source → Option String
  | .string s => some s
  | .object [(name, .null)] => some name
  | _ => none

/-- The sources of a record's fields, in the order of `names`. A field may be missing, but none may
be given twice. -/
structure Fields where
  /-- Whether the record was written as an array, where only a tail of fields can be missing. -/
  positional : Bool
  given : List (String × Source)

/-- The field of that name. -/
def Fields.get? (fields : Fields) (name : String) : Option Source := Members.get? fields.given name

/-- Reads a record with these field names. -/
def record? (names : List String) : Source → Option Fields
  | .object members =>
    let known := members.filter fun member => names.contains member.1
    if (known.map (·.1)).Nodup then some ⟨false, known⟩ else none
  | .array items => if items.length ≤ names.length then some ⟨true, names.zip items⟩ else none
  | _ => none

/-- A field that takes a default when it is missing. -/
def Fields.withDefault? {α : Type} (fields : Fields) (name : String) (default : α)
    (read : Source → Option α) : Option α :=
  match fields.get? name with
  | some source => read source
  | none => some default

/-- A field that must be there. -/
def Fields.required? {α : Type} (fields : Fields) (name : String) (read : Source → Option α) :
    Option α :=
  (fields.get? name).bind read

/-- A field that may be `null`, and, in a record written as an object, missing. -/
def Fields.nullable? {α : Type} (fields : Fields) (name : String) (read : Source → Option α) :
    Option (Option α) :=
  match fields.get? name with
  | some source => source.nullable? read
  | none => if fields.positional then none else some none

end Conform.Source
