import Conform.Schema.Error
import Conform.Time.Reading
import Conform.Value.Basic

/-!
# Literals in descriptions

A description is JSON, so a value that JSON cannot carry is written as an object of one member, its
tag: `special`, `date` or `binary`. An object is written under the tag `value`, and is thereby
never taken for a tag.
-/

namespace Conform.Literal

/-- An object of one member. -/
def tagged (tag : String) (json : Json) : Json := .object [(tag, json)]

def special (name : String) : Json := tagged "special" (.string name)

/-- A number; those that JSON lacks are special. -/
def encodeNumber (n : Number) : Json :=
  if n.isNaN then special "nan"
  else if n.isInfinite then special (if n.isNegative then "-infinity" else "infinity")
  else Value.numberToJson n

mutual
/-- The JSON that stands for a value. -/
def encode : Value → Json
  | .undefined => special "undefined"
  | .null => .null
  | .bool b => .bool b
  | .number n => encodeNumber n
  | .string s => .string s
  | .date t => tagged "date" (.string t.text)
  | .binary bytes => tagged "binary" (.string (Bytes.toBase64 bytes))
  | .array items => .array (encodeItems items)
  | .object members => tagged "value" (.object (Json.sortMembers (encodeMembers members)))

def encodeItems : List Value → List Json
  | [] => []
  | item :: rest => encode item :: encodeItems rest

def encodeMembers : List (String × Value) → List (String × Json)
  | [] => []
  | (name, value) :: rest => (name, encode value) :: encodeMembers rest
end

/-- The special value of that name. -/
def ofSpecial (name : String) : Except SchemaError Value :=
  match name with
  | "undefined" => .ok .undefined
  | "nan" => .ok (.number Number.nan)
  | "infinity" => .ok (.number (Number.infinity false))
  | "-infinity" => .ok (.number (Number.infinity true))
  | name => .error (.unknownSpecial name)

/-- The value of a tag that holds a text. -/
def ofTag (tag text : String) : Except SchemaError Value :=
  match tag with
  | "special" => ofSpecial text
  | "date" =>
    match Time.strict? text with
    | some t => .ok (.date t)
    | none => .error (.unreadable "date")
  | "binary" =>
    match Bytes.ofBase64? .needed text with
    | some bytes => .ok (.binary bytes)
    | none => .error (.unreadable "binary")
  | tag => .error (.unknownTag tag)

mutual
/-- The value that JSON stands for. -/
def decode : Json → Except SchemaError Value
  | .array items => do return .array (← decodeItems items)
  | .object [(tag, .string text)] => ofTag tag text
  | .object [(tag, .object members)] => do
    if tag = "value" then return .object (← decodeMembers members)
    else throw (.unknownTag tag)
  | .object [(tag, _)] => .error (.unknownTag tag)
  | .object members => .error (.untaggedObject (.object members))
  | .null => .ok .null
  | .bool b => .ok (.bool b)
  | .int i => .ok (.number (Number.ofInt i))
  | .float n => .ok (.number n)
  | .string s => .ok (.string s)

def decodeItems : List Json → Except SchemaError (List Value)
  | [] => .ok []
  | item :: rest => do
    let item ← decode item
    let rest ← decodeItems rest
    return item :: rest

def decodeMembers : List (String × Json) → Except SchemaError (List (String × Value))
  | [] => .ok []
  | (name, json) :: rest => do
    let value ← decode json
    let rest ← decodeMembers rest
    return (name, value) :: rest
end

end Conform.Literal
