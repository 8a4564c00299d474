import Conform.Position

/-!
# Reports

What a failed validation says: a code, where in the input, and a context of named values from which
a message is made. A report is data; its message is chosen when the validation ends.
-/

namespace Conform

/-- One failure. -/
structure Report where
  code : String
  path : List Segment
  /-- Named values for the message; `label` always, `key` and `value` when there are any. -/
  context : List (String × Value)
  /-- A message set by the schema, which no renderer replaces. -/
  message : Option String := none
  deriving Inhabited, Repr

namespace Report

/-- The type named in the code: what comes before its first point. -/
def kind (r : Report) : String := String.ofList (r.code.toList.takeWhile (· != '.'))

/-- Whether the value was of the wrong type altogether. -/
def isBase (r : Report) : Bool := ".base".toList.isSuffixOf r.code.toList

/-- What the report calls the value. -/
def label (r : Report) : String :=
  match Members.get? r.context "label" with
  | some (.string s) => s
  | _ => pathText r.path

/-- The report in one line. -/
def display (r : Report) : String := r.code ++ " at " ++ Text.quoted (pathText r.path)

end Report

/-- A failure with its message. -/
structure Detail where
  message : String
  path : List Segment
  code : String
  context : List (String × Value)
  deriving Inhabited, Repr

/-- A failure as JSON. -/
def Detail.toJson (d : Detail) : Json :=
  .object [("message", .string d.message), ("path", .array (d.path.map Segment.toJson)),
    ("type", .string d.code),
    ("context", .object (d.context.map fun (name, value) => (name, value.toJson)))]

/-- The outcome of a validation for its caller: the value, and the failures if there are any. -/
structure Verdict where
  value : Value
  failures : List Detail
  deriving Inhabited, Repr

namespace Verdict

def isOk (v : Verdict) : Bool := v.failures.isEmpty

/-- One message for all failures. -/
def message (v : Verdict) : String := ". ".intercalate (v.failures.map Detail.message)

/-- The failures as JSON. -/
def errorToJson (v : Verdict) : Json :=
  .object [("message", .string v.message), ("details", .array (v.failures.map Detail.toJson))]

end Verdict

end Conform
