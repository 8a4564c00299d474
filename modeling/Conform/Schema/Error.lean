import Conform.Json.Printer

/-!
# What is wrong with a schema

The causes for which a schema is refused while it is put together or built from a description, and
their wording. Failures of input are reports, not errors.
-/

namespace Conform

/-- A cause for refusing a schema. -/
inductive SchemaError
  /-- Only schemas of one type, or one without a type, can be merged. -/
  | cannotMerge (source target : String)
  /-- A key can be renamed once. -/
  | renamedTwice (source : String)
  /-- A conditional needs a branch. -/
  | noBranch
  /-- A schema condition is its own test. -/
  | testedTwice
  | argumentCount (rule : String) (expected given : Nat)
  /-- A rule argument that its table does not admit; `reason` names it. -/
  | argument (rule reason : String)
  | unknownRule (kind rule : String)
  /-- Siblings that reference each other; the chain ends where it starts. -/
  | circular (keys : List String)
  | regex (source : String)
  | unknownFunction (name : String)
  | unknownType (name : String)
  | untaggedObject (literal : Json)
  | unknownSpecial (name : String)
  | unknownTag (tag : String)
  | noGenerator
  | keyPatternShape
  | matchShape
  /-- A rule argument of the wrong shape in a description. -/
  | argumentShape (name wanted : String)
  | flagNotText (name : String) (given : Json)
  /-- A part of a description that cannot be read at all. -/
  | unreadable (what : String)

namespace SchemaError

/-- The reason given for a description that is refused. -/
def descriptionReason : SchemaError → String
  | .unknownType name => "unknown type " ++ name
  | .untaggedObject literal => "untagged object literal " ++ literal.compact
  | .unknownSpecial name => "unknown special value " ++ name
  | .unknownTag tag => "unknown literal tag " ++ tag
  | .noGenerator => "lazy schema without a generator"
  | .keyPatternShape => "a key pattern needs exactly one of regex or schema"
  | .matchShape => "a match needs a schema, a ref or a condition"
  | .argumentShape name wanted => "argument " ++ name ++ " must " ++ wanted
  | .flagNotText name given => "flag " ++ name ++ " must be a string, got " ++ given.compact
  | .unreadable what => what
  | _ => ""

/-- The wording. -/
def message : SchemaError → String
  | .cannotMerge source target =>
    "Invalid schema: cannot merge a " ++ source ++ " schema into a " ++ target ++ " schema"
  | .renamedTwice source => "Invalid schema: cannot rename source " ++ source ++ " more than once"
  | .noBranch => "Invalid schema: when() requires at least one of then or otherwise"
  | .testedTwice => "Invalid schema: a schema condition cannot be combined with is"
  | .argumentCount rule expected given =>
    "Invalid arguments for rule " ++ rule ++ ": expected " ++ toString expected ++
      " arguments, got " ++ toString given
  | .argument rule reason => "Invalid arguments for rule " ++ rule ++ ": " ++ reason
  | .unknownRule kind rule => "Rule " ++ rule ++ " is not supported by " ++ kind ++ " schemas"
  | .circular keys => "Circular key dependency detected: " ++ " -> ".intercalate keys
  | .regex source => "Invalid regular expression: " ++ source
  | .unknownFunction name => "Function not registered: " ++ name
  | error => "Invalid description: " ++ error.descriptionReason

end SchemaError

end Conform
