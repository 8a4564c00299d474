import Conform.Report.Basic
import Conform.Report.Template

/-!
# Messages

The plain English messages of the report codes, and the choice of a message for a report: the one
set by the schema, a template of the preferences, what a renderer says, and last the bare code.
-/

namespace Conform.Messages

private def text (s : String) : Piece := .literal s
private def the (name : String) : Piece := .place name
private def label : Piece := .place "label"

/-- The message of each code. -/
def templates : List (String × List Piece) :=
  [
    ("any.required", [label, text " is required"]),
    ("any.unknown", [label, text " is not allowed"]),
    ("any.invalid", [label, text " contains an invalid value"]),
    ("any.empty", [label, text " is not allowed to be empty"]),
    ("any.allowOnly", [label, text " must be one of [", the "valids", text "]"]),
    ("any.default", [label, text " threw an error when running default method: ", the "error"]),
    ("any.ref",
      [label, text " ", the "arg", text " references \"", the "ref", text "\" which ",
        the "reason"]),
    ("any.custom", [label, text " failed custom validation because ", the "error"]),
    ("alternatives.base", [label, text " does not match any of the allowed types"]),
    ("alternatives.types", [label, text " must be one of ", the "types"]),
    ("array.base", [label, text " must be an array"]),
    ("array.includes",
      [label, text " at position ", the "pos", text " does not match any of the allowed types"]),
    ("array.includesRequiredUnknowns",
      [label, text " does not contain ", the "unknownMisses", text " required value(s)"]),
    ("array.includesRequiredKnowns", [label, text " does not contain ", the "knownMisses"]),
    ("array.includesRequiredBoth",
      [label, text " does not contain ", the "knownMisses", text " and ", the "unknownMisses",
        text " other required value(s)"]),
    ("array.excludes",
      [label, text " at position ", the "pos", text " contains an excluded value"]),
    ("array.orderedLength",
      [label, text " at position ", the "pos", text " must have at most ", the "limit",
        text " items"]),
    ("array.sparse", [label, text " must not be a sparse array item"]),
    ("array.unique", [label, text " position ", the "pos", text " contains a duplicate value"]),
    ("array.min", [label, text " must contain at least ", the "limit", text " items"]),
    ("array.max", [label, text " must contain less than or equal to ", the "limit", text " items"]),
    ("array.length", [label, text " must contain ", the "limit", text " items"]),
    ("array.hasKnown",
      [label, text " does not contain at least one required match for type ", the "patternLabel"]),
    ("array.hasUnknown", [label, text " does not contain at least one required match"]),
    ("binary.base", [label, text " must be a buffer or a string"]),
    ("binary.min", [label, text " must be at least ", the "limit", text " bytes"]),
    ("binary.max", [label, text " must be less than or equal to ", the "limit", text " bytes"]),
    ("binary.length", [label, text " must be ", the "limit", text " bytes"]),
    ("boolean.base", [label, text " must be a boolean"]),
    ("date.base", [label, text " must be a number of milliseconds or valid date string"]),
    ("date.format", [label, text " must be in ", the "format", text " format"]),
    ("date.min", [label, text " must be larger than or equal to \"", the "limit", text "\""]),
    ("date.max", [label, text " must be less than or equal to \"", the "limit", text "\""]),
    ("date.greater", [label, text " must be greater than \"", the "limit", text "\""]),
    ("date.less", [label, text " must be less than \"", the "limit", text "\""]),
    ("number.base", [label, text " must be a number"]),
    ("number.infinity", [label, text " cannot be infinity"]),
    ("number.unsafe", [label, text " must be a safe number"]),
    ("number.min", [label, text " must be larger than or equal to ", the "limit"]),
    ("number.max", [label, text " must be less than or equal to ", the "limit"]),
    ("number.greater", [label, text " must be greater than ", the "limit"]),
    ("number.less", [label, text " must be less than ", the "limit"]),
    ("number.integer", [label, text " must be an integer"]),
    ("number.precision",
      [label, text " must have no more than ", the "limit", text " decimal places"]),
    ("number.multiple", [label, text " must be a multiple of ", the "multiple"]),
    ("number.positive", [label, text " must be a positive number"]),
    ("number.negative", [label, text " must be a negative number"]),
    ("number.port", [label, text " must be a valid port"]),
    ("object.base", [label, text " must be an object"]),
    ("object.allowUnknown", [label, text " is not allowed"]),
    ("object.rename.multiple",
      [label, text " cannot rename child ", the "from",
        text " because multiple renames are disabled and another key was already renamed to ",
        the "to"]),
    ("object.rename.override",
      [label, text " cannot rename child ", the "from",
        text " because override is disabled and target ", the "to", text " exists"]),
    ("object.with", [the "main", text " missing required peer ", the "peer"]),
    ("object.without", [the "main", text " conflict with forbidden peer ", the "peer"]),
    ("object.xor",
      [label, text " contains a conflict between exclusive peers [", the "peers", text "]"]),
    ("object.oxor",
      [label, text " contains a conflict between optional exclusive peers [", the "peers",
        text "]"]),
    ("object.missing", [label, text " must contain at least one of [", the "peers", text "]"]),
    ("object.and",
      [label, text " contains [", the "present", text "] without its required peers [",
        the "missing", text "]"]),
    ("object.nand",
      [the "main", text " must not exist simultaneously with [", the "peers", text "]"]),
    ("object.assert", [label, text " is invalid because ", the "message"]),
    ("object.min", [label, text " must have at least ", the "limit", text " keys"]),
    ("object.max", [label, text " must have less than or equal to ", the "limit", text " keys"]),
    ("object.length", [label, text " must have ", the "limit", text " keys"]),
    ("string.base", [label, text " must be a string"]),
    ("string.min", [label, text " length must be at least ", the "limit", text " characters long"]),
    ("string.max",
      [label, text " length must be less than or equal to ", the "limit", text " characters long"]),
    ("string.length", [label, text " length must be ", the "limit", text " characters long"]),
    ("string.regex.base",
      [label, text " with value \"", the "value", text "\" fails to match the required pattern: ",
        the "pattern"]),
    ("string.regex.name",
      [label, text " with value \"", the "value", text "\" fails to match the ", the "name",
        text " pattern"]),
    ("string.regex.invert.base",
      [label, text " with value \"", the "value", text "\" matches the inverted pattern: ",
        the "pattern"]),
    ("string.regex.invert.name",
      [label, text " with value \"", the "value", text "\" matches the inverted ", the "name",
        text " pattern"]),
    ("string.alphanum", [label, text " must only contain alpha-numeric characters"]),
    ("string.token", [label, text " must only contain alpha-numeric and underscore characters"]),
    ("string.hex", [label, text " must only contain hexadecimal characters"]),
    ("string.hexAlign", [label, text " hex decoded representation must be byte aligned"]),
    ("string.base64", [label, text " must be a valid base64 string"]),
    ("string.creditCard", [label, text " must be a credit card"]),
    ("string.isoDate", [label, text " must be a valid ISO 8601 date"]),
    ("string.lowercase", [label, text " must only contain lowercase characters"]),
    ("string.uppercase", [label, text " must only contain uppercase characters"]),
    ("string.trim", [label, text " must not have leading or trailing whitespace"])]

/-- Makes the message of a code from its context and path; none for codes it does not know. -/
abbrev Renderer := String → List (String × Value) → List Segment → Option String

/-- The English messages. -/
def english : Renderer := fun code context _ =>
  (templates.lookup code).map (Template.fill context)

/-- The message of a report. -/
def choose (own : List (String × String)) (renderer : Renderer) (r : Report) : String :=
  (r.message
    <|> (Members.get? own r.code).map (fun template => Template.interpolate template r.context)
    <|> renderer r.code r.context r.path).getD r.code

/-- A report with its message. -/
def detail (own : List (String × String)) (renderer : Renderer) (r : Report) : Detail where
  message := choose own renderer r
  path := r.path
  code := r.code
  context := r.context

end Conform.Messages
