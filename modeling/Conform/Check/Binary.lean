import Conform.Check.Basic

/-!
# Bytes

Converting decodes texts by the schema's encoding; a text that does not decode stays a text.
-/

namespace Conform.Binary

/-- The bytes that a text stands for in an encoding. -/
def decode? (encoding : Option String) (text : String) : Option (List UInt8) :=
  match encoding with
  | some "base64" => Bytes.ofBase64? .needed text
  | some "hex" => Bytes.ofHex? text
  | _ => some text.toUTF8.toList

def coerce (encoding : Option String) (value : Value) : Value :=
  match value with
  | .string text => ((decode? encoding text).map Value.binary).getD value
  | value => value

/-- Only bytes pass. -/
def base (site : Site) (value : Value) : Outcome :=
  match value with
  | .binary bytes => { value := .binary bytes }
  | value => .failure value (site.report "binary.base" value)

/-- How many bytes a value has. -/
def size (value : Value) : Nat :=
  match value with
  | .binary bytes => bytes.length
  | _ => 0

/-- The rules of bytes. -/
def rule (site : Site) (name : String) (given : Given) (value : Value) : Except Report Value :=
  let limit := given.count "limit"
  match name with
  | "min" => site.requireSize "binary.min" value limit (decide (limit ≤ size value))
  | "max" => site.requireSize "binary.max" value limit (decide (size value ≤ limit))
  | "length" => site.requireSize "binary.length" value limit (decide (size value = limit))
  | _ => .ok value

end Conform.Binary
