import Conform.Json.Basic

/-!
# Writing JSON

Compact text, and text on several lines indented by two spaces. Quotes, backslashes and controls are
escaped; all other characters are written as they are.
-/

namespace Conform.Json

/-- Four hexadecimal digits. -/
def hexFourText (n : Nat) : String :=
  let digits := String.ofList (Nat.toDigits 16 n)
  "".pushn '0' (4 - digits.length) ++ digits

/-- One character of a string. -/
def escapeChar (c : Char) : String :=
  match c with
  | '"' => "\\\""
  | '\\' => "\\\\"
  | '\x08' => "\\b"
  | '\x0c' => "\\f"
  | '\n' => "\\n"
  | '\r' => "\\r"
  | '\t' => "\\t"
  | _ => if c.toNat < 0x20 then "\\u" ++ hexFourText c.toNat else c.toString

/-- A string between quotes. -/
def stringText (s : String) : String := "\"" ++ String.join (s.toList.map escapeChar) ++ "\""

/-- A double; only finite ones have a text. -/
def floatText (n : Number) : String :=
  if n.isFinite then n.text Number.jsonLayout else "null"

mutual
/-- Text without blanks. -/
def compact : Json → String
  | .null => "null"
  | .bool b => if b then "true" else "false"
  | .int i => toString i
  | .float n => floatText n
  | .string s => stringText s
  | .array items => "[" ++ ",".intercalate (compactItems items) ++ "]"
  | .object members => "\x7b" ++ ",".intercalate (compactMembers members) ++ "\x7d"

def compactItems : List Json → List String
  | [] => []
  | item :: rest => compact item :: compactItems rest

def compactMembers : List (String × Json) → List String
  | [] => []
  | (key, value) :: rest => (stringText key ++ ":" ++ compact value) :: compactMembers rest
end

/-- A line break and the indentation of a level. -/
def newline (level : Nat) : String := "\n" ++ "".pushn ' ' (2 * level)

mutual
/-- Text on several lines, inside `level` containers. -/
def prettyAt (level : Nat) : Json → String
  | .null => "null"
  | .bool b => if b then "true" else "false"
  | .int i => toString i
  | .float n => floatText n
  | .string s => stringText s
  | .array [] => "[]"
  | .array (item :: rest) =>
    "[" ++ ",".intercalate (prettyItems (level + 1) (item :: rest)) ++ newline level ++ "]"
  | .object [] => "\x7b\x7d"
  | .object (member :: rest) =>
    "\x7b" ++ ",".intercalate (prettyMembers (level + 1) (member :: rest)) ++ newline level ++
      "\x7d"

def prettyItems (level : Nat) : List Json → List String
  | [] => []
  | item :: rest => (newline level ++ prettyAt level item) :: prettyItems level rest

def prettyMembers (level : Nat) : List (String × Json) → List String
  | [] => []
  | (key, value) :: rest =>
    (newline level ++ stringText key ++ ": " ++ prettyAt level value) :: prettyMembers level rest
end

/-- Text on several lines. -/
def pretty (json : Json) : String := prettyAt 0 json

end Conform.Json
