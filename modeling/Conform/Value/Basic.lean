import Conform.Bytes.Base64
import Conform.Bytes.Hex
import Conform.Json.Printer
import Conform.Text.Quoted
import Conform.Time.Instant

/-!
# Values

What schemas judge. JSON cannot say everything a schema asks about: a missing value is not `null`,
a number may be infinite or no number at all, and dates and bytes are compared by what they stand
for.

`Value.same` is the equality of sets and duplicates; `Value.setKey` is a text that equal values
share.
-/

namespace Conform

/-- A value under validation. Members of an object keep their order. -/
inductive Value
  /-- No value: a missing key, an unset argument. -/
  | undefined
  | null
  | bool (b : Bool)
  | number (n : Number)
  | string (s : String)
  | date (t : Instant)
  | binary (bytes : List UInt8)
  | array (items : List Value)
  | object (members : List (String × Value))
  deriving Inhabited, Repr

namespace Value

def isDefined : Value → Bool
  | .undefined => false
  | _ => true

def string? : Value → Option String
  | .string s => some s
  | _ => none

def number? : Value → Option Number
  | .number n => some n
  | _ => none

def date? : Value → Option Instant
  | .date t => some t
  | _ => none

/-- Whether the value is the boolean `true`. -/
def isTrue : Value → Bool
  | .bool b => b
  | _ => false

/-- A count as a value. -/
def ofNat (n : Nat) : Value := .number (Number.ofNat n)

/-- The name of the value's fundamental kind. -/
def kind : Value → String
  | .undefined => "undefined"
  | .null => "null"
  | .bool _ => "boolean"
  | .number _ => "number"
  | .string _ => "string"
  | .date _ => "date"
  | .binary _ => "binary"
  | .array _ => "array"
  | .object _ => "object"

/-- An array index: digits, possibly after one plus sign, below `2 ^ 64`. -/
def index? (key : String) : Option Nat :=
  let digits := match key.toList with
    | '+' :: rest => rest
    | cs => cs
  if digits.isEmpty || !digits.all Char.isDigit then none
  else
    let n := digits.foldl (fun acc c => acc * 10 + (c.toNat - '0'.toNat)) 0
    if n < Nat.pow 2 64 then some n else none

/-- The member under a key of an object, or at an index of an array. -/
def get? (value : Value) (key : String) : Option Value :=
  match value with
  | .object members => Members.get? members key
  | .array items => (index? key).bind fun i => items[i]?
  | _ => none

/-- The value at the end of a path of keys; a missing step leads to no value. -/
def reach (value : Value) : List String → Value
  | [] => value
  | key :: rest =>
    match value.get? key with
    | some next => next.reach rest
    | none => .undefined

mutual
/-- Structural equality: "not a number" equals itself, the zeros are equal, dates are compared to
the millisecond, and the order of members does not matter. -/
def same : Value → Value → Bool
  | .undefined, .undefined => true
  | .null, .null => true
  | .bool a, .bool b => a == b
  | .number a, .number b => (a.isNaN && b.isNaN) || a.eq b
  | .string a, .string b => a == b
  | .date a, .date b => a.millis == b.millis
  | .binary a, .binary b => a == b
  | .array as, .array bs => sameItems as bs
  | .object as, .object bs => as.length == bs.length && sameMembers as bs
  | _, _ => false

/-- Equal length, and equal item by item. -/
def sameItems : List Value → List Value → Bool
  | [], [] => true
  | a :: as, b :: bs => same a b && sameItems as bs
  | _, _ => false

/-- Every member has an equal counterpart. -/
def sameMembers : List (String × Value) → List (String × Value) → Bool
  | [], _ => true
  | (key, a) :: rest, others =>
    (match Members.get? others key with
      | some b => same a b
      | none => false) && sameMembers rest others
end

/-- The text of a number in set keys: one for all that are not numbers, one for both zeros. -/
def numberKey (n : Number) : String :=
  if n.isNaN then "NaN" else if n.isZero then "0" else n.plainText

/-- Texts in ascending order of their code points. -/
def sortTexts (texts : List String) : List String := texts.mergeSort (fun a b => decide (a ≤ b))

mutual
/-- A text by which sets know the value: a letter for its kind and its content. -/
def setKey : Value → String
  | .undefined => "u"
  | .null => "z"
  | .bool b => "b:" ++ (if b then "true" else "false")
  | .number n => "n:" ++ numberKey n
  | .string s => "s:" ++ s
  | .date t => "d:" ++ toString t.millis
  | .binary bytes => "x:" ++ Bytes.toHex bytes
  | .array items => "a:[" ++ ",".intercalate (setKeys items) ++ "]"
  | .object members => "o:\x7b" ++ ",".intercalate (sortTexts (memberKeys members)) ++ "\x7d"

def setKeys : List Value → List String
  | [] => []
  | item :: rest => setKey item :: setKeys rest

/-- The keys of members: the quoted name, an equals sign and the key of the value. -/
def memberKeys : List (String × Value) → List String
  | [] => []
  | (name, value) :: rest => (Text.quoted name ++ "=" ++ setKey value) :: memberKeys rest
end

/-- A number as JSON: an integer where doubles hold all of them, else a double; what is not finite
has no counterpart. -/
def numberToJson (n : Number) : Json :=
  match n.toSafeInt? with
  | some i => .int i
  | none => if n.isFinite then .float n else .null

mutual
/-- The value as JSON data. Dates and bytes become texts, and members without a value are left
out. -/
def toJson : Value → Json
  | .undefined => .null
  | .null => .null
  | .bool b => .bool b
  | .number n => numberToJson n
  | .string s => .string s
  | .date t => .string t.text
  | .binary bytes => .string (Bytes.toBase64 bytes)
  | .array items => .array (toJsonItems items)
  | .object members => .object (Json.sortMembers (toJsonMembers members))

def toJsonItems : List Value → List Json
  | [] => []
  | item :: rest => toJson item :: toJsonItems rest

def toJsonMembers : List (String × Value) → List (String × Json)
  | [] => []
  | (name, value) :: rest =>
    match value with
    | .undefined => toJsonMembers rest
    | value => (name, toJson value) :: toJsonMembers rest
end

mutual
/-- The value that JSON data stands for. -/
def ofJson : Json → Value
  | .null => .null
  | .bool b => .bool b
  | .int i => .number (Number.ofInt i)
  | .float n => .number n
  | .string s => .string s
  | .array items => .array (ofJsonItems items)
  | .object members => .object (ofJsonMembers members)

def ofJsonItems : List Json → List Value
  | [] => []
  | item :: rest => ofJson item :: ofJsonItems rest

def ofJsonMembers : List (String × Json) → List (String × Value)
  | [] => []
  | (name, json) :: rest => (name, ofJson json) :: ofJsonMembers rest
end

/-- The value as messages show it: a text as it is, all else as compact JSON. -/
def display : Value → String
  | .undefined => "undefined"
  | .number n =>
    if n.isNaN then "NaN"
    else if n.isInfinite then (if n.isNegative then "-Infinity" else "Infinity")
    else (numberToJson n).compact
  | .string s => s
  | value => value.toJson.compact

end Value

end Conform
