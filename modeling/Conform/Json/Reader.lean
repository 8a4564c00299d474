import Conform.Json.Numeral

/-!
# Reading JSON

A recursive reader over the characters of a text. It takes one value off the front and gives back
the rest; a document is one value with nothing but blanks around it. What has the shape of JSON but
no value becomes `Source.unreadable`, so that a reader which skips such a part does not fail on it.
-/

namespace Conform.Json

/-- Containers may nest this deep. -/
def depthLimit : Nat := 127

def isJsonBlank (c : Char) : Bool := c == ' ' || c == '\n' || c == '\t' || c == '\r'

def skipBlank (cs : List Char) : List Char := cs.dropWhile isJsonBlank

/-- The value of four hexadecimal digits. -/
def hexFour? : List Char → Option (Nat × List Char)
  | a :: b :: c :: d :: rest => do
    let digit (x : Char) : Option Nat :=
      if '0' ≤ x ∧ x ≤ '9' then some (x.toNat - 48)
      else if 'a' ≤ x ∧ x ≤ 'f' then some (x.toNat - 87)
      else if 'A' ≤ x ∧ x ≤ 'F' then some (x.toNat - 55)
      else none
    let n := (((← digit a) * 16 + (← digit b)) * 16 + (← digit c)) * 16 + (← digit d)
    some (n, rest)
  | _ => none

/-- The character of an escape of one letter. -/
def simpleEscape? : Char → Option Char
  | '"' => some '"'
  | '\\' => some '\\'
  | '/' => some '/'
  | 'b' => some '\x08'
  | 'f' => some '\x0c'
  | 'n' => some '\n'
  | 'r' => some '\r'
  | 't' => some '\t'
  | _ => none

/-- The second half of a character outside the basic plane. -/
def lowHalf? : List Char → Option (Nat × List Char)
  | '\\' :: 'u' :: rest => do
    let (n, rest) ← hexFour? rest
    if 0xDC00 ≤ n ∧ n ≤ 0xDFFF then some (n, rest) else none
  | _ => none

/-- The rest of a string after its opening quote. The characters come in reverse; there are none
when an escape names half a character only. -/
def stringBody? (fuel : Nat) (acc : Option (List Char)) (cs : List Char) :
    Option (Option (List Char) × List Char) :=
  match fuel, cs with
  | fuel + 1, '"' :: rest => let _ := fuel; some (acc, rest)
  | fuel + 1, '\\' :: 'u' :: rest => do
    let (n, rest) ← hexFour? rest
    if 0xD800 ≤ n ∧ n ≤ 0xDBFF then
      match lowHalf? rest with
      | some (low, rest) =>
        let code := 0x10000 + (n - 0xD800) * 0x400 + (low - 0xDC00)
        stringBody? fuel (acc.map (Char.ofNat code :: ·)) rest
      | none => stringBody? fuel none rest
    else if 0xDC00 ≤ n ∧ n ≤ 0xDFFF then stringBody? fuel none rest
    else stringBody? fuel (acc.map (Char.ofNat n :: ·)) rest
  | fuel + 1, '\\' :: c :: rest => do
    let c ← simpleEscape? c
    stringBody? fuel (acc.map (c :: ·)) rest
  | fuel + 1, c :: rest =>
    if c.toNat < 0x20 ∨ c = '\\' then none else stringBody? fuel (acc.map (c :: ·)) rest
  | _, _ => none

/-- A string after its opening quote; none of its characters when it names no text. -/
def string? (cs : List Char) : Option (Option String × List Char) :=
  (stringBody? (cs.length + 1) (some []) cs).map fun (chars, rest) =>
    (chars.map fun cs => String.ofList cs.reverse, rest)

def digitValue (c : Char) : Nat := c.toNat - '0'.toNat

/-- The digits at the front, and the rest. -/
def digits (cs : List Char) : List Nat × List Char :=
  let taken := cs.takeWhile Char.isDigit
  (taken.map digitValue, cs.drop taken.length)

/-- The exponent after its mark, with its sign. -/
def exponent? (cs : List Char) : Option (Bool × Nat × List Char) :=
  let (negative, cs) := match cs with
    | '-' :: rest => (true, rest)
    | '+' :: rest => (false, rest)
    | _ => (false, cs)
  match digits cs with
  | ([], _) => none
  | (ds, rest) => some (negative, ds.foldl (fun acc d => acc * 10 + d) 0, rest)

/-- What a numeral without value reads as. -/
def orUnreadable (value : Option Json) : Source := (value.map toSource).getD .unreadable

/-- What follows the whole digits of a numeral and its fraction: an exponent, or its end. -/
def numeralEnd? (negative : Bool) (s : Significand) (fractional : Bool) (cs : List Char) :
    Option (Source × List Char) :=
  match cs with
  | c :: rest =>
    if c = 'e' ∨ c = 'E' then do
      let (negativeExponent, exponent, rest) ← exponent? rest
      some (orUnreadable (withExponent? negative s negativeExponent exponent), rest)
    else if fractional then some (orUnreadable (float? negative s.digits s.exponent), cs)
    else some (orUnreadable (whole? negative s), cs)
  | [] =>
    if fractional then some (orUnreadable (float? negative s.digits s.exponent), [])
    else some (orUnreadable (whole? negative s), [])

/-- A numeral after its sign. A leading zero stands alone. -/
def numeral? (negative : Bool) (cs : List Char) : Option (Source × List Char) :=
  match digits cs with
  | ([], _) => none
  | (0 :: _ :: _, _) => none
  | (whole, rest) =>
    let s := whole.foldl Significand.pushWhole .empty
    match rest with
    | '.' :: rest =>
      match digits rest with
      | ([], _) => none
      | (fraction, rest) =>
        numeralEnd? negative (fraction.foldl Significand.pushFraction { s with full := false }) true
          rest
    | _ => numeralEnd? negative s false rest

/-- One of the three words. -/
def word? (cs : List Char) : Option (Source × List Char) :=
  match cs with
  | 't' :: 'r' :: 'u' :: 'e' :: rest => some (.bool true, rest)
  | 'f' :: 'a' :: 'l' :: 's' :: 'e' :: rest => some (.bool false, rest)
  | 'n' :: 'u' :: 'l' :: 'l' :: rest => some (.null, rest)
  | _ => none

/-- A container, unless it nests too deep. -/
def ifShallow (depth : Nat) (container : Source) : Source :=
  if depth ≤ depthLimit then container else .unreadable

mutual
/-- One value after blanks, inside `depth` containers. -/
def value? (fuel depth : Nat) (cs : List Char) : Option (Source × List Char) :=
  match fuel with
  | 0 => none
  | fuel + 1 =>
    match skipBlank cs with
    | '"' :: rest =>
      (string? rest).map fun (s, rest) => ((s.map Source.string).getD .unreadable, rest)
    | '[' :: rest =>
      match skipBlank rest with
      | ']' :: rest => some (ifShallow (depth + 1) (.array []), rest)
      | _ => (items? fuel (depth + 1) rest).map fun (items, rest) =>
          (ifShallow (depth + 1) (.array items), rest)
    | '{' :: rest =>
      match skipBlank rest with
      | '}' :: rest => some (ifShallow (depth + 1) (.object []), rest)
      | _ => (members? fuel (depth + 1) rest).map fun (members, rest) =>
          (match members with
            | some members => ifShallow (depth + 1) (.object members)
            | none => .unreadable, rest)
    | '-' :: rest => numeral? true rest
    | c :: rest => if c.isDigit then numeral? false (c :: rest) else word? (c :: rest)
    | [] => none

/-- Array items up to the closing bracket. -/
def items? (fuel depth : Nat) (cs : List Char) : Option (List Source × List Char) :=
  match fuel with
  | 0 => none
  | fuel + 1 => do
    let (item, rest) ← value? fuel depth cs
    match skipBlank rest with
    | ',' :: rest =>
      let (items, rest) ← items? fuel depth rest
      some (item :: items, rest)
    | ']' :: rest => some ([item], rest)
    | _ => none

/-- Object members up to the closing brace; none of them when a key names no text. -/
def members? (fuel depth : Nat) (cs : List Char) :
    Option (Option (List (String × Source)) × List Char) :=
  match fuel with
  | 0 => none
  | fuel + 1 =>
    match skipBlank cs with
    | '"' :: rest => do
      let (key, rest) ← string? rest
      match skipBlank rest with
      | ':' :: rest =>
        let (value, rest) ← value? fuel depth rest
        let first : Option (String × Source) := key.map fun key => (key, value)
        match skipBlank rest with
        | ',' :: rest =>
          let (members, rest) ← members? fuel depth rest
          some ((do let f ← first; let ms ← members; some (f :: ms)), rest)
        | '}' :: rest => some (first.map fun f => [f], rest)
        | _ => none
      | _ => none
    | _ => none
end

/-- The one value of a document. Each value, item and member takes characters, so twice their number
is fuel enough. -/
def read? (text : String) : Option Source :=
  let cs := text.toList
  match value? (2 * cs.length + 2) 0 cs with
  | some (source, rest) => if (skipBlank rest).isEmpty then some source else none
  | none => none

/-- The data of a document. -/
def parse? (text : String) : Option Json := (read? text).bind Source.toJson?

end Conform.Json
