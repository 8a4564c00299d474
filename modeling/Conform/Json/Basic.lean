import Conform.Number.Text
import Conform.Members

/-!
# JSON data

`Json` is data: an object is a list of members in the order in which they are written out. `Source`
is what a text says before it is taken as data: members in the order of the text, possibly
repeated, and leaves that have the shape of JSON but stand for no value. Taking a source as data
sorts the members of each object by key and keeps the last of a repeated key.
-/

namespace Conform

/-- JSON data. A number without point and exponent is an integer of at most 64 bits. -/
inductive Json
  | null
  | bool (b : Bool)
  | int (i : Int)
  | float (n : Number)
  | string (s : String)
  | array (items : List Json)
  | object (members : List (String × Json))
  deriving Inhabited, Repr

/-- JSON as a text has it. -/
inductive Source
  | null
  | bool (b : Bool)
  | int (i : Int)
  | float (n : Number)
  | string (s : String)
  | array (items : List Source)
  | object (members : List (String × Source))
  /-- A number out of range, a lone half of a character, or nesting that is too deep. -/
  | unreadable
  deriving Inhabited, Repr

namespace Json

/-- Writes a member at its place among members sorted by key, replacing one of the same key. -/
def insertSorted (key : String) (value : Json) : List (String × Json) → List (String × Json)
  | [] => [(key, value)]
  | (k, v) :: rest =>
    if key = k then (key, value) :: rest
    else if key < k then (key, value) :: (k, v) :: rest
    else (k, v) :: insertSorted key value rest

/-- Members sorted by key; the last of a repeated key stays. -/
def sortMembers (members : List (String × Json)) : List (String × Json) :=
  members.foldl (fun acc member => insertSorted member.1 member.2 acc) []

mutual
/-- The same data with the members of every object sorted by key. -/
def sorted : Json → Json
  | .array items => .array (sortedItems items)
  | .object members => .object (sortMembers (sortedMembers members))
  | .null => .null
  | .bool b => .bool b
  | .int i => .int i
  | .float n => .float n
  | .string s => .string s

def sortedItems : List Json → List Json
  | [] => []
  | item :: rest => sorted item :: sortedItems rest

def sortedMembers : List (String × Json) → List (String × Json)
  | [] => []
  | (key, value) :: rest => (key, sorted value) :: sortedMembers rest
end

mutual
/-- The data as a source, every member once and in its order. -/
def toSource : Json → Source
  | .array items => .array (toSources items)
  | .object members => .object (toMembers members)
  | .null => .null
  | .bool b => .bool b
  | .int i => .int i
  | .float n => .float n
  | .string s => .string s

def toSources : List Json → List Source
  | [] => []
  | item :: rest => toSource item :: toSources rest

def toMembers : List (String × Json) → List (String × Source)
  | [] => []
  | (key, value) :: rest => (key, toSource value) :: toMembers rest
end

mutual
/-- Whether two data are equal, members in order. -/
def eq : Json → Json → Bool
  | .null, .null => true
  | .bool a, .bool b => a == b
  | .int a, .int b => a == b
  | .float a, .float b => a == b
  | .string a, .string b => a == b
  | .array as, .array bs => eqItems as bs
  | .object as, .object bs => eqMembers as bs
  | _, _ => false

def eqItems : List Json → List Json → Bool
  | [], [] => true
  | a :: as, b :: bs => eq a b && eqItems as bs
  | _, _ => false

def eqMembers : List (String × Json) → List (String × Json) → Bool
  | [], [] => true
  | (j, a) :: as, (k, b) :: bs => j == k && eq a b && eqMembers as bs
  | _, _ => false
end

mutual
/-- How deep the data nests: zero for a scalar. -/
def depth : Json → Nat
  | .array items => depthItems items + 1
  | .object members => depthMembers members + 1
  | _ => 0

def depthItems : List Json → Nat
  | [] => 0
  | item :: rest => max (depth item) (depthItems rest)

def depthMembers : List (String × Json) → Nat
  | [] => 0
  | (_, value) :: rest => max (depth value) (depthMembers rest)
end

/-- A member when there is something to say, none otherwise. -/
def optionalMember {α : Type} (name : String) (value : Option α) (toJson : α → Json) :
    List (String × Json) :=
  match value with
  | some v => [(name, toJson v)]
  | none => []

/-- A member with a list unless the list is empty. -/
def listMember {α : Type} (name : String) (items : List α) (toJson : α → Json) :
    List (String × Json) :=
  if items.isEmpty then [] else [(name, .array (items.map toJson))]

end Json

namespace Source

mutual
/-- How deep the source nests: zero for a scalar. -/
def depth : Source → Nat
  | .array items => depthItems items + 1
  | .object members => depthMembers members + 1
  | _ => 0

def depthItems : List Source → Nat
  | [] => 0
  | item :: rest => max (depth item) (depthItems rest)

def depthMembers : List (String × Source) → Nat
  | [] => 0
  | (_, value) :: rest => max (depth value) (depthMembers rest)
end

mutual
/-- The data that a source stands for; none if any part of it is unreadable. -/
def toJson? : Source → Option Json
  | .null => some .null
  | .bool b => some (.bool b)
  | .int i => some (.int i)
  | .float n => some (.float n)
  | .string s => some (.string s)
  | .array items => (toItems? items).map .array
  | .object members => (toMembers? members).map fun ms => .object (Json.sortMembers ms)
  | .unreadable => none

def toItems? : List Source → Option (List Json)
  | [] => some []
  | item :: rest => do
    let item ← toJson? item
    let rest ← toItems? rest
    some (item :: rest)

def toMembers? : List (String × Source) → Option (List (String × Json))
  | [] => some []
  | (key, value) :: rest => do
    let value ← toJson? value
    let rest ← toMembers? rest
    some ((key, value) :: rest)
end

end Source

end Conform
