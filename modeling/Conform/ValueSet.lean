import Conform.Reference
import Conform.Text.Case

/-!
# Sets of values

The values that a schema allows or denies. A member is a literal or a reference, kept under a key
of its own and in the order of insertion; a reference is resolved when a value is looked up. The
set counts its references, so that a set of literals is searched by key alone.
-/

namespace Conform

/-- A member of a set. -/
inductive SetItem
  | literal (value : Value)
  | reference (r : Reference)
  deriving Inhabited, Repr

/-- A target as the keys of sets write it. -/
def Target.text : Target → String
  | .ancestor levels => "Ancestor(" ++ toString levels ++ ")"
  | .root => "Root"
  | .context => "Context"

namespace SetItem

/-- The key of a member. -/
def key : SetItem → String
  | .literal value => value.setKey
  | .reference r => "ref:" ++ r.target.text ++ ":" ++ r.key

def isReference : SetItem → Bool
  | .literal _ => false
  | .reference _ => true

/-- A member as reports show it. -/
def toValue : SetItem → Value
  | .literal value => value
  | .reference r => .string r.display

end SetItem

/-- A set of literals and references. -/
structure ValueSet where
  members : List (String × SetItem) := []
  /-- How many members are references. -/
  references : Nat := 0
  deriving Inhabited, Repr

namespace ValueSet

def empty : ValueSet := {}

/-- Adds a member, replacing one of the same key. -/
def add (s : ValueSet) (item : SetItem) : ValueSet where
  members := Members.insert s.members item.key item
  references :=
    if item.isReference && !Members.contains s.members item.key then s.references + 1
    else s.references

/-- Removes the member of that key, if there is one. -/
def remove (s : ValueSet) (item : SetItem) : ValueSet :=
  match Members.get? s.members item.key with
  | some removed =>
    { members := Members.erase s.members item.key
      references := if removed.isReference then s.references - 1 else s.references }
  | none => s

def addAll (s : ValueSet) (items : List SetItem) : ValueSet := items.foldl add s

def removeAll (s : ValueSet) (items : List SetItem) : ValueSet := items.foldl remove s

def items (s : ValueSet) : List SetItem := Members.values s.members

def size (s : ValueSet) : Nat := s.members.length

def isEmpty (s : ValueSet) : Bool := s.members.isEmpty

/-- Whether a look-up may have to resolve references. -/
def hasReferences (s : ValueSet) : Bool := decide (0 < s.references)

/-- Whether some member has the key of that literal. -/
def containsLiteral (s : ValueSet) (value : Value) : Bool := Members.contains s.members value.setKey

/-- The literal members, in order. -/
def literals (s : ValueSet) : List Value :=
  s.items.filterMap fun
    | .literal value => some value
    | .reference _ => none

/-- The references, in order. -/
def referenceItems (s : ValueSet) : List Reference :=
  s.items.filterMap fun
    | .literal _ => none
    | .reference r => some r

/-- The members of both sets, those of `other` replacing. -/
def concat (s other : ValueSet) : ValueSet := s.addAll other.items

/-- Equality of texts up to case. -/
def sameText (a b : String) : Bool := Text.lower a == Text.lower b

/-- Whether a resolved member is the value looked up. -/
def matchesValue (candidate value : Value) (insensitive : Bool) : Bool :=
  candidate.same value ||
    match candidate, value with
    | .string a, .string b => insensitive && sameText a b
    | _, _ => false

/-- The literal member with the key of the value. -/
def literalAt? (s : ValueSet) (value : Value) : Option Value :=
  match Members.get? s.members value.setKey with
  | some (.literal found) => some found
  | _ => none

/-- The first literal text that equals the value up to case. -/
def literalIgnoringCase? (s : ValueSet) (value : Value) : Option Value :=
  match value with
  | .string text =>
    s.literals.find? fun
      | .string candidate => sameText candidate text
      | _ => false
  | _ => none

/-- The first value that a reference stands for and that matches. -/
def resolved? (s : ValueSet) (value : Value) (scope : Scope) (insensitive : Bool) : Option Value :=
  s.referenceItems.findSome? fun r =>
    (r.resolveAll value scope).find? fun candidate => matchesValue candidate value insensitive

/-- The member that matches the value, resolved, in the member's own spelling: a literal by key,
then one up to case if that is asked for, then a reference. -/
def get? (s : ValueSet) (value : Value) (scope : Scope) (insensitive : Bool) : Option Value :=
  s.literalAt? value
    <|> (if insensitive then s.literalIgnoringCase? value else none)
    <|> (if s.hasReferences then s.resolved? value scope insensitive else none)

/-- Whether some member matches the value. -/
def has (s : ValueSet) (value : Value) (scope : Scope) (insensitive : Bool) : Bool :=
  (s.get? value scope insensitive).isSome

/-- The members as reports show them. -/
def toValues (s : ValueSet) : List Value := s.items.map SetItem.toValue

end ValueSet

end Conform
