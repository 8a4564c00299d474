import Conform.Position
import Conform.Preferences
import Conform.Text.Split

/-!
# References

A reference points from a schema to a value elsewhere: at the value itself or an ancestor of it, at
the root of the input, or into the context of the preferences. It is read from a key such as `a.b`,
`..peer`, `$limit` or `/root.key`, and resolved anew for every value.
-/

namespace Conform

/-- Where a reference starts. -/
inductive Target
  /-- So many levels up: 0 is the value itself, 1 its parent. -/
  | ancestor (levels : Nat)
  | root
  | context
  deriving DecidableEq, Repr, Inhabited

/-- A pointer to a value. -/
structure Reference where
  /-- The text it was read from. -/
  key : String
  path : List String
  target : Target
  separator : Char := '.'
  /-- Whether the level was set apart from the key. -/
  levelSet : Bool := false
  /-- Whether an array or object stands for all its members. -/
  inValues : Bool := false
  /-- Results replaced by others. -/
  table : List (Value × Value) := []
  /-- The name of a function applied to the result first. -/
  adjuster : Option String := none
  deriving Inhabited, Repr

/-- What can be seen from a place of the input: its position, the preferences there, and the
functions by which references adjust what they find. -/
structure Scope where
  position : Position
  prefs : Preferences
  adjust : String → Option (Value → Value)

namespace Reference

/-- The target and the rest of a key. Without a mark, so many leading separators lead up one level
less, and none at all leads to the parent. -/
def readTarget (separator : Char) : List Char → Target × List Char
  | '$' :: rest => (.context, rest)
  | '/' :: rest => (.root, rest)
  | cs =>
    let leading := (cs.takeWhile (· == separator)).length
    (.ancestor (if leading = 0 then 1 else leading - 1), cs.drop leading)

/-- The reference written by a key whose steps are parted by `separator`. -/
def ofKey (key : String) (separator : Char := '.') : Reference :=
  let (target, rest) := readTarget separator key.toList
  let path := if rest.isEmpty then [] else Text.splitOn separator (String.ofList rest)
  { key, path, target, separator }

/-- The reference to `levels` up; a reference to the root or the context stays. -/
def withLevel (r : Reference) (levels : Nat) : Reference :=
  match r.target with
  | .ancestor _ => { r with target := .ancestor levels, levelSet := true }
  | _ => r

/-- The level, where it was set apart from the key. -/
def setLevel? (r : Reference) : Option Nat :=
  match r.target with
  | .ancestor levels => if r.levelSet then some levels else none
  | _ => none

def isContext (r : Reference) : Bool := decide (r.target = .context)

def display (r : Reference) : String := "ref:" ++ r.key

/-- The first step of the path, for a reference that starts `levels` up. -/
def firstStepAt? (r : Reference) (levels : Nat) : Option String :=
  if r.target = .ancestor levels then r.path.head? else none

/-- The value that the reference starts from. -/
def start (r : Reference) (value : Value) (scope : Scope) : Value :=
  match r.target with
  | .context => scope.prefs.context
  | .root => scope.position.rootValue?.getD value
  | .ancestor 0 => value
  | .ancestor (n + 1) => (scope.position.ancestor? n).getD .undefined

/-- The found value adjusted, and then replaced if the table lists it. -/
def finish (r : Reference) (scope : Scope) (found : Value) : Value :=
  let adjusted :=
    match r.adjuster.bind scope.adjust with
    | some f => f found
    | none => found
  match r.table.find? fun entry => entry.1.same adjusted with
  | some (_, replacement) => replacement
  | none => adjusted

/-- The value that the reference points at, seen from `value`. -/
def resolve (r : Reference) (value : Value) (scope : Scope) : Value :=
  r.finish scope ((r.start value scope).reach r.path)

/-- The values that the reference stands for: its members if it is one to all members. -/
def resolveAll (r : Reference) (value : Value) (scope : Scope) : List Value :=
  match r.resolve value scope, r.inValues with
  | .array items, true => items
  | .object members, true => Members.values members
  | found, _ => [found]

end Reference

end Conform
