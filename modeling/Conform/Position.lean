import Conform.Value.Basic

/-!
# Positions

Where in the input the value under validation stands: the path from the root to it, and the values
around it. Both are plain data, so a report made at a position cannot change with the input.
-/

namespace Conform

/-- One step of a path. -/
inductive Segment
  | key (name : String)
  | index (i : Nat)
  deriving DecidableEq, Repr, Inhabited

namespace Segment

def text : Segment → String
  | .key name => name
  | .index i => toString i

def toValue : Segment → Value
  | .key name => .string name
  | .index i => .ofNat i

def toJson : Segment → Json
  | .key name => .string name
  | .index i => .int i

end Segment

/-- A path as labels show it, its steps joined by points. -/
def pathText (path : List Segment) : String := ".".intercalate (path.map Segment.text)

/-- The position of a value. -/
structure Position where
  /-- The steps from the root, outermost first. -/
  path : List Segment := []
  /-- The enclosing values, nearest first. -/
  ancestors : List Value := []
  deriving Inhabited, Repr

namespace Position

def root : Position := {}

/-- One step down into `parent`. -/
def nest (p : Position) (segment : Segment) (parent : Value) : Position :=
  ⟨p.path ++ [segment], parent :: p.ancestors⟩

/-- The same surroundings under another path. -/
def localize (p : Position) (path : List Segment) : Position := { p with path }

/-- The last step; none at the root. -/
def key? (p : Position) : Option Segment := p.path.getLast?

def depth (p : Position) : Nat := p.path.length

/-- The enclosing value `n` levels above the parent. -/
def ancestor? (p : Position) (n : Nat) : Option Value := p.ancestors[n]?

/-- The outermost value; none when the value stands alone. -/
def rootValue? (p : Position) : Option Value := p.ancestors.getLast?

/-- What messages call the value when its schema gives no label. -/
def label (p : Position) : String := if p.path.isEmpty then "value" else pathText p.path

end Position

end Conform
