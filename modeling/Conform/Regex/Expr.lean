import Conform.Unicode.Derived

/-!
# Regular expressions

What expressions are, and the forms they are kept in. An expression is matched anywhere in a text,
and of several matches at one place the first in the order of preference counts: the left
alternative, and the longer or the shorter repetition as the expression says.

The constructors of sequences, alternatives and repetitions below simplify what they build, and no
text that matched stops matching. Lifting what all alternatives begin with may change which match
is preferred: `a*a|a*b` becomes `a*[ab]`, and of `aab` it then takes all and not `aa`.
-/

namespace Conform.Regex

/-- Which characters count as parts of words. -/
inductive WordKind
  | unicode
  | ascii
  deriving DecidableEq, Repr, Inhabited

/-- The ASCII letters and digits and the underscore. -/
def asciiWord : CharSet := .decode "30-39 41-5A 5F 61-7A"

def WordKind.set : WordKind → CharSet
  | .unicode => Unicode.wordCharacters
  | .ascii => asciiWord

/-- A condition on a place in the text that takes no characters. -/
inductive Look
  | textStart
  | textEnd
  | lineStart
  | lineEnd
  /-- The start of a line where a carriage return, alone or before a line feed, ends lines too. -/
  | anyLineStart
  | anyLineEnd
  | wordBoundary (kind : WordKind)
  | noWordBoundary (kind : WordKind)
  | wordStart (kind : WordKind)
  | wordEnd (kind : WordKind)
  | wordStartHalf (kind : WordKind)
  | wordEndHalf (kind : WordKind)
  deriving DecidableEq, Repr, Inhabited

/-- Whether the condition holds between the character before and the one after a place. -/
def Look.holds (look : Look) (before after : Option Char) : Bool :=
  let inside (kind : WordKind) (c : Option Char) : Bool := (c.map kind.set.holds).getD false
  match look with
  | .textStart => before.isNone
  | .textEnd => after.isNone
  | .lineStart => before.isNone || before == some '\n'
  | .lineEnd => after.isNone || after == some '\n'
  | .anyLineStart =>
    before.isNone || before == some '\n' || (before == some '\r' && after != some '\n')
  | .anyLineEnd =>
    after.isNone || after == some '\r' || (after == some '\n' && before != some '\r')
  | .wordBoundary kind => inside kind before != inside kind after
  | .noWordBoundary kind => inside kind before == inside kind after
  | .wordStart kind => !inside kind before && inside kind after
  | .wordEnd kind => inside kind before && !inside kind after
  | .wordStartHalf kind => !inside kind before
  | .wordEndHalf kind => !inside kind after

/-- An expression. Sequences and alternatives lean to the right. -/
inductive Expr
  | empty
  | literal (text : List Char)
  | set (members : CharSet)
  | look (condition : Look)
  | seq (a b : Expr)
  | alt (a b : Expr)
  /-- At least `least` times, at most `most` times when that is given, as often as possible if
  greedy. -/
  | rep (e : Expr) (least : Nat) (most : Option Nat) (greedy : Bool)
  | group (index : Nat) (e : Expr)
  deriving DecidableEq, Repr, Inhabited

namespace Expr

/-! ### What an expression takes -/

/-- The length of the shortest match; not told where some part matches nothing at all. -/
def minLength : Expr → Option Nat
  | .empty => some 0
  | .literal text => some text.length
  | .set members => if members.isEmpty then none else some 1
  | .look _ => some 0
  | .seq a b => do return (← a.minLength) + (← b.minLength)
  | .alt a b => do return min (← a.minLength) (← b.minLength)
  | .rep e least _ _ => e.minLength.map (· * least)
  | .group _ e => e.minLength

/-- Whether every match takes at least one character. -/
def consumes (e : Expr) : Bool := decide (0 < e.minLength.getD 0)

/-- Whether no match takes a character. -/
def isHollow : Expr → Bool
  | .empty => true
  | .literal text => text.isEmpty
  | .set _ => false
  | .look _ => true
  | .seq a b => a.isHollow && b.isHollow
  | .alt a b => a.isHollow && b.isHollow
  | .rep e _ most _ => e.isHollow && most.isSome
  | .group _ e => e.isHollow

/-- Whether every match begins where the text does. -/
def isAtStart : Expr → Bool
  | .look .textStart => true
  | .seq a b => a.isAtStart || (a.isHollow && b.isAtStart)
  | .alt a b => a.isAtStart && b.isAtStart
  | .rep e least _ _ => least != 0 && e.isAtStart
  | .group _ e => e.isAtStart
  | _ => false

/-- Whether every match ends where the text does. -/
def isAtEnd : Expr → Bool
  | .look .textEnd => true
  | .seq a b => b.isAtEnd || (b.isHollow && a.isAtEnd)
  | .alt a b => a.isAtEnd && b.isAtEnd
  | .rep e least _ _ => least != 0 && e.isAtEnd
  | .group _ e => e.isAtEnd
  | _ => false

/-! ### Building expressions -/

/-- One character of a set. -/
def ofSet (s : CharSet) : Expr :=
  match s.only? with
  | some c => .literal [c]
  | none => .set s

/-- A repetition. What takes no characters is repeated once at most. -/
def repeated (e : Expr) (least : Nat) (most : Option Nat) (greedy : Bool) : Expr :=
  let (least, most) :=
    if e.isHollow then (min least 1, some (min (most.getD 1) 1)) else (least, most)
  if most = some 0 then .empty
  else if least = 1 ∧ most = some 1 then e
  else .rep e least most greedy

/-- The parts of a sequence. -/
def factors : Expr → List Expr
  | .empty => []
  | .seq a b => a :: b.factors
  | e => [e]

/-- The parts of alternatives. -/
def branches : Expr → List Expr
  | .alt a b => a :: b.branches
  | e => [e]

/-- A part in front of a sequence; literals run together. -/
def prepend (e : Expr) (es : List Expr) : List Expr :=
  match e, es with
  | .literal s, .literal t :: rest => .literal (s ++ t) :: rest
  | e, rest => e :: rest

/-- The parts as a sequence, as they are. -/
def ofFactors : List Expr → Expr
  | [] => .empty
  | [e] => e
  | e :: rest => .seq e (ofFactors rest)

/-- The expressions one after another. -/
def sequence (es : List Expr) : Expr := ofFactors ((es.flatMap factors).foldr prepend [])

/-- The parts as alternatives, as they are. -/
def ofBranches : List Expr → Expr
  | [] => .set .empty
  | [e] => e
  | e :: rest => .alt e (ofBranches rest)

/-- The character of a literal of one character. -/
def letter? : Expr → Option Char
  | .literal [c] => some c
  | _ => none

/-- The members of a set of characters. -/
def members? : Expr → Option CharSet
  | .set s => some s
  | _ => none

/-- The parts of a sequence of two or more. -/
def sequence? (e : Expr) : Option (List Expr) :=
  match e with
  | .seq _ _ => some e.factors
  | _ => none

/-- What two lists begin with alike. -/
def commonFront : List Expr → List Expr → List Expr
  | a :: as, b :: bs => if a = b then a :: commonFront as bs else []
  | _, _ => []

/-- The front that all the sequences share. -/
def sharedFront : List (List Expr) → List Expr
  | [] => []
  | first :: rest => rest.foldl commonFront first

/-- The expressions as alternatives, the first preferred. Alternatives that are characters make a
set, and what all begin with stands in front of them once. Each lifting shortens the alternatives,
so it ends after no more of them than there are parts. -/
def choiceWithin (fuel : Nat) (es : List Expr) : Expr :=
  let es := es.flatMap branches
  match fuel, es with
  | _, [] => ofBranches []
  | _, [e] => e
  | 0, es => ofBranches es
  | fuel + 1, es =>
    match es.mapM letter?, es.mapM members?, es.mapM sequence? with
    | some letters, _, _ => ofSet (.ofCodes (letters.map Char.toNat))
    | none, some sets, _ => ofSet (.unions sets)
    | none, none, some sequences =>
      match sharedFront sequences with
      | [] => ofBranches es
      | front =>
        let rests := sequences.map fun factors => sequence (factors.drop front.length)
        sequence (front ++ [choiceWithin fuel rests])
    | none, none, none => ofBranches es

/-- How many parts an expression is made of. -/
def size : Expr → Nat
  | .seq a b => a.size + b.size + 1
  | .alt a b => a.size + b.size + 1
  | .rep e _ _ _ => e.size + 1
  | .group _ e => e.size + 1
  | _ => 1

/-- The expressions as alternatives, the first preferred. -/
def choice (es : List Expr) : Expr := choiceWithin (es.foldl (fun n e => n + e.size) 1) es

end Expr

end Conform.Regex
