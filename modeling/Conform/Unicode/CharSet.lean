import Conform.Bytes.Hex
import Conform.Text.Turns

/-!
# Sets of characters

A set of characters is kept by its turning points, so that the operations on sets are one sweep over
two ascending lists. Equal sets have equal turning points.
-/

namespace Conform

/-- A set of characters by its turning points, ascending: a code point is a member exactly when an
odd number of them are at or below it. -/
structure CharSet where
  turns : Array Nat
  deriving DecidableEq, Repr, Inhabited

namespace CharSet

def empty : CharSet := ⟨#[]⟩

def full : CharSet := ⟨#[0]⟩

/-- The last code point. -/
def lastCode : Nat := 0x10ffff

/-- The code points from `first` to `last`. -/
def range (first last : Nat) : CharSet :=
  if last < first then empty else if last < lastCode then ⟨#[first, last + 1]⟩ else ⟨#[first]⟩

def single (c : Char) : CharSet := range c.toNat c.toNat

def isEmpty (s : CharSet) : Bool := s.turns.isEmpty

/-- Whether a code point is a member. -/
def hasCode (s : CharSet) (code : Nat) : Bool :=
  Text.countUpTo s.turns code 0 s.turns.size % 2 == 1

/-- Whether a character is a member. -/
def holds (s : CharSet) (c : Char) : Bool := s.hasCode c.toNat

/-! ### Operations -/

/-- The turning points of what `op` makes of two sets, behind a place that `inA` and `inB` tell to
be in the one and in the other. -/
def sweep (op : Bool → Bool → Bool) (inA inB : Bool) (a b : List Nat) : List Nat :=
  let turn (x : Nat) (inA' inB' : Bool) (rest : List Nat) : List Nat :=
    if op inA' inB' = op inA inB then rest else x :: rest
  match a, b with
  | [], [] => []
  | x :: a, [] => turn x (!inA) inB (sweep op (!inA) inB a [])
  | [], y :: b => turn y inA (!inB) (sweep op inA (!inB) [] b)
  | x :: a, y :: b =>
    if x < y then turn x (!inA) inB (sweep op (!inA) inB a (y :: b))
    else if y < x then turn y inA (!inB) (sweep op inA (!inB) (x :: a) b)
    else turn x (!inA) (!inB) (sweep op (!inA) (!inB) a b)
  termination_by a.length + b.length

/-- The set of the code points for which `op` holds of their membership in the two sets; it does not
hold of those in neither. -/
def combine (op : Bool → Bool → Bool) (a b : CharSet) : CharSet :=
  ⟨(sweep op false false a.turns.toList b.turns.toList).toArray⟩

def union (a b : CharSet) : CharSet := combine (· || ·) a b

def inter (a b : CharSet) : CharSet := combine (· && ·) a b

def diff (a b : CharSet) : CharSet := combine (fun inA inB => inA && !inB) a b

def symmDiff (a b : CharSet) : CharSet := combine (· != ·) a b

def complement (s : CharSet) : CharSet :=
  match s.turns.toList with
  | 0 :: rest => ⟨rest.toArray⟩
  | turns => ⟨(0 :: turns).toArray⟩

/-- The unions of each two neighbours. -/
def unionPairs : List CharSet → List CharSet
  | a :: b :: rest => a.union b :: unionPairs rest
  | rest => rest

theorem length_unionPairs_le (sets : List CharSet) : (unionPairs sets).length ≤ sets.length := by
  fun_induction unionPairs sets with
  | case1 a b rest ih => simp only [List.length_cons]; omega
  | case2 rest => exact Nat.le_refl _

/-- The union of some sets. -/
def unions (sets : List CharSet) : CharSet :=
  match sets with
  | [] => empty
  | [s] => s
  | a :: b :: rest => unions (a.union b :: unionPairs rest)
  termination_by sets.length
  decreasing_by
    have := length_unionPairs_le rest
    simp only [List.length_cons]
    omega

/-- The set of some code points. -/
def ofCodes (codes : List Nat) : CharSet := unions (codes.map fun code => range code code)

/-! ### Members -/

/-- The ranges between turning points. -/
def rangesOf : List Nat → List (Nat × Nat)
  | first :: next :: rest => (first, next - 1) :: rangesOf rest
  | [first] => [(first, lastCode)]
  | [] => []

/-- The ranges of members, ascending, as first and last code points. -/
def ranges (s : CharSet) : List (Nat × Nat) := rangesOf s.turns.toList

/-- Whether all members are ASCII. -/
def isAscii (s : CharSet) : Bool := s.ranges.all fun (_, last) => decide (last < 0x80)

/-- The only member, if there is just one. -/
def only? (s : CharSet) : Option Char :=
  match s.ranges with
  | [(first, last)] => if first = last then some (Char.ofNat first) else none
  | _ => none

/-! ### Sets as text -/

/-- How far the reading of a set has come: the turning points so far, the code before a hyphen, and
the code being read. -/
structure Decoding where
  turns : Array Nat := #[]
  first : Option Nat := none
  code : Option Nat := none

/-- The end of a code or a range. -/
def Decoding.close (d : Decoding) : Decoding :=
  match d.code with
  | some last => { turns := d.turns ++ (range (d.first.getD last) last).turns }
  | none => d

/-- One more character of the text. -/
def Decoding.step (d : Decoding) (c : Char) : Decoding :=
  match c, Bytes.hexValue? c with
  | '-', _ => { d with first := d.code, code := none }
  | _, some digit => { d with code := some (16 * d.code.getD 0 + digit) }
  | _, none => d.close

/-- The set written by ascending codes and ranges of codes in hexadecimal, as in `41-5A 5F`. -/
def decode (text : String) : CharSet := ⟨(text.toList.foldl Decoding.step {}).close.turns⟩

end CharSet

end Conform
