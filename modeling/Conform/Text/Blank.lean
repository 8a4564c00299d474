import Conform.Text.Turns

/-!
# White space

The characters with the property White_Space, and texts without them at their ends.
-/

namespace Conform.Text

/-- Turning points of White_Space. -/
def blankTurns : Array Nat :=
  #[
    0x9, 0xe, 0x20, 0x21, 0x85, 0x86, 0xa0, 0xa1, 0x1680, 0x1681, 0x2000, 0x200b, 0x2028, 0x202a,
    0x202f, 0x2030, 0x205f, 0x2060, 0x3000, 0x3001]

/-- White space, as trimming and blank classes see it. -/
def isBlank (c : Char) : Bool := inTurns blankTurns c

/-- The text without leading and trailing white space. -/
def trimBlank (cs : List Char) : List Char :=
  ((cs.dropWhile isBlank).reverse.dropWhile isBlank).reverse

/-- The text without leading and trailing white space. -/
def trim (s : String) : String := String.ofList (trimBlank s.toList)

end Conform.Text
