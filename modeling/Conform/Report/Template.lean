import Conform.Value.Basic
import Conform.Text.Blank

/-!
# Message templates

A template is text with named places, each between double braces. It is read once into its pieces,
and the pieces are filled from a context of values; what a value says is never read as a template
again.
-/

namespace Conform

/-- A piece of a template. -/
inductive Piece
  | literal (text : String)
  /-- A place to be filled with the value of that name. -/
  | place (name : String)
  deriving DecidableEq, Repr

namespace Template

mutual
/-- The pieces of the rest of a template, after the literal characters `acc` in reverse. -/
def scanLiteral (acc : List Char) : List Char → List Piece
  | [] => [.literal (String.ofList acc.reverse)]
  | '{' :: '{' :: rest => scanPlace acc [] rest
  | c :: rest => scanLiteral (c :: acc) rest

/-- The pieces after an opening mark: `acc` is the literal before the mark and `name` what has been
read of the place, both in reverse. A mark that is never closed is literal text, and so is all
behind it. -/
def scanPlace (acc name : List Char) : List Char → List Piece
  | [] => [.literal (String.ofList (acc.reverse ++ '{' :: '{' :: name.reverse))]
  | '}' :: '}' :: rest =>
    .literal (String.ofList acc.reverse) ::
      .place (Text.trim (String.ofList name.reverse)) :: scanLiteral [] rest
  | c :: rest => scanPlace acc (c :: name) rest
end

/-- The pieces of a template. -/
def pieces (template : String) : List Piece := scanLiteral [] template.toList

/-- The text of a place: the label between quotes, the items of an array joined by commas, any other
value as it is shown, and nothing for an unknown name. -/
def fillPlace (context : List (String × Value)) (name : String) : String :=
  match Members.get? context name with
  | some (.string s) => if name = "label" then "\"" ++ s ++ "\"" else s
  | some (.array items) => ", ".intercalate (items.map Value.display)
  | some value => value.display
  | none => ""

/-- The text of a piece. -/
def fillPiece (context : List (String × Value)) : Piece → String
  | .literal text => text
  | .place name => fillPlace context name

/-- The text of some pieces. -/
def fill (context : List (String × Value)) (pieces : List Piece) : String :=
  String.join (pieces.map (fillPiece context))

/-- The template filled from a context. -/
def interpolate (template : String) (context : List (String × Value)) : String :=
  fill context (pieces template)

end Template

end Conform
