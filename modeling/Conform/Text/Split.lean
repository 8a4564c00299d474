/-!
# Texts cut at a separator

`splitOn` cuts a text at every occurrence of one character; `k` occurrences give `k + 1` pieces.
-/

namespace Conform.Text

/-- The pieces between separators; at least one. -/
def splitChars (separator : Char) : List Char → List (List Char)
  | [] => [[]]
  | c :: rest =>
    if c = separator then [] :: splitChars separator rest
    else
      match splitChars separator rest with
      | [] => [[c]]
      | piece :: pieces => (c :: piece) :: pieces

def splitOn (separator : Char) (s : String) : List String :=
  (splitChars separator s.toList).map String.ofList

end Conform.Text
