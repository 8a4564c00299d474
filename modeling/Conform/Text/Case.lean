import Conform.Text.CaseTable

/-!
# Letter case

Full case mapping of texts, where one letter may become several and a sigma at the end of a word
has a form of its own, and the simple folding that compares letters one by one.
-/

namespace Conform.Text

/-- The image of `c` under the runs of a case mapping. -/
def mapByRuns (runs : Array (Nat × Nat × Nat × Int)) (c : Char) : Char :=
  let n := c.toNat
  match runs.find? (fun (first, last, step, _) =>
      decide (first ≤ n) && decide (n ≤ last) && (n - first) % step == 0) with
  | some (_, _, _, difference) => Char.ofNat ((n : Int) + difference).toNat
  | none => c

/-- The upper case of one character. -/
def upperChar (c : Char) : List Char :=
  if c.toNat < 128 then [c.toUpper]
  else
    match upperExpansions.lookup c.toNat with
    | some codes => codes.map Char.ofNat
    | none => [mapByRuns upperRuns c]

/-- Whether the first character that case rules do not look through has case. -/
def meetsCased (cs : List Char) : Bool :=
  match cs.dropWhile (inTurns caseIgnorableTurns) with
  | c :: _ => inTurns casedTurns c
  | [] => false

/-- The lower case of one character between the characters before it, nearest first, and after
it. -/
def lowerChar (before : List Char) (c : Char) (after : List Char) : List Char :=
  if c.toNat < 128 then [c.toLower]
  else if c = 'İ' then ['i', '\u0307']
  else if c = 'Σ' then (if meetsCased before && !meetsCased after then ['ς'] else ['σ'])
  else [mapByRuns lowerRuns c]

/-- Lower case of the rest of a text, given what came before it, nearest first. -/
def lowerFrom (before : List Char) : List Char → List Char
  | [] => []
  | c :: after => lowerChar before c after ++ lowerFrom (c :: before) after

/-- The text in upper case. -/
def upper (s : String) : String := String.ofList (s.toList.flatMap upperChar)

/-- The text in lower case. -/
def lower (s : String) : String := String.ofList (lowerFrom [] s.toList)

/-- The representative of the letters that differ from `c` in case alone. -/
def fold (c : Char) : Char :=
  if c.toNat < 128 then c.toLower else mapByRuns foldRuns c

/-- All letters that differ from `c` in case alone, `c` included. -/
def foldMates (c : Char) : List Char :=
  let target := fold c
  target :: foldRuns.toList.filterMap fun (first, last, step, difference) =>
    let n := ((target.toNat : Int) - difference).toNat
    if first ≤ n ∧ n ≤ last ∧ (n - first) % step = 0 ∧ (n : Int) + difference = target.toNat then
      some (Char.ofNat n)
    else none

end Conform.Text
