import Conform.Text.Case
import Conform.Unicode.CharSet

/-!
# Sets closed under case

Which letters differ in case alone, and what a set becomes when case does not count. The pairs are
those of version 16.0 of the standard; texts are mapped by a later version, whose new pairs are left
out here.
-/

namespace Conform.Unicode

/-- Letters that got their counterpart after version 16.0. -/
def pairedLater : CharSet := .decode "A7CE-A7CF A7D2-A7D5 16EA0-16ED3"

/-- The letters that differ from `c` in case alone, `c` among them. -/
def caseMates (c : Char) : List Char := if pairedLater.holds c then [c] else Text.foldMates c

/-- All pairs of a letter and the one that stands for it when case does not count. -/
def foldPairs : List (Nat × Nat) :=
  Text.foldRuns.toList.flatMap fun (first, last, step, difference) =>
    (List.range ((last - first) / step + 1)).filterMap fun i =>
      let code := first + i * step
      if pairedLater.hasCode code then none else some (code, ((code : Int) + difference).toNat)

end Conform.Unicode

namespace Conform.CharSet

/-- The set with all letters that differ from a member in case alone. -/
def fold (s : CharSet) : CharSet :=
  let met := Unicode.foldPairs.filter fun (code, target) => s.hasCode code || s.hasCode target
  let targets := ofCodes (met.map (·.2))
  let sources := Unicode.foldPairs.filter fun (_, target) => targets.hasCode target
  unions [s, targets, ofCodes (sources.map (·.1))]

/-- The same for ASCII letters alone. -/
def foldAscii (s : CharSet) : CharSet :=
  let codes := (List.range 26).flatMap fun i =>
    if s.hasCode (0x41 + i) || s.hasCode (0x61 + i) then [0x41 + i, 0x61 + i] else []
  s.union (ofCodes codes)

end Conform.CharSet
