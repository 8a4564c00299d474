import Conform.Unicode.Category
import Conform.Unicode.Fold
import Conform.Unicode.Listed

/-!
# Derived properties

The properties of characters that the standard defines by categories, by listed properties, and by
what case mapping changes.
-/

namespace Conform.Unicode

def alphabetic : CharSet := .unions [letters, Category.nl.set, otherAlphabetic]

def lowercase : CharSet := Category.ll.set.union otherLowercase

def uppercase : CharSet := Category.lu.set.union otherUppercase

def cased : CharSet := .unions [lowercase, uppercase, Category.lt.set]

/-- Characters that case rules look through: marks, formats, and what may stand inside a word. -/
def caseIgnorable : CharSet :=
  .union (Category.sets [.mn, .me, .cf, .lm, .sk])
    (.decode "27 2E 3A B7 387 55F 5F4 2018-2019 2024 2027 FE13 FE52 FE55 FF07 FF0E FF1A")

def mathematical : CharSet := Category.sm.set.union otherMath

def graphemeExtend : CharSet := (Category.sets [.mn, .me]).union otherGraphemeExtend

def graphemeBase : CharSet :=
  (assigned.diff (Category.sets [.cc, .cf, .co, .zl, .zp])).diff graphemeExtend

def defaultIgnorable : CharSet :=
  (CharSet.unions [Category.cf.set, otherDefaultIgnorable, variationSelectors]).diff
    (.unions [whiteSpace, prependedMarks, .decode "FFF9-FFFB 13430-1343F"])

/-! ### Identifiers -/

/-- What the syntax of patterns keeps for itself. -/
def patternReserved : CharSet := patternSyntax.union patternWhiteSpace

def idStart : CharSet :=
  (CharSet.unions [letters, Category.nl.set, otherIdStart]).diff patternReserved

def idContinue : CharSet :=
  (CharSet.unions [idStart, Category.sets [.mn, .mc, .nd, .pc], otherIdContinue]).diff
    patternReserved

/-- Characters that compatibility normalisation takes out of identifiers. -/
def unstableIds : CharSet :=
  .decode "37A 309B-309C FC5E-FC63 FDFA-FDFB FE70 FE72 FE74 FE76 FE78 FE7A FE7C FE7E"

def xidStart : CharSet :=
  (idStart.diff unstableIds).diff (.decode "E33 EB3 FF9E-FF9F")

def xidContinue : CharSet := idContinue.diff unstableIds

/-! ### Case mapping -/

/-- The letters that the runs of a case mapping change. -/
def changedBy (runs : Array (Nat × Nat × Nat × Int)) : CharSet :=
  .unions <| runs.toList.map fun (first, last, step, _) =>
    if step = 1 then .range first last
    else .ofCodes ((List.range ((last - first) / step + 1)).map (first + · * step))

def changesWhenLowercased : CharSet :=
  ((changedBy Text.lowerRuns).union (.single 'İ')).diff pairedLater

def changesWhenUppercased : CharSet :=
  ((changedBy Text.upperRuns).union (.ofCodes (Text.upperExpansions.map (·.1)))).diff pairedLater

/-- Letters in title case stay, and so do Georgian ones. -/
def changesWhenTitlecased : CharSet :=
  let kept : CharSet :=
    .decode "1C5 1C8 1CB 1F2 10D0-10FA 10FD-10FF 1F88-1F8F 1F98-1F9F 1FA8-1FAF 1FBC 1FCC 1FFC"
  (changesWhenUppercased.diff kept).union (.decode "1C4 1C7 1CA 1F1")

/-- Besides what lower case changes: letters whose small form is not their folding. -/
def changesWhenCasefolded : CharSet :=
  (changesWhenLowercased.diff (.decode "13A0-13F5")).union
    (.decode "B5 DF 149 17F 345 3C2 3D0-3D1 3D5-3D6 3F0-3F1 3F5 587 13F8-13FD 1C80-1C88
      1E9A-1E9B 1F80-1F87 1F90-1F97 1FA0-1FA7 1FB2-1FB4 1FB7 1FC2-1FC4 1FC7 1FF2-1FF4 1FF7
      AB70-ABBF FB00-FB06 FB13-FB17")

def changesWhenCasemapped : CharSet :=
  .unions [changesWhenLowercased, changesWhenUppercased, changesWhenTitlecased]

/-! ### Words -/

/-- The decimal digits of all scripts. -/
def decimalDigits : CharSet := Category.nd.set

/-- What words consist of: letters, marks, decimal digits, connecting punctuation and joiners. -/
def wordCharacters : CharSet :=
  .unions [alphabetic, marks, decimalDigits, Category.pc.set, joinControls]

end Conform.Unicode
