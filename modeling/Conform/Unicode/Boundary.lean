import Conform.Unicode.Derived
import Conform.Unicode.Script

/-!
# Classes of boundaries

The classes that characters have in finding the boundaries of graphemes, words and sentences. In
each of the three, a character has at most one class.
-/

namespace Conform.Unicode

/-- Syllables of Hangul without a final consonant: every twenty-eighth one. -/
def openSyllables : CharSet := .ofCodes ((List.range 399).map (0xac00 + 28 * ·))

def syllables : CharSet := .range 0xac00 0xd7a3

/-- The joiner, which has a class of its own in graphemes and words. -/
def joiner : CharSet := .range 0x200d 0x200d

/-- What extends the grapheme before it. -/
def graphemeExtenders : CharSet := (graphemeExtend.union emojiModifiers).diff joiner

/-- A class of graphemes, by one of its names. -/
def graphemeClass? (name : String) : Option CharSet :=
  match name with
  | "cr" => some (.single '\r')
  | "lf" => some (.single '\n')
  | "cn" | "control" =>
    some (((Category.sets [.zl, .zp, .cc, .cf]).union (unassigned.inter defaultIgnorable)).diff
      (.unions [.decode "A D 200C-200D", prependedMarks, graphemeExtenders]))
  | "ex" | "extend" => some graphemeExtenders
  | "zwj" => some joiner
  | "ri" | "regionalindicator" => some regionalIndicators
  | "pp" | "prepend" =>
    some (prependedMarks.union
      (.decode "D4E 111C2-111C3 113D1 1193F 11941 11A3A 11A84-11A89 11D46 11F02"))
  | "sm" | "spacingmark" =>
    some ((Category.mc.set.union (.decode "E33 EB3")).diff
      (.union graphemeExtenders
        (.decode "102B-102C 1038 1062-1064 1067-106D 1083 1087-108C 108F 109A-109C 1A61 1A63-1A64
          AA7B AA7D 11720-11721")))
  | "l" => some (.decode "1100-115F A960-A97C")
  | "v" => some (.decode "1160-11A7 D7B0-D7C6 16D63 16D67-16D6A")
  | "t" => some (.decode "11A8-11FF D7CB-D7FB")
  | "lv" => some openSyllables
  | "lvt" => some (syllables.diff openSyllables)
  | _ => none

/-! ### Sentences -/

def sentenceExtenders : CharSet :=
  .unions [graphemeExtend, Category.mc.set, joiner]

/-- Small letters, but for Georgian ones, which have no case in sentences. -/
def sentenceLower : CharSet :=
  (lowercase.diff graphemeExtend).diff (.decode "10D0-10FA 10FD-10FF")

def sentenceUpper : CharSet :=
  (Category.lt.set.union uppercase).diff (.decode "1C90-1CBA 1CBD-1CBF")

def fullStops : CharSet := .decode "2E 2024 FE52 FF0E"

/-- A class of sentences, by one of its names. -/
def sentenceClass? (name : String) : Option CharSet :=
  match name with
  | "cr" => some (.single '\r')
  | "lf" => some (.single '\n')
  | "ex" | "extend" => some sentenceExtenders
  | "se" | "sep" => some (.decode "85 2028-2029")
  | "fo" | "format" => some (Category.cf.set.diff (sentenceExtenders.union prependedMarks))
  | "sp" => some (whiteSpace.diff (.decode "A D 85 2028-2029"))
  | "lo" | "lower" => some sentenceLower
  | "up" | "upper" => some sentenceUpper
  | "le" | "oletter" =>
    some ((alphabetic.union (.decode "5F3")).diff
      (.unions [sentenceLower, sentenceUpper, sentenceExtenders]))
  | "nu" | "numeric" => some (.unions [decimalDigits, .decode "66B-66C", prependedMarks])
  | "at" | "aterm" => some fullStops
  | "sc" | "scontinue" =>
    some (.decode "2C-2D 3A-3B 37E 55D 60C-60D 7F8 1802 1808 2013-2014 3001 FE10-FE11 FE13-FE14
      FE31-FE32 FE50-FE51 FE54-FE55 FE58 FE63 FF0C-FF0D FF1A-FF1B FF64")
  | "st" | "sterm" => some (sentenceTerminals.diff fullStops)
  | "cl" | "close" =>
    some (((Category.sets [.ps, .pe, .pi, .pf]).union
      (.decode "22 27 275B-2760 2E00-2E01 2E06-2E08 2E0B 1F676-1F678")).diff
        (fullStops.union sentenceTerminals))
  | _ => none

/-! ### Words -/

def wordExtenders : CharSet :=
  (CharSet.unions [graphemeExtend, Category.mc.set, emojiModifiers]).diff joiner

/-- The characters of a script with that code. -/
def scriptSet (code : String) : CharSet :=
  match Script.ofName? code with
  | some script => script.set
  | none => .empty

/-- Scripts written without spaces, whose words take a dictionary to find. -/
def unspaced : CharSet :=
  .unions (["thai", "laoo", "mymr", "khmr", "tale", "talu", "lana", "tavt", "ahom"].map scriptSet)

def katakana : CharSet :=
  (scriptSet "kana").union (.decode "3031-3035 309B-309C 30A0 30FC FF70")

def hebrewLetters : CharSet := Category.lo.set.inter (scriptSet "hebr")

/-- The digits of words, with the signs before numbers. -/
def wordNumbers : CharSet :=
  (CharSet.unions [decimalDigits, prependedMarks, .decode "66B"]).diff (.decode "70F")

/-- Letters of alphabets, with signs that count as such. -/
def wordLetters : CharSet :=
  (alphabetic.union (.decode "2C2-2C5 2D2-2D7 2DE-2DF 2E5-2EB 2ED 2EF-2FF 55A-55C 55E 58A 5F3 70F
    A708-A716 A720-A721 A789-A78A AB5B")).diff
    (.unions [ideographic, katakana, unspaced, scriptSet "hira", wordExtenders, hebrewLetters,
      wordNumbers])

/-- A class of words, by one of its names. -/
def wordClass? (name : String) : Option CharSet :=
  match name with
  | "cr" => some (.single '\r')
  | "lf" => some (.single '\n')
  | "dq" | "doublequote" => some (.single '"')
  | "sq" | "singlequote" => some (.single '\'')
  | "nl" | "newline" => some (.decode "B-C 85 2028-2029")
  | "extend" => some wordExtenders
  | "zwj" => some joiner
  | "ri" | "regionalindicator" => some regionalIndicators
  | "fo" | "format" =>
    some (Category.cf.set.diff (.unions [.decode "200B-200D", wordExtenders, prependedMarks]))
  | "ka" | "katakana" => some katakana
  | "hl" | "hebrewletter" => some hebrewLetters
  | "le" | "aletter" => some wordLetters
  | "ml" | "midletter" => some (.decode "3A B7 387 55F 5F4 2027 FE13 FE55 FF1A")
  | "mn" | "midnum" =>
    some (.decode "2C 3B 37E 589 60C-60D 66C 7F8 2044 FE10 FE14 FE50 FE54 FF0C FF1B")
  | "mb" | "midnumlet" => some (.decode "2E 2018-2019 2024 FE52 FF07 FF0E")
  | "nu" | "numeric" => some wordNumbers
  | "ex" | "extendnumlet" => some (Category.pc.set.union (.decode "202F"))
  | "wsegspace" => some (Category.zs.set.diff (.decode "A0 2007 202F"))
  | _ => none

end Conform.Unicode
