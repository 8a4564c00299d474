import Conform.Unicode.Age
import Conform.Unicode.Boundary

/-!
# Asking for characters by property

A set of characters is asked for by the name of a property that characters have or not, of a
category or of a script, or by a property and one of its values. Case, spaces, hyphens and
underscores in names do not count, nor does a leading "is".
-/

namespace Conform.Unicode

/-- A name without what does not count in it. Only ASCII characters count. The one name that is not
itself without its "is" keeps it. -/
def plainName (name : String) : String :=
  let isPrefixed := match name.toList with
    | first :: second :: _ => first.toLower == 'i' && second.toLower == 's'
    | _ => false
  let kept := (name.toList.drop (if isPrefixed then 2 else 0)).filter fun c =>
    decide (c.toNat < 128) && c != ' ' && c != '_' && c != '-'
  if isPrefixed && kept.map Char.toLower == ['c'] then "isc"
  else String.ofList (kept.map Char.toLower)

/-- The properties that characters have or not, with their names. -/
def properties : List (List String × CharSet) :=
  [(["ahex", "asciihexdigit"], asciiHexDigits), (["alpha", "alphabetic"], alphabetic),
   (["bidic", "bidicontrol"], bidiControls), (["bidim", "bidimirrored"], bidiMirrored),
   (["ci", "caseignorable"], caseIgnorable), (["cased"], cased),
   (["cwcf", "changeswhencasefolded"], changesWhenCasefolded),
   (["cwcm", "changeswhencasemapped"], changesWhenCasemapped),
   (["cwl", "changeswhenlowercased"], changesWhenLowercased),
   (["cwt", "changeswhentitlecased"], changesWhenTitlecased),
   (["cwu", "changeswhenuppercased"], changesWhenUppercased), (["dash"], dashes),
   (["dep", "deprecated"], deprecated), (["dia", "diacritic"], diacritics),
   (["di", "defaultignorablecodepoint"], defaultIgnorable), (["emoji"], emoji),
   (["ecomp", "emojicomponent"], emojiComponents), (["emod", "emojimodifier"], emojiModifiers),
   (["ebase", "emojimodifierbase"], emojiModifierBases),
   (["epres", "emojipresentation"], emojiPresentation),
   (["extpict", "extendedpictographic"], extendedPictographic), (["ext", "extender"], extenders),
   (["grbase", "graphemebase"], graphemeBase), (["grext", "graphemeextend"], graphemeExtend),
   (["grlink", "graphemelink"], graphemeLinks), (["hex", "hexdigit"], hexDigits),
   (["hyphen"], hyphens), (["idsb", "idsbinaryoperator"], binaryOperators),
   (["idst", "idstrinaryoperator"], ternaryOperators),
   (["idsu", "idsunaryoperator"], unaryOperators),
   (["idcompatmathcontinue"], compatMathContinue), (["idcompatmathstart"], compatMathStart),
   (["idc", "idcontinue"], idContinue), (["ids", "idstart"], idStart),
   (["ideo", "ideographic"], ideographic), (["joinc", "joincontrol"], joinControls),
   (["loe", "logicalorderexception"], logicalOrderExceptions), (["lower", "lowercase"], lowercase),
   (["math"], mathematical), (["mcm", "modifiercombiningmark"], modifierCombiningMarks),
   (["nchar", "noncharactercodepoint"], noncharacters),
   (["oalpha", "otheralphabetic"], otherAlphabetic),
   (["odi", "otherdefaultignorablecodepoint"], otherDefaultIgnorable),
   (["ogrext", "othergraphemeextend"], otherGraphemeExtend),
   (["oidc", "otheridcontinue"], otherIdContinue), (["oids", "otheridstart"], otherIdStart),
   (["olower", "otherlowercase"], otherLowercase), (["omath", "othermath"], otherMath),
   (["oupper", "otheruppercase"], otherUppercase), (["patsyn", "patternsyntax"], patternSyntax),
   (["patws", "patternwhitespace"], patternWhiteSpace),
   (["pcm", "prependedconcatenationmark"], prependedMarks),
   (["qmark", "quotationmark"], quotationMarks), (["radical"], radicals),
   (["ri", "regionalindicator"], regionalIndicators),
   (["sterm", "sentenceterminal"], sentenceTerminals), (["sd", "softdotted"], softDotted),
   (["term", "terminalpunctuation"], terminalPunctuation),
   (["uideo", "unifiedideograph"], unifiedIdeographs), (["upper", "uppercase"], uppercase),
   (["vs", "variationselector"], variationSelectors),
   (["wspace", "whitespace", "space"], whiteSpace), (["xidc", "xidcontinue"], xidContinue),
   (["xids", "xidstart"], xidStart)]

/-- The characters with a property of that name. -/
def property? (name : String) : Option CharSet :=
  (properties.find? fun (names, _) => names.contains name).map (·.2)

/-- The characters that a name stands for: a property, else a category, else a script. -/
def named? (name : String) : Option CharSet :=
  let name := plainName name
  property? name <|> categorySet? name <|> (Script.ofName? name).map Script.set

/-- The characters for which a property has a value. -/
def valued? (property value : String) : Option CharSet :=
  let value := plainName value
  match plainName property with
  | "gc" | "generalcategory" => categorySet? value
  | "sc" | "script" => (Script.ofName? value).map Script.set
  | "scx" | "scriptextensions" => (Script.ofName? value).map Script.extendedSet
  | "age" => Age.set? value
  | "gcb" | "graphemeclusterbreak" => graphemeClass? value
  | "sb" | "sentencebreak" => sentenceClass? value
  | "wb" | "wordbreak" => wordClass? value
  | _ => none

end Conform.Unicode
