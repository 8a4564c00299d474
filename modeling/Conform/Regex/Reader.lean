import Conform.Regex.Weight
import Conform.Text.Blank
import Conform.Text.Letter
import Conform.Unicode.Query

/-!
# Reading regular expressions

A recursive reader of the usual notation without look-around and back-references. Flags hold from
where they are set to the end of the group. The reader gives the expression and the names of its
groups, or nothing when the text is not an expression, nests too deep, or is too large.

In verbose mode blanks and comments do not count between the parts of an expression, and neither do
they inside of escapes by code, of repetitions by number, and of classes.
-/

namespace Conform.Regex

/-- The flags in force at a place of the pattern. -/
structure Flags where
  foldCase : Bool := false
  multiLine : Bool := false
  dotAll : Bool := false
  lazyByDefault : Bool := false
  unicode : Bool := true
  verbose : Bool := false
  crlf : Bool := false
  deriving Inhabited, DecidableEq

/-- What is left of the pattern, the flags, and the groups met so far. -/
structure Scan where
  rest : List Char
  flags : Flags := {}
  groups : Nat := 0
  names : List (String × Nat) := []
  deriving Inhabited

/-- A step of reading. -/
abbrev Reader := StateT Scan Option

/-- How deep groups, repetitions, sequences, alternatives and classes may stand inside one
another. -/
def nestingLimit : Nat := 250

/-- Drops a comment up to its line end. -/
def skipComment (cs : List Char) : List Char := (cs.dropWhile (· != '\n')).drop 1

/-- Drops blanks and comments, the pieces of which are at most `fuel`. -/
def skipBlanks : Nat → List Char → List Char
  | fuel + 1, '#' :: rest => skipBlanks fuel (skipComment rest)
  | fuel + 1, c :: rest => if Text.isBlank c then skipBlanks fuel rest else c :: rest
  | _, cs => cs

namespace Reader

/-- Refuses unless the condition holds. -/
def require (condition : Bool) : Reader Unit := if condition then pure () else failure

/-- The next character. -/
def next? : Reader (Option Char) := return (← get).rest.head?

def flags : Reader Flags := return (← get).flags

/-- Drops some characters. -/
def drop (count : Nat) : Reader Unit := modify fun s => { s with rest := s.rest.drop count }

/-- Drops what does not count in verbose mode. -/
def skip : Reader Unit :=
  modify fun s =>
    if s.flags.verbose then { s with rest := skipBlanks s.rest.length s.rest } else s

/-- Drops one character and what does not count after it. -/
def pass : Reader Unit := do drop 1; skip

/-- The same where the pattern must go on. -/
def passOn : Reader Char := do
  pass
  match ← next? with
  | some c => return c
  | none => failure

/-- Drops one character, which must be `c`, and what does not count after it. -/
def passOver (c : Char) : Reader Unit := do
  require ((← next?) == some c)
  pass

/-- Drops a beginning if it is there. -/
def dropIf (start : String) : Reader Bool := do
  let found := start.toList.isPrefixOf (← get).rest
  if found then drop start.length
  return found

/-- The characters that fit, with what does not count between them. -/
def takeWithin (fits : Char → Bool) : Nat → Reader (List Char)
  | 0 => return []
  | fuel + 1 => do
    match ← next? with
    | some c =>
      if fits c then
        pass
        return c :: (← takeWithin fits fuel)
      else return []
    | none => return []

def take (fits : Char → Bool) : Reader (List Char) := do takeWithin fits (← get).rest.length

/-- Whether the rest begins with `a` or `b`, blanks and comments skipped, where `afterSharp` tells
that a number sign was met. A number sign does not count, and what follows it does. -/
def meets (afterSharp : Bool) : List Char → Option Char
  | [] => none
  | c :: rest =>
    if Text.isBlank c then meets afterSharp rest
    else if c = '#' && !afterSharp then meets true rest
    else some c

/-- What stands behind the next character, looking over what does not count. -/
def second? : Reader (Option Char) := do
  let rest := (← get).rest.drop 1
  if (← flags).verbose then return meets false rest <|> rest.head? else return rest.head?

/-! ### Numbers and codes -/

/-- The number written by digits in a base. -/
def numberOf (base : Nat) (digits : List Char) : Nat :=
  digits.foldl (fun acc c => acc * base + (Bytes.hexValue? c).getD 0) 0

/-- A decimal number of 32 bits with blanks around it. -/
def decimal : Reader Nat := do
  modify fun s => { s with rest := s.rest.dropWhile Text.isBlank }
  let digits ← take Char.isDigit
  let _ ← take Text.isBlank
  let n := numberOf 10 digits
  require (!digits.isEmpty && decide (n < Nat.pow 2 32))
  return n

/-- The character of a code. -/
def charOf (code : Nat) : Reader Char :=
  if h : code.isValidChar then return Char.ofNatAux code h else failure

def isHexDigit (c : Char) : Bool := (Bytes.hexValue? c).isSome

/-- Exactly `count` hexadecimal digits. -/
def hexDigits : Nat → Reader (List Char)
  | 0 => return []
  | count + 1 => do
    match ← next? with
    | some c =>
      require (isHexDigit c)
      pass
      return c :: (← hexDigits count)
    | none => failure

/-- A character by its code, after the letter that says so: `width` digits, or any number of them in
braces. It also tells whether the code is given as one byte. -/
def code (width : Nat) : Reader (Char × Bool) := do
  if (← passOn) == '{' then
    pass
    let digits ← take isHexDigit
    passOver '}'
    require !digits.isEmpty
    return (← charOf (numberOf 16 digits), false)
  else return (← charOf (numberOf 16 (← hexDigits width)), width == 2)

/-! ### Sets of characters -/

/-- What case makes of a set, where the flags ask for it. -/
def foldSet (s : CharSet) : Reader CharSet := do
  let flags ← flags
  if !flags.foldCase then return s
  else if flags.unicode then return s.fold
  else return s.foldAscii

/-- The complement where it is asked for. Without the Unicode flag it would match parts of
characters and is refused. -/
def negateSet (negated : Bool) (s : CharSet) : Reader CharSet := do
  if !negated then return s
  require (← flags).unicode
  return s.complement

/-- The set behind `\d`, `\s`, `\w` and, negated, their capitals. -/
def shorthand (c : Char) : Reader CharSet := do
  let unicode := (← flags).unicode
  let set := match c.toLower with
    | 'd' => if unicode then Unicode.decimalDigits else .decode "30-39"
    | 's' => if unicode then Unicode.whiteSpace else .decode "9-D 20"
    | _ => if unicode then Unicode.wordCharacters else asciiWord
  negateSet c.isUpper set

/-- A text divided at the first place where `mark` stands. -/
def divide? (mark : List Char) : List Char → Option (List Char × List Char)
  | [] => none
  | c :: rest =>
    if mark.isPrefixOf (c :: rest) then some ([], (c :: rest).drop mark.length)
    else (divide? mark rest).map fun (before, after) => (c :: before, after)

/-- A property in braces: a name, or a property and its value with `=` or `:` between them, or with
`!=`, which negates. -/
def query? (text : List Char) : Option (Bool × CharSet) :=
  let valued (parts : List Char × List Char) : Option CharSet :=
    Unicode.valued? (String.ofList parts.1) (String.ofList parts.2)
  match divide? ['!', '='] text, divide? [':'] text <|> divide? ['='] text with
  | some parts, _ => (valued parts).map (true, ·)
  | none, some parts => (valued parts).map (false, ·)
  | none, none => (Unicode.named? (String.ofList text)).map (false, ·)

/-- The set behind `\p` and, negated, `\P`. -/
def property (negated : Bool) : Reader CharSet := do
  let c ← passOn
  let query ← if c == '{' then do
      pass
      let text ← take (· != '}')
      require ((← next?) == some '}')
      pure text
    else pure [c]
  require (c != '\\' && (← flags).unicode)
  drop 1
  match query? query with
  | some (opposite, set) => negateSet (negated != opposite) (← foldSet set)
  | none => failure

/-! ### Escapes -/

/-- What an escape or another character stands for. -/
inductive Atom
  /-- A character, and whether it is written as one byte in hexadecimal. -/
  | char (c : Char) (byte : Bool)
  | set (s : CharSet)
  | look (condition : Look)

/-- The names of the conditions written in braces after `\b`. -/
def wordCondition? (kind : WordKind) : String → Option Look
  | "start" => some (.wordStart kind)
  | "end" => some (.wordEnd kind)
  | "start-half" => some (.wordStartHalf kind)
  | "end-half" => some (.wordEndHalf kind)
  | _ => none

/-- The condition after `\b`. A brace not followed by a letter or a hyphen begins a repetition. -/
def boundary (kind : WordKind) : Reader Look := do
  let isNameChar (c : Char) : Bool := c.isAlpha || c == '-'
  let start ← get
  if start.rest.head? != some '{' then return .wordBoundary kind
  if !isNameChar (← passOn) then
    set start
    return .wordBoundary kind
  let name ← take isNameChar
  require ((← next?) == some '}')
  drop 1
  match wordCondition? kind (String.ofList name) with
  | some look => return look
  | none => failure

/-- What stands after a backslash. -/
def escape : Reader Atom := do
  let kind : WordKind := if (← flags).unicode then .unicode else .ascii
  let char (c : Char) : Reader Atom := do drop 1; return .char c false
  let look (condition : Look) : Reader Atom := do drop 1; return .look condition
  match ← next? with
  | none => failure
  | some c =>
    match c with
    | 'x' => let (c, byte) ← code 2; return .char c byte
    | 'u' => let (c, byte) ← code 4; return .char c byte
    | 'U' => let (c, byte) ← code 8; return .char c byte
    | 'p' => return .set (← property false)
    | 'P' => return .set (← property true)
    | 'd' | 's' | 'w' | 'D' | 'S' | 'W' => drop 1; return .set (← shorthand c)
    | 'a' => char '\x07'
    | 'f' => char '\x0c'
    | 't' => char '\t'
    | 'n' => char '\n'
    | 'r' => char '\r'
    | 'v' => char '\x0b'
    | 'A' => look .textStart
    | 'z' => look .textEnd
    | 'b' => drop 1; return .look (← boundary kind)
    | 'B' => look (.noWordBoundary kind)
    | '<' => look (.wordStart kind)
    | '>' => look (.wordEnd kind)
    | c =>
      require (decide (c.toNat < 128) && !c.isAlphanum)
      char c

/-! ### Classes -/

/-- The classes with a name in `[:name:]`. -/
def namedClass? (name : String) : Option CharSet :=
  match name with
  | "alnum" => some (.decode "30-39 41-5A 61-7A")
  | "alpha" => some (.decode "41-5A 61-7A")
  | "ascii" => some (.decode "0-7F")
  | "blank" => some (.decode "9 20")
  | "cntrl" => some (.decode "0-1F 7F")
  | "digit" => some (.decode "30-39")
  | "graph" => some (.decode "21-7E")
  | "lower" => some (.decode "61-7A")
  | "print" => some (.decode "20-7E")
  | "punct" => some (.decode "21-2F 3A-40 5B-60 7B-7E")
  | "space" => some (.decode "9-D 20")
  | "upper" => some (.decode "41-5A")
  | "word" => some asciiWord
  | "xdigit" => some (.decode "30-39 41-46 61-66")
  | _ => none

/-- A named class at the front of a text: whether a caret negates it, the class and what is left. -/
def bracketName? (cs : List Char) : Option (Bool × CharSet × List Char) := do
  let '[' :: ':' :: cs := cs | none
  let (negated, cs) := match cs with
    | '^' :: rest => (true, rest)
    | _ => (false, cs)
  let name := cs.takeWhile (· != ':')
  let ':' :: ']' :: rest := cs.drop name.length | none
  return (negated, ← namedClass? (String.ofList name), rest)

/-- What combines the two sides of a class operator. -/
inductive ClassOp
  | inter
  | diff
  | symmDiff

def ClassOp.apply : ClassOp → CharSet → CharSet → CharSet
  | .inter => CharSet.inter
  | .diff => CharSet.diff
  | .symmDiff => CharSet.symmDiff

/-- The operator at the front of a class body. -/
def classOp? : List Char → Option ClassOp
  | '&' :: '&' :: _ => some .inter
  | '-' :: '-' :: _ => some .diff
  | '~' :: '~' :: _ => some .symmDiff
  | _ => none

/-- A set and how deep the class nests that gives it. -/
structure ClassPart where
  set : CharSet
  depth : Nat := 0

/-- What has been read of a class body: the side before the last operator with that operator, and
the items after it, the last one first. -/
structure ClassBody where
  pending : Option (ClassPart × ClassOp) := none
  items : List ClassPart := []

/-- The items as one part; several nest one deeper. -/
def union (items : List ClassPart) : ClassPart :=
  match items with
  | [item] => item
  | [] => ⟨.empty, 0⟩
  | items =>
    ⟨.unions (items.reverse.map ClassPart.set), 1 + (items.map ClassPart.depth).foldl max 0⟩

/-- The body as one part. Case counts as little for the sides of an operator as for the class. -/
def ClassBody.close (body : ClassBody) : Reader ClassPart := do
  let right := union body.items
  match body.pending with
  | none => return right
  | some (left, op) =>
    let set := op.apply (← foldSet left.set) (← foldSet right.set)
    return ⟨set, 1 + max left.depth right.depth⟩

/-- The code of a character in a class. Without the Unicode flag only ASCII stands in classes. -/
def classCode (atom : Atom) : Reader Nat := do
  match atom with
  | .char c _ =>
    require ((← flags).unicode || decide (c.toNat < 128))
    return c.toNat
  | _ => failure

/-- One item of a class body that is not a class itself. -/
def classAtom : Reader Atom := do
  match ← next? with
  | some '\\' => drop 1; escape
  | some c => drop 1; return .char c false
  | none => failure

/-- An item, or a range of characters. A hyphen before the closing bracket stands for itself, and
two hyphens are an operator. -/
def classRange : Reader CharSet := do
  let first ← classAtom
  skip
  let behind ← second?
  match ← next? with
  | none => failure
  | some c =>
    if c == '-' && behind != some ']' && behind != some '-' then
      let _ ← passOn
      let last ← classCode (← classAtom)
      let first ← classCode first
      require (decide (first ≤ last))
      return .range first last
    else
      match first with
      | .set s => return s
      | first =>
        let code ← classCode first
        return .range code code

/-- The hyphens at the start of a class, which stand for themselves. -/
def leadingHyphens : Nat → Reader (List ClassPart)
  | 0 => failure
  | fuel + 1 => do
    if (← next?) == some '-' then
      let _ ← passOn
      return ⟨.single '-', 0⟩ :: (← leadingHyphens fuel)
    else return []

/-- What stands for itself at the start of a class: hyphens, or else a closing bracket. -/
def leadingItems : Reader (List ClassPart) := do
  let hyphens ← leadingHyphens ((← get).rest.length + 1)
  if hyphens.isEmpty && (← next?) == some ']' then
    let _ ← passOn
    return [⟨.single ']', 0⟩]
  else return hyphens

mutual
/-- A class from its opening bracket on, with so many levels left to nest. -/
def bracketed (fuel levels : Nat) : Reader ClassPart :=
  match fuel, levels with
  | fuel + 1, levels + 1 => do
    let negated := (← passOn) == '^'
    if negated then
      let _ ← passOn
    let part ← classBody fuel levels { items := ← leadingItems }
    return ⟨← negateSet negated (← foldSet part.set), part.depth + 1⟩
  | _, _ => failure

/-- The body of a class with its closing bracket, given what has been read of it. -/
def classBody (fuel levels : Nat) (body : ClassBody) : Reader ClassPart :=
  match fuel with
  | 0 => failure
  | fuel + 1 => do
    skip
    let add (part : ClassPart) : ClassBody := { body with items := part :: body.items }
    let rest := (← get).rest
    match rest.head?, bracketName? rest, classOp? rest with
    | none, _, _ => failure
    | some ']', _, _ => drop 1; body.close
    | some '[', some (negated, set, rest), _ =>
      modify ({ · with rest })
      let set ← negateSet negated (← foldSet set)
      classBody fuel levels (add ⟨set, 0⟩)
    | some '[', none, _ => classBody fuel levels (add (← bracketed fuel levels))
    | some _, _, some op =>
      drop 2
      classBody fuel levels { pending := some (← body.close, op) }
    | some _, _, none => classBody fuel levels (add ⟨← classRange, 0⟩)
end

/-! ### Groups -/

/-- The flags with the one that a letter stands for set to `on`. -/
def setFlag? (flags : Flags) (on : Bool) (c : Char) : Option Flags :=
  match c with
  | 'i' => some { flags with foldCase := on }
  | 'm' => some { flags with multiLine := on }
  | 's' => some { flags with dotAll := on }
  | 'U' => some { flags with lazyByDefault := on }
  | 'u' => some { flags with unicode := on }
  | 'x' => some { flags with verbose := on }
  | 'R' => some { flags with crlf := on }
  | _ => none

/-- Flag letters up to a colon or a closing parenthesis. No letter may come twice, and something
must follow a minus sign. The boolean tells whether a colon ended them. -/
def flagLetters? (flags : Flags) (on : Bool) (seen : List Char) (dangling : Bool) :
    List Char → Option (Flags × Bool × List Char)
  | [] => none
  | ':' :: rest => if dangling then none else some (flags, true, rest)
  | ')' :: rest => if dangling || seen.isEmpty then none else some (flags, false, rest)
  | '-' :: rest => if on then flagLetters? flags false seen true rest else none
  | c :: rest => do
    let flags ← setFlag? flags on c
    if seen.contains c then none else flagLetters? flags on (c :: seen) false rest

/-- Whether a character may begin the name of a group. -/
def beginsName (c : Char) : Bool := c == '_' || Text.isLetter c

/-- Whether a character may stand further on in the name of a group. -/
def continuesName (c : Char) : Bool :=
  c == '_' || c == '.' || c == '[' || c == ']' || Text.isLetterOrNumeral c

/-- The name of a group and its closing angle. -/
def groupName : Reader String := do
  let rest := (← get).rest
  let name := rest.takeWhile (· != '>')
  match name with
  | [] => failure
  | first :: others =>
    require (beginsName first && others.all continuesName)
    drop name.length
    require ((← next?) == some '>')
    drop 1
    return String.ofList name

/-- The number of the next group, which is given away by that. -/
def nextGroup : Reader Nat :=
  modifyGet fun s => (s.groups + 1, { s with groups := s.groups + 1 })

/-- What an opening parenthesis begins. -/
inductive Opening
  /-- Flags for what follows, closed already. -/
  | flags
  /-- A group that notes what it takes. -/
  | capture (index : Nat)
  | plain

/-- An opening parenthesis with what belongs to it. -/
def opening : Reader Opening := do
  pass
  for start in ["?=", "?!", "?<=", "?<!"] do
    require !(← dropIf start)
  if (← dropIf "?P<") || (← dropIf "?<") then
    let index ← nextGroup
    let name ← groupName
    require ((← get).names.lookup name).isNone
    modify fun s => { s with names := (name, index) :: s.names }
    return .capture index
  else if ← dropIf "?" then
    match flagLetters? (← flags) true [] false (← get).rest with
    | some (flags, grouped, rest) =>
      modify ({ · with flags, rest })
      return if grouped then .plain else .flags
    | none => failure
  else return .capture (← nextGroup)

/-! ### Expressions -/

/-- An expression and how deep it nests. -/
structure Part where
  expr : Expr
  depth : Nat := 0
  /-- Whether it can be repeated; flags cannot. -/
  isFlags : Bool := false

/-- The parts one after another, given the last one first; several nest one deeper. -/
def sequence (parts : List Part) : Part :=
  match parts with
  | [] => ⟨.empty, 0, false⟩
  | [part] => part
  | parts =>
    ⟨.sequence (parts.reverse.map Part.expr), 1 + (parts.map Part.depth).foldl max 0, false⟩

/-- The parts as alternatives, given the last one first; several nest one deeper. -/
def choice (parts : List Part) : Part :=
  match parts with
  | [part] => part
  | parts =>
    ⟨.choice (parts.reverse.map Part.expr), 1 + (parts.map Part.depth).foldl max 0, false⟩

/-- A character outside of classes. As one byte it must be ASCII if the Unicode flag is not set. -/
def letter (c : Char) (byte : Bool) : Reader Expr := do
  let flags ← flags
  require (flags.unicode || !byte || decide (c.toNat < 128))
  if !flags.foldCase then return .literal [c]
  else if flags.unicode then return .ofSet (.ofCodes ((Unicode.caseMates c).map Char.toNat))
  else return .ofSet (CharSet.single c).foldAscii

/-- What a dot stands for. -/
def dot : Reader Expr := do
  let flags ← flags
  require flags.unicode
  if flags.dotAll then return .set .full
  else if flags.crlf then return .set (CharSet.decode "A D").complement
  else return .set (CharSet.decode "A").complement

/-- The condition of a caret, or of a dollar sign. -/
def lineLook (atStart : Bool) : Reader Look := do
  let flags ← flags
  return match flags.multiLine, flags.crlf, atStart with
    | false, _, true => .textStart
    | false, _, false => .textEnd
    | true, false, true => .lineStart
    | true, false, false => .lineEnd
    | true, true, true => .anyLineStart
    | true, true, false => .anyLineEnd

/-- An expression of one character, or an escape. -/
def primitive : Reader Expr := do
  match ← next? with
  | none => failure
  | some '\\' =>
    drop 1
    match ← escape with
    | .char c byte => letter c byte
    | .set s => return .ofSet s
    | .look condition => return .look condition
  | some c =>
    drop 1
    match c with
    | '.' => dot
    | '^' => return .look (← lineLook true)
    | '$' => return .look (← lineLook false)
    | c => letter c false

/-- The bounds of a repetition from its opening brace on, up to the closing one. -/
def bounds : Reader (Nat × Option Nat) := do
  let _ ← passOn
  let least ← decimal
  if (← next?) == some ',' then
    if (← passOn) == '}' then return (least, none)
    let most ← decimal
    require (decide (least ≤ most))
    return (least, some most)
  else return (least, some least)

/-- A mark of repetition: the bounds, and whether a question mark follows. -/
def repetition (c : Char) : Reader (Nat × Option Nat × Bool) := do
  let (least, most) ← match c with
    | '*' => pure (0, none)
    | '+' => pure (1, none)
    | '?' => pure (0, some 1)
    | _ => bounds
  if c == '{' then passOver '}' else drop 1
  let isShort := (← next?) == some '?'
  if isShort then drop 1
  return (least, most, isShort)

/-- The part repeated by the mark that stands next. -/
def repeated (c : Char) (part : Part) : Reader Part := do
  require (!part.isFlags && decide (part.depth < nestingLimit))
  let (least, most, isShort) ← repetition c
  let greedy := isShort == (← flags).lazyByDefault
  return ⟨.repeated part.expr least most greedy, part.depth + 1, false⟩

mutual
/-- Alternatives up to the end of the group or of the pattern; what ends them stays. Given are the
parts of the alternative being read and the alternatives before it, both the last one first. -/
def alternatives (fuel levels : Nat) (parts before : List Part) : Reader Part :=
  match fuel with
  | 0 => failure
  | fuel + 1 => do
    skip
    match ← next? with
    | none | some ')' => return choice (sequence parts :: before)
    | some '|' =>
      drop 1
      alternatives fuel levels [] (sequence parts :: before)
    | some '(' => alternatives fuel levels ((← group fuel levels) :: parts) before
    | some '[' =>
      let part ← bracketed (2 * (← get).rest.length + 2) levels
      alternatives fuel levels (⟨.ofSet part.set, part.depth, false⟩ :: parts) before
    | some c =>
      if c == '*' || c == '+' || c == '?' || c == '{' then
        match parts with
        | [] => failure
        | part :: parts => alternatives fuel levels ((← repeated c part) :: parts) before
      else alternatives fuel levels (⟨← primitive, 0, false⟩ :: parts) before

/-- A group, or flags. The flags set inside a group end with it. -/
def group (fuel levels : Nat) : Reader Part :=
  match fuel, levels with
  | fuel + 1, levels + 1 => do
    let outside ← flags
    let close (wrap : Expr → Expr) : Reader Part := do
      let part ← alternatives fuel levels [] []
      require ((← next?) == some ')')
      drop 1
      modify ({ · with flags := outside })
      return ⟨wrap part.expr, part.depth + 1, false⟩
    match ← opening with
    | .flags => return ⟨.empty, 0, true⟩
    | .capture index => close (.group index)
    | .plain => close id
  | _, _ => failure
end

/-- The whole pattern. Each character is read at most once, which bounds the steps. -/
def whole : Reader Expr := do
  let length := (← get).rest.length
  let part ← alternatives (2 * length + 2) nestingLimit [] []
  require (← get).rest.isEmpty
  require (decide (part.depth ≤ nestingLimit))
  return part.expr

end Reader

/-- The expression written by a text, with the number of its groups and their names. -/
def parse? (source : String) : Option (Expr × Nat × List (String × Nat)) :=
  match Reader.whole.run { rest := source.toList } with
  | some (expr, scan) => if expr.isAdmitted then some (expr, scan.groups, scan.names) else none
  | none => none

end Conform.Regex
