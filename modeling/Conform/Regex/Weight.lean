import Conform.Regex.Expr
import Std.Data.HashMap
import Std.Data.HashSet

/-!
# How large an expression may be

An expression is refused when the automaton that finds its matches by bytes, forward or backward,
would take more than ten mebibytes. Every state has a weight of its own, and so has each way out of
a state with several. Characters are taken as their bytes in UTF-8, and repetitions by number as so
many copies. The states are counted in the order in which they would be built.
-/

namespace Conform.Regex

/-- How much of an automaton has been built: its states, and the weight of the ways out of those
that have several. -/
structure Weight where
  states : Nat := 0
  ways : Nat := 0

namespace Weight

/-- The weight of a state. -/
def state : Nat := 32

/-- The weight of a way out of a state by one range of bytes. -/
def step : Nat := 8

/-- The weight of a way out of a state that takes no byte. -/
def branch : Nat := 4

/-- The weight of all. -/
def total (w : Weight) : Nat := state * w.states + w.ways

/-- The largest weight admitted. -/
def limit : Nat := 10 * 1024 * 1024

/-- With some more states and the weight of their ways. -/
def add (w : Weight) (states : Nat) (ways : Nat := 0) : Weight :=
  { states := w.states + states, ways := w.ways + ways }

/-- With one more state that has two ways out. -/
def fork (w : Weight) : Weight := w.add 1 (2 * branch)

/-- With `count` copies of something, or as many as pass the limit. -/
def copies (copy : Weight → Weight) : Nat → Weight → Weight
  | 0, w => w
  | count + 1, w => if limit < w.total then w else copies copy count (copy w)

/-! ### Characters as bytes -/

/-- The bytes of a code point. -/
def bytes (code : Nat) : List Nat :=
  if code < 0x80 then [code]
  else if code < 0x800 then [0xc0 + code / 0x40, 0x80 + code % 0x40]
  else if code < 0x10000 then
    [0xe0 + code / 0x1000, 0x80 + code / 0x40 % 0x40, 0x80 + code % 0x40]
  else
    [0xf0 + code / 0x40000, 0x80 + code / 0x1000 % 0x40, 0x80 + code / 0x40 % 0x40,
      0x80 + code % 0x40]

/-- One range for each byte of some characters. -/
abbrev Sequence := List (Nat × Nat)

/-- Where the codes from `first` to `last` have to be divided so that the ranges of their bytes are
independent: the last code of the first part. -/
def cut? (first last : Nat) : Option Nat :=
  match [0x7f, 0x7ff, 0xffff].find? fun most => decide (first ≤ most ∧ most < last) with
  | some most => some most
  | none =>
    if last < 0x80 then none
    else
      [0x40, 0x1000, 0x40000].findSome? fun unit =>
        if first / unit = last / unit then none
        else if first % unit ≠ 0 then some (first / unit * unit + (unit - 1))
        else if last % unit ≠ unit - 1 then some (last / unit * unit - 1)
        else none

/-- The sequences of the codes from `first` to `last`, with at most `fuel` divisions inside one
another. -/
def sequencesWithin : Nat → Nat → Nat → List Sequence
  | 0, _, _ => []
  | fuel + 1, first, last =>
    if last < first then []
    else if first < 0xe000 ∧ 0xd7ff < last then
      sequencesWithin fuel first 0xd7ff ++ sequencesWithin fuel 0xe000 last
    else
      match cut? first last with
      | some middle =>
        sequencesWithin fuel first middle ++ sequencesWithin fuel (middle + 1) last
      | none => [(bytes first).zip (bytes last)]

/-- The sequences of a set. Each bound of a range is divided off once for each of its bytes, so the
divisions are few. -/
def sequences (s : CharSet) : List Sequence :=
  s.ranges.flatMap fun (first, last) => sequencesWithin 32 first last

/-- What may follow each first range, for sequences in order. -/
def heads : List Sequence → List ((Nat × Nat) × List Sequence)
  | [] => []
  | [] :: rest => heads rest
  | (range :: tail) :: rest =>
    match heads rest with
    | (next, tails) :: more =>
      if next = range then (range, tail :: tails) :: more
      else (range, [tail]) :: (next, tails) :: more
    | [] => [(range, [tail])]

/-- What may follow after none, one or more ranges, as long as something does. -/
def remainders : Nat → List Sequence → List (List Sequence)
  | 0, _ => []
  | fuel + 1, sequences =>
    match heads sequences with
    | [] => []
    | hs => sequences :: hs.flatMap fun (_, tails) => remainders fuel tails

/-! ### Sets of characters -/

/-- Read forward, a set takes a state for everything that may follow after some bytes, and one for
the end. -/
def addSetForward (s : CharSet) (w : Weight) : Weight :=
  let distinct := (remainders 4 (sequences s)).foldl (·.insert ·) (∅ : Std.HashSet (List Sequence))
  distinct.fold (fun w tails => w.add 1 (step * (heads tails).length)) (w.add 1)

/-- The states met by a set read backward: the number of the next one, and those that can be met
again. They are kept in a thousand slots by what leads to them, each slot with the last one only. -/
structure Met where
  next : Nat
  slots : Std.HashMap UInt64 ((Nat × Nat × Nat) × Nat) := ∅

/-- The slot of a state, by the number of the state behind it and the range between the two. -/
def slotOf (behind first last : Nat) : UInt64 :=
  let mix (h : UInt64) (n : Nat) : UInt64 := (h ^^^ UInt64.ofNat n) * 1099511628211
  mix (mix (mix 14695981039346656037 behind) first) last % 1000

/-- The state in front of the state `behind`, with a range between the two. -/
def Met.before (met : Met) (behind : Nat) (range : Nat × Nat) : Met × Nat :=
  let key := (behind, range.1, range.2)
  let slot := slotOf behind range.1 range.2
  match met.slots[slot]? with
  | some (kept, number) =>
    if kept = key then (met, number)
    else (⟨met.next + 1, met.slots.insert slot (key, met.next)⟩, met.next)
  | none => (⟨met.next + 1, met.slots.insert slot (key, met.next)⟩, met.next)

/-- Read backward, a set takes a state that branches to all sequences and one for the end, and the
sequences share what they begin with as far as it is kept. -/
def addSetBackward (s : CharSet) (w : Weight) : Weight :=
  let all := sequences s
  let last := w.states + 1
  let met := all.foldl (fun (met : Met) (sequence : Sequence) =>
    (sequence.foldl (fun (place : Met × Nat) range => place.1.before place.2 range) (met, last)).1)
    ({ next := w.states + 2 } : Met)
  { states := met.next, ways := w.ways + branch * all.length }

/-- A set of characters; ASCII ones are one byte. -/
def addSet (backward : Bool) (s : CharSet) (w : Weight) : Weight :=
  if s.isAscii then w.add 2 (step * s.ranges.length)
  else if backward then addSetBackward s w
  else addSetForward s w

/-! ### Literals -/

def bytesOf (text : List Char) : List Nat := text.flatMap fun c => bytes c.toNat

/-- A stretch of the words that begin at a point, as the bytes to go on with and what follows
them. -/
abbrev Stretch := List (Nat × List (List Nat))

/-- The stretch with one more word. -/
def Stretch.insert (first : Nat) (rest : List Nat) : Stretch → Stretch
  | [] => [(first, [rest])]
  | (b, rests) :: more =>
    if b = first then (b, rests ++ [rest]) :: more else (b, rests) :: insert first rest more

/-- What begins at a point: the stretches closed by words that end there, and the open one. -/
structure Fan where
  closed : List Stretch := []
  last : Stretch := []

/-- With one more word, or with a word that ends here. A second such word counts only behind others
that go on. -/
def Fan.insert (fan : Fan) : List Nat → Fan
  | first :: rest => { fan with last := fan.last.insert first rest }
  | [] =>
    if fan.last.isEmpty && !fan.closed.isEmpty && fan.closed.all List.isEmpty then fan
    else { closed := fan.closed ++ [fan.last], last := [] }

/-- The words from a point on, the longest of which is shorter than `fuel`. -/
def addWords : Nat → List (List Nat) → Weight → Weight
  | 0, _, w => w
  | fuel + 1, words, w =>
    let fan := words.foldl Fan.insert {}
    let stretches := (fan.closed ++ [fan.last]).filter (!·.isEmpty)
    if stretches.isEmpty then w
    else
      let w := w.add 1 (branch * (stretches.length + fan.closed.length))
      stretches.foldl (fun w stretch =>
        let ways := if stretch.length = 1 then 0 else step * stretch.length
        stretch.foldl (fun w (_, rests) => addWords fuel rests w) (w.add 1 ways)) w

/-- Alternatives that are all literals share what they begin with. -/
def addLiterals (backward : Bool) (texts : List (List Char)) (w : Weight) : Weight :=
  let words := texts.map fun text => if backward then (bytesOf text).reverse else bytesOf text
  addWords ((words.map List.length).foldl max 0 + 1) words (w.add 1)

/-- The texts of alternatives that are all literals. -/
def literals? (e : Expr) : Option (List (List Char)) :=
  e.branches.mapM fun
    | .literal text => some text
    | _ => none

/-! ### Expressions -/

/-- Where an expression stands among alternatives. -/
inductive Role
  /-- Nowhere, or at the front. -/
  | first
  /-- Behind the first one; with it the branching state comes. -/
  | second
  | later

/-- The weight with what an expression in this role adds besides its own. -/
def joined (role : Role) (w : Weight) : Weight :=
  match role with
  | .first => w
  | .second => w.add 2 (2 * branch)
  | .later => w.add 0 branch

/-- The weight with that of an expression. Groups weigh nothing when read backward. -/
def addExpr (backward : Bool) (role : Role) (e : Expr) (w : Weight) : Weight :=
  match e with
  | .empty => joined role (w.add 1)
  | .literal text => joined role (w.add (bytesOf text).length)
  | .set s => joined role (addSet backward s w)
  | .look _ => joined role (w.add 1)
  | .seq a b =>
    joined role <|
      if backward then addExpr backward .first a (addExpr backward .first b w)
      else addExpr backward .first b (addExpr backward .first a w)
  | .alt a b =>
    match role, literals? (.alt a b) with
    | .first, some texts => addLiterals backward texts w
    | .first, none => addExpr backward .second b (addExpr backward .first a w)
    | role, _ => addExpr backward .later b (joined role (addExpr backward .first a w))
  | .group _ e =>
    joined role <|
      if backward then addExpr backward .first e w else (addExpr backward .first e (w.add 1)).add 1
  | .rep e least most _ =>
    let copy := addExpr backward .first e
    joined role <|
      match least, most with
      | 0, none => if e.consumes then copy w.fork else (copy w).fork.fork.add 1
      | least, none => (copies copy least w).fork
      | 0, some 1 => (copy w.fork).add 1
      | least, some most =>
        let w := if least = 0 then w.add 1 else copies copy least w
        if least = most then w else copies (fun w => copy w.fork) (most - least) (w.add 1)

/-- What stands in front of the expression: any bytes, unless the expression is held at the end of
the text where the search begins. -/
def front (held : Bool) : Weight := if held then { states := 1 } else { states := 3, ways := 16 }

/-- The weight of the whole automaton. -/
def ofExpr (backward : Bool) (e : Expr) : Weight :=
  if backward then (addExpr true .first e (front e.isAtEnd)).add 1
  else (addExpr false .first e ((front e.isAtStart).add 1)).add 2

end Weight

/-- Whether an expression is small enough. -/
def Expr.isAdmitted (e : Expr) : Bool :=
  decide ((Weight.ofExpr false e).total ≤ Weight.limit) &&
    decide ((Weight.ofExpr true e).total ≤ Weight.limit)

end Conform.Regex
