import Conform.Regex.Expr
import Std.Data.HashSet

/-!
# Matching regular expressions

An expression becomes a program of small instructions, and a program is run from one place of a
text by trying the preferred way first. An instruction is never run twice at the same place: what
failed there once fails there again. So a run takes at most one step for each pair of instruction
and place.
-/

namespace Conform.Regex

/-- One instruction; the numbers are those of the next ones. -/
inductive Instr
  | letter (c : Char) (next : Nat)
  | char (set : CharSet) (next : Nat)
  | look (condition : Look) (next : Nat)
  /-- Tries `first`, then `second`. -/
  | fork (first second : Nat)
  /-- Notes the current place in a slot. -/
  | mark (slot next : Nat)
  | accept
  deriving Inhabited, Repr

/-- Instructions in order of their number. -/
abbrev Code := Array Instr

/-- A fork that goes on with `again` or leaves by `out`. -/
def Instr.loop (greedy : Bool) (again out : Nat) : Instr :=
  if greedy then .fork again out else .fork out again

namespace Expr

/-- `count` copies of an expression in front of `next`. -/
def emitCopies (emit : Nat → Code → Nat × Code) (count next : Nat) (code : Code) : Nat × Code :=
  match count with
  | 0 => (next, code)
  | count + 1 =>
    let (next, code) := emit next code
    emitCopies emit count next code

/-- Up to `count` optional copies, each inside the one before it, in front of `next`. -/
def emitOptional (emit : Nat → Code → Nat × Code) (greedy : Bool) (count out next : Nat)
    (code : Code) : Nat × Code :=
  match count with
  | 0 => (next, code)
  | count + 1 =>
    let (body, code) := emit next code
    emitOptional emit greedy count out code.size (code.push (.loop greedy body out))

/-- One or more copies in front of `out`: the copy, and a fork back to it. -/
def emitPlus (emit : Nat → Code → Nat × Code) (greedy : Bool) (out : Nat) (code : Code) :
    Nat × Code :=
  let back := code.size
  let (body, code) := emit back (code.push .accept)
  (body, code.set! back (.loop greedy body out))

/-- One instruction for each letter in front of `next`. -/
def emitLetters (text : List Char) (next : Nat) (code : Code) : Nat × Code :=
  text.foldr (fun c (next, code) => (code.size, code.push (.letter c next))) (next, code)

/-- Adds the instructions of an expression in front of `next`; gives the number of the first one. -/
def emit : Expr → Nat → Code → Nat × Code
  | .empty, next, code => (next, code)
  | .literal text, next, code => emitLetters text next code
  | .set members, next, code => (code.size, code.push (.char members next))
  | .look condition, next, code => (code.size, code.push (.look condition next))
  | .seq a b, next, code =>
    let (next, code) := b.emit next code
    a.emit next code
  | .alt a b, next, code =>
    let (second, code) := b.emit next code
    let (first, code) := a.emit next code
    (code.size, code.push (.fork first second))
  | .group index e, next, code =>
    let close := code.size
    let (body, code) := e.emit close (code.push (.mark (2 * index + 1) next))
    (code.size, code.push (.mark (2 * index) body))
  | .rep e least (some most) greedy, next, code =>
    let (next, code) := emitOptional e.emit greedy (most - least) next next code
    emitCopies e.emit least next code
  | .rep e 0 none greedy, next, code =>
    if e.consumes then
      let fork := code.size
      let (body, code) := e.emit fork (code.push .accept)
      (fork, code.set! fork (.loop greedy body next))
    else
      let (body, code) := emitPlus e.emit greedy next code
      (code.size, code.push (.loop greedy body next))
  | .rep e (least + 1) none greedy, next, code =>
    let (body, code) := emitPlus e.emit greedy next code
    emitCopies e.emit least body code

end Expr

/-- A program: its code and the instruction to begin with. -/
structure Program where
  code : Code
  start : Nat
  deriving Inhabited

/-- The program of an expression; slots 0 and 1 note the whole match. -/
def Expr.program (e : Expr) : Program :=
  let (start, code) := (Expr.group 0 e).emit 0 #[.accept]
  ⟨code, start⟩

/-- A way yet to be tried: an instruction, a place, and the slots noted on the way there. -/
structure Thread where
  instr : Nat
  place : Nat
  slots : List (Nat × Nat)

/-- The pairs of an instruction and a place visited so far. -/
abbrev Visited := Std.HashSet (Nat × Nat)

/-- Runs the pending ways in order until one accepts. The visited pairs come back with those of this
run added. -/
def run (code : Code) (text : Array Char) (fuel : Nat) (visited : Visited)
    (pending : List Thread) : Option (List (Nat × Nat)) × Visited :=
  match fuel, pending with
  | 0, _ => (none, visited)
  | _, [] => (none, visited)
  | fuel + 1, thread :: pending =>
    let place := thread.place
    if visited.contains (thread.instr, place) then run code text fuel visited pending
    else
      let visited := visited.insert (thread.instr, place)
      let go (instr place : Nat) : Thread := ⟨instr, place, thread.slots⟩
      match code.getD thread.instr .accept with
      | .accept => (some thread.slots, visited)
      | .letter c next =>
        if text[place]? = some c then
          run code text fuel visited (go next (place + 1) :: pending)
        else run code text fuel visited pending
      | .char set next =>
        match text[place]? with
        | some c =>
          if set.holds c then run code text fuel visited (go next (place + 1) :: pending)
          else run code text fuel visited pending
        | none => run code text fuel visited pending
      | .look condition next =>
        let before := if place = 0 then none else text[place - 1]?
        if condition.holds before text[place]? then
          run code text fuel visited (go next place :: pending)
        else run code text fuel visited pending
      | .fork first second =>
        run code text fuel visited (go first place :: go second place :: pending)
      | .mark slot next =>
        run code text fuel visited (⟨next, place, (slot, place) :: thread.slots⟩ :: pending)

/-- The slots of the first match that begins at `place` or one of the `more` places after it. What
a failed run visited need not be visited by a later one. Each pair is visited once and adds at most
two ways, which bounds the steps. -/
def Program.findFrom? (program : Program) (text : Array Char) (visited : Visited)
    (place more : Nat) : Option (List (Nat × Nat)) :=
  let pairs := program.code.size * (text.size + 1)
  let (found, visited) := run program.code text (2 * pairs + 2) visited [⟨program.start, place, []⟩]
  match found, more with
  | some slots, _ => some slots
  | none, 0 => none
  | none, more + 1 => program.findFrom? text visited (place + 1) more

/-- The slots of the first match that begins at `place` or later. -/
def Program.find? (program : Program) (text : Array Char) (place : Nat) :
    Option (List (Nat × Nat)) :=
  if text.size < place then none else program.findFrom? text ∅ place (text.size - place)

end Conform.Regex
