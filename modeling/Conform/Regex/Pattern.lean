import Conform.Regex.Program
import Conform.Regex.Reader
import Conform.Value.Basic

/-!
# Patterns

A pattern is an expression together with the text it was read from. It tells whether it occurs in a
text, and replaces all its occurrences by a template in which `$` names groups.
-/

namespace Conform

/-- A regular expression that remembers its source. -/
structure Pattern where
  source : String
  expr : Regex.Expr
  groups : Nat
  names : List (String × Nat)
  parsed : Regex.parse? source = some (expr, groups, names)

namespace Pattern

/-- The pattern written by a text, if it is one. -/
def ofSource? (source : String) : Option Pattern :=
  match h : Regex.parse? source with
  | some (expr, groups, names) => some ⟨source, expr, groups, names, h⟩
  | none => none

/-- Patterns of one source are equal. -/
theorem eq_of_source_eq {p q : Pattern} (h : p.source = q.source) : p = q := by
  obtain ⟨s, e, g, n, hp⟩ := p
  obtain ⟨t, f, i, m, hq⟩ := q
  subst h
  rw [hp] at hq
  obtain ⟨rfl, rfl, rfl⟩ := by simpa using hq
  rfl

instance : DecidableEq Pattern := fun p q =>
  if h : p.source = q.source then .isTrue (eq_of_source_eq h)
  else .isFalse fun hpq => h (hpq ▸ rfl)

/-- Whether the pattern occurs in the text. -/
def isMatch (p : Pattern) (text : String) : Bool :=
  let chars := text.toList.toArray
  (p.expr.program.find? chars 0).isSome

/-- One occurrence: where it begins and ends, and the slots of its groups. -/
structure Occurrence where
  first : Nat
  last : Nat
  slots : List (Nat × Nat)

/-- The occurrences from `place` on, one after another. An empty one right behind the one before it
does not count. -/
def occurrences (program : Regex.Program) (text : Array Char) (fuel place : Nat)
    (previous : Option Nat) : List Occurrence :=
  match fuel with
  | 0 => []
  | fuel + 1 =>
    match program.find? text place with
    | none => []
    | some slots =>
      let first := (slots.lookup 0).getD place
      let last := (slots.lookup 1).getD place
      if first = last ∧ previous = some last then
        occurrences program text fuel (place + 1) previous
      else ⟨first, last, slots⟩ :: occurrences program text fuel last (some last)

/-- The part of a text between two places. -/
def slice (text : Array Char) (first last : Nat) : List Char := (text.extract first last).toList

/-- What a group took; nothing if it took no part. -/
def groupText (text : Array Char) (slots : List (Nat × Nat)) (index : Nat) : List Char :=
  match slots.lookup (2 * index), slots.lookup (2 * index + 1) with
  | some first, some last => slice text first last
  | _, _ => []

/-- What a group named by number or by name took. -/
def namedText (p : Pattern) (text : Array Char) (slots : List (Nat × Nat)) (name : String) :
    List Char :=
  match Value.index? name with
  | some index => groupText text slots index
  | none =>
    match p.names.lookup name with
    | some index => groupText text slots index
    | none => []

def isGroupLetter (c : Char) : Bool := c == '_' || c.isAlphanum

/-- The template with groups filled in: `$$` is a dollar sign, `$name` and `${name}` a group, and
any other dollar sign stands for itself. -/
def expand (p : Pattern) (text : Array Char) (slots : List (Nat × Nat)) (fuel : Nat) :
    List Char → List Char
  | [] => []
  | '$' :: '$' :: rest =>
    match fuel with
    | 0 => []
    | fuel + 1 => '$' :: p.expand text slots fuel rest
  | '$' :: '{' :: rest =>
    match fuel with
    | 0 => []
    | fuel + 1 =>
      let name := rest.takeWhile (· != '}')
      match rest.drop name.length with
      | '}' :: after =>
        p.namedText text slots (String.ofList name) ++ p.expand text slots fuel after
      | _ => '$' :: p.expand text slots fuel ('{' :: rest)
  | c :: rest =>
    match fuel with
    | 0 => []
    | fuel + 1 =>
      let name := if c = '$' then rest.takeWhile isGroupLetter else []
      if name.isEmpty then c :: p.expand text slots fuel rest
      else
        p.namedText text slots (String.ofList name) ++
          p.expand text slots fuel (rest.drop name.length)

/-- The text with the occurrences replaced by their expansions. -/
def replaceFrom (p : Pattern) (text : Array Char) (template : List Char) (place : Nat) :
    List Occurrence → List Char
  | [] => slice text place text.size
  | o :: rest =>
    slice text place o.first ++ p.expand text o.slots (template.length + 1) template ++
      p.replaceFrom text template o.last rest

/-- Every occurrence replaced by the template. -/
def replaceAll (p : Pattern) (text template : String) : String :=
  let chars := text.toList.toArray
  let found := occurrences p.expr.program chars (2 * chars.size + 2) 0 none
  String.ofList (p.replaceFrom chars template.toList 0 found)

end Pattern

end Conform
