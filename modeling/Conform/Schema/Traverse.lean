import Conform.Schema.Tree

/-!
# Going through the schemas inside a node

`Node.mapM` changes every schema directly inside a node, from left to right, and leaves the rest as
it is. `Node.map` does so without effects.

`Schema.settle` gives stamps and cells to what was just put together.
-/

namespace Conform

section Map

variable {σ τ : Type}

def Argument.map (f : σ → τ) : Argument σ → Argument τ
  | .literal v => .literal v
  | .reference r => .reference r
  | .pattern p => .pattern p
  | .schema s => .schema (f s)
  | .function name => .function name

def Rule.map (f : σ → τ) (rule : Rule σ) : Rule τ := ⟨rule.name, rule.args.map (Argument.map f)⟩

def KeyMatcher.map (f : σ → τ) : KeyMatcher σ → KeyMatcher τ
  | .pattern p => .pattern p
  | .schema s => .schema (f s)

def KeyPattern.map (f : σ → τ) (p : KeyPattern σ) : KeyPattern τ := ⟨p.matcher.map f, f p.schema⟩

/-- Children under their keys, changed. -/
def mapChildren (f : σ → τ) (children : List (String × σ)) : List (String × τ) :=
  children.map fun child => (child.1, f child.2)

def ObjectForm.map (f : σ → τ) (form : ObjectForm σ) : ObjectForm τ where
  keys := form.keys.map (mapChildren f)
  order := form.order
  renames := form.renames
  dependencies := form.dependencies
  patterns := form.patterns.map (KeyPattern.map f)
  unknown := form.unknown

def ArrayForm.map (f : σ → τ) (form : ArrayForm σ) : ArrayForm τ :=
  ⟨form.items.map f, form.ordered.map f, form.sparse, form.single⟩

def Condition.map (f : σ → τ) : Condition σ → Condition τ
  | .reference r => .reference r
  | .schema s => .schema (f s)

def Case.map (f : σ → τ) (c : Case σ) : Case τ := ⟨c.test.map f, c.branch.map f⟩

def Match.map (f : σ → τ) : Match σ → Match τ
  | .attempt s => .attempt (f s)
  | .conditional condition cases otherwise =>
    .conditional (condition.map f) (cases.map (Case.map f)) (otherwise.map f)

def AlternativesForm.map (f : σ → τ) (form : AlternativesForm σ) : AlternativesForm τ :=
  ⟨form.entries.map (Match.map f), form.base.map f⟩

def Form.map (f : σ → τ) : Form σ → Form τ
  | .any => .any
  | .alternatives form => .alternatives (form.map f)
  | .array form => .array (form.map f)
  | .binary encoding => .binary encoding
  | .boolean form => .boolean form
  | .date format => .date format
  | .lazy form => .lazy form
  | .number allowUnsafe => .number allowUnsafe
  | .object form => .object (form.map f)
  | .string form => .string form

def Node.map (f : σ → τ) (n : Node σ) : Node τ where
  form := n.form.map f
  flags := n.flags
  empty := n.empty.map f
  allowed := n.allowed
  denied := n.denied
  rules := n.rules.map (Rule.map f)
  prefs := n.prefs
  notes := n.notes

end Map

variable {σ τ : Type} {m : Type → Type} [Monad m]

def Argument.mapM (f : σ → m τ) : Argument σ → m (Argument τ)
  | .literal v => pure (.literal v)
  | .reference r => pure (.reference r)
  | .pattern p => pure (.pattern p)
  | .schema s => return .schema (← f s)
  | .function name => pure (.function name)

def Rule.mapM (f : σ → m τ) (rule : Rule σ) : m (Rule τ) :=
  return ⟨rule.name, ← rule.args.mapM (Argument.mapM f)⟩

def KeyMatcher.mapM (f : σ → m τ) : KeyMatcher σ → m (KeyMatcher τ)
  | .pattern p => pure (.pattern p)
  | .schema s => return .schema (← f s)

def KeyPattern.mapM (f : σ → m τ) (p : KeyPattern σ) : m (KeyPattern τ) :=
  return ⟨← p.matcher.mapM f, ← f p.schema⟩

def ObjectForm.mapM (f : σ → m τ) (form : ObjectForm σ) : m (ObjectForm τ) :=
  return {
    keys := ← form.keys.mapM fun children => children.mapM fun (key, s) => return (key, ← f s)
    order := form.order
    renames := form.renames
    dependencies := form.dependencies
    patterns := ← form.patterns.mapM (KeyPattern.mapM f)
    unknown := form.unknown }

def Condition.mapM (f : σ → m τ) : Condition σ → m (Condition τ)
  | .reference r => pure (.reference r)
  | .schema s => return .schema (← f s)

def Case.mapM (f : σ → m τ) (c : Case σ) : m (Case τ) :=
  return ⟨← c.test.mapM f, ← c.branch.mapM f⟩

def Match.mapM (f : σ → m τ) : Match σ → m (Match τ)
  | .attempt s => return .attempt (← f s)
  | .conditional condition cases otherwise =>
    return .conditional (← condition.mapM f) (← cases.mapM (Case.mapM f)) (← otherwise.mapM f)

def Form.mapM (f : σ → m τ) : Form σ → m (Form τ)
  | .any => pure .any
  | .alternatives form =>
    return .alternatives ⟨← form.entries.mapM (Match.mapM f), ← form.base.mapM f⟩
  | .array form =>
    return .array ⟨← form.items.mapM f, ← form.ordered.mapM f, form.sparse, form.single⟩
  | .binary encoding => pure (.binary encoding)
  | .boolean form => pure (.boolean form)
  | .date format => pure (.date format)
  | .lazy form => pure (.lazy form)
  | .number allowUnsafe => pure (.number allowUnsafe)
  | .object form => return .object (← form.mapM f)
  | .string form => pure (.string form)

def Node.mapM (f : σ → m τ) (n : Node σ) : m (Node τ) :=
  return {
    form := ← n.form.mapM f
    flags := n.flags
    empty := ← n.empty.mapM f
    allowed := n.allowed
    denied := n.denied
    rules := ← n.rules.mapM (Rule.mapM f)
    prefs := n.prefs
    notes := n.notes }

namespace Schema

/-- A number from the state where there is none yet. -/
def numbered : Option Nat → StateM Nat (Option Nat)
  | some n => return some n
  | none => return some (← getModify (· + 1))

/-- The same where numbers are wanted. -/
def numberedIf (wanted : Bool) (number : Option Nat) : StateM Nat (Option Nat) :=
  if wanted then numbered number else pure number

/-- Gives a cell to a lazy node that keeps its schema and has none yet. -/
def furnishNode (n : Node Schema) : StateM Nat (Node Schema) :=
  match n.form with
  | .lazy form =>
    if form.once then return { n with form := .lazy { form with cell := ← numbered form.cell } }
    else return n
  | _ => return n

/-- Gives cells to the lazy nodes, and, if `stamps` says so, a stamp to every schema without one, no
deeper than `fuel`. The state is the next free number. -/
def settleWithin (stamps : Bool) : Nat → Schema → StateM Nat Schema
  | 0, s => pure s
  | fuel + 1, ⟨node, stamp⟩ => do
    let node ← node.mapM (settleWithin stamps fuel)
    let stamp ← numberedIf stamps stamp
    return ⟨← furnishNode node, stamp⟩

/-- Gives stamps, and cells to the lazy schemas inside, all the way down. -/
def settle (s : Schema) : StateM Nat Schema := s.settleWithin true s.height

/-- Gives cells to the lazy schemas inside, all the way down. A schema that a generator makes needs
no stamp: nobody holds a copy of what is inside. -/
def furnish (s : Schema) : StateM Nat Schema := s.settleWithin false s.height

end Schema

end Conform
