import Conform.Check.Node
import Conform.Proofs.Matching

/-!
# What a check looks up

A check knows more than the value. References lead from where they stand to a value further out, and
a computed default gets the parent. `Schema.looks` lists what a node looks up itself and
`Schema.visited` the schemas it hands values on to, with how many levels further in they look from.
`Reads` puts the two together, schemas made by lazy nodes included.

The levels add up on the way in. A reference that leads two levels out, and stands one level inside,
looks one level outside of where the check began; so a look-up is counted from the schema at which a
check is made, and what a schema reads is a set of pairs of a level and a first step there. That
makes it possible to say of two positions that they agree on all that a schema reads (`Agree`), and
to carry that inwards: one level further in they agree on what the schemas there read, as they have
the value between them in common.

Positions with the same path under which all that a schema reads is the same are one to a check by
it. What marks a schema bears makes no difference to what it reads (`reads_congr`). Properties of
all that takes part in checks, `Schema.Throughout`, are handed on by the same relation.
-/

namespace Conform

/-- Something looked up outside the value. -/
inductive Look
  | reference (r : Reference)
  /-- The parent, for defaults computed from it. -/
  | parent

/-- What is found there. -/
def Look.sees (look : Look) (value : Value) (scope : Scope) : Value :=
  match look with
  | .reference r => r.resolve value scope
  | .parent => (scope.position.ancestor? 0).getD .undefined

/-- What a default looks up: the reference, or the parent for what is computed. -/
def Default.looks : Default → List Look
  | .reference r => [.reference r]
  | .function _ => [.parent]
  | _ => []

/-- The references that are resolved before a rule runs; a rule resolves its subject itself. -/
def Rule.resolved {σ : Type} (kind : Kind) (rule : Rule σ) : List Reference :=
  match kind.rule? rule.name with
  | some spec => (spec.parameters.zip rule.args).filterMap fun (p, arg) =>
    if p.kind = .subject then none else arg.reference?
  | none => []

/-- The references of a form itself. -/
def Form.references {σ : Type} : Form σ → List Reference
  | .alternatives f => f.references
  | .boolean f => f.truthy.referenceItems ++ f.falsy.referenceItems
  | _ => []

namespace Node

variable {σ : Type}

/-- The references that the node resolves, those of its defaults apart. -/
def resolved (n : Node σ) : List Reference :=
  n.rules.flatMap (Rule.resolved n.kind) ++ n.allowed.referenceItems ++ n.denied.referenceItems ++
    n.form.references

/-- What the node looks up. -/
def looks (n : Node σ) : List Look :=
  n.resolved.map .reference ++
    (n.flags.default.toList ++ n.flags.failover.toList).flatMap Default.looks

/-- The schemas that the node hands values on to, with how much further in these stand. -/
def visited (n : Node σ) : List (Nat × σ) :=
  n.empty.toList.map (0, ·) ++ (n.rules.flatMap Rule.schemas).map (1, ·) ++
    match n.form with
    | .alternatives f => f.schemas.map (0, ·)
    | form => form.schemas.map (1, ·)

/-- What is visited is inside. -/
theorem mem_inner_of_visited {n : Node σ} {levels : Nat} {child : σ}
    (h : (levels, child) ∈ n.visited) : child ∈ n.inner := by
  obtain ⟨form, flags, empty, allowed, denied, rules, prefs, notes⟩ := n
  unfold visited at h
  unfold inner
  rcases List.mem_append.mp h with h | h
  · refine List.mem_append_left _ ?_
    rcases List.mem_append.mp h with h | h
    · obtain ⟨t, ht, heq⟩ := List.mem_map.mp h
      exact List.mem_append_left _ ((Prod.mk.inj heq).2 ▸ ht)
    · obtain ⟨t, ht, heq⟩ := List.mem_map.mp h
      exact List.mem_append_right _ ((Prod.mk.inj heq).2 ▸ ht)
  · refine List.mem_append_right _ ?_
    dsimp only at h ⊢
    split at h
    all_goals
      obtain ⟨t, ht, heq⟩ := List.mem_map.mp h
      exact (Prod.mk.inj heq).2 ▸ ht

/-- Changing the schemas inside keeps what is resolved. -/
theorem resolved_map {τ : Type} (f : σ → τ) (n : Node σ) :
    (n.map f).withoutCell.resolved = n.resolved := by
  have hkind : (n.map f).withoutCell.kind = n.kind := by
    obtain ⟨form, _⟩ := n
    cases form <;> rfl
  have hform : (n.map f).withoutCell.form.references = n.form.references := by
    obtain ⟨form, _⟩ := n
    cases form with
    | alternatives form => exact Schema.references_map f form
    | _ => rfl
  have hrules : (n.rules.map (Rule.map f)).flatMap (Rule.resolved n.kind) =
      n.rules.flatMap (Rule.resolved n.kind) := by
    rw [List.flatMap_map]
    apply List.flatMap_congr
    intro rule _
    unfold Rule.resolved Rule.map
    dsimp only
    cases n.kind.rule? rule.name with
    | none => rfl
    -- references stand beside the schemas of the arguments
    | some spec =>
      dsimp only
      rw [List.zip_map_right, List.filterMap_map]
      congr 1
      funext ⟨p, arg⟩
      cases arg <;> rfl
  unfold resolved
  rw [hform, hkind]
  show (n.rules.map (Rule.map f)).flatMap _ ++ _ ++ _ ++ _ = _
  rw [hrules]
  rfl

/-- Of changed schemas those are visited whose originals were. -/
theorem visited_map {τ : Type} (f : σ → τ) (n : Node σ) :
    (n.map f).withoutCell.visited = n.visited.map fun part => (part.1, f part.2) := by
  have hpair (levels : Nat) (inner : List σ) : (inner.map f).map (levels, ·) =
      (inner.map (levels, ·)).map fun part => (part.1, f part.2) := by
    rw [List.map_map, List.map_map]
    rfl
  have hrules :=
    flatMap_map_schemas (Rule.map f) Rule.schemas Rule.schemas (Rule.schemas_map f) n.rules
  obtain ⟨form, flags, empty, allowed, denied, rules, prefs, notes⟩ := n
  have hform := Form.schemas_map f form
  unfold visited
  show (empty.map f).toList.map _ ++ ((rules.map (Rule.map f)).flatMap Rule.schemas).map _ ++ _ = _
  rw [hrules, Option.toList_map, List.map_append, List.map_append, hpair, hpair]
  congr 1
  cases form with
  | alternatives form =>
    show ((form.map f).schemas).map (0, ·) = _
    rw [show (form.map f).schemas = form.schemas.map f from hform, hpair]
  | array form => exact (congrArg (List.map _) hform).trans (hpair 1 _)
  | object form => exact (congrArg (List.map _) hform).trans (hpair 1 _)
  | _ => rfl

end Node

namespace Schema

/-- What a schema looks up itself. -/
def looks (s : Schema) : List Look := s.node.looks

/-- The schemas that a schema hands values on to, with how much further in these stand. -/
def visited (s : Schema) : List (Nat × Schema) := s.node.visited

/-- Marks do not bear on what is looked up. -/
theorem looks_erase (keep : Bool) (s : Schema) : (s.erase keep).looks = s.looks := by
  unfold looks Node.looks
  rw [node_erase, Node.resolved_map]
  rfl

/-- Marks do not bear on what is visited. -/
theorem visited_erase (keep : Bool) (s : Schema) :
    (s.erase keep).visited = s.visited.map fun part => (part.1, part.2.erase keep) := by
  unfold visited
  rw [node_erase, Node.visited_map]

/-- Schemas that are the same but for marks visit schemas that are, at the same levels. -/
theorem visited_congr {keep : Bool} {s t : Schema} (h : t.erase keep = s.erase keep) {levels : Nat}
    {child : Schema} (hchild : (levels, child) ∈ s.visited) :
    ∃ other, (levels, other) ∈ t.visited ∧ other.erase keep = child.erase keep := by
  have hvisited : t.visited.map (fun part => (part.1, part.2.erase keep)) =
      s.visited.map fun part => (part.1, part.2.erase keep) := by
    rw [← visited_erase, ← visited_erase, h]
  have hmem : (levels, child.erase keep) ∈ t.visited.map fun part => (part.1, part.2.erase keep) :=
    hvisited ▸ List.mem_map.mpr ⟨(levels, child), hchild, rfl⟩
  obtain ⟨⟨further, other⟩, hother, heq⟩ := List.mem_map.mp hmem
  obtain ⟨hlevels, hsame⟩ := Prod.mk.inj heq
  obtain rfl : further = levels := hlevels
  exact ⟨other, hother, hsame⟩

/-- Schemas that are the same but for marks are lazy together, with one generator. -/
theorem generator_congr {keep : Bool} {s t : Schema} (h : t.erase keep = s.erase keep)
    {form : LazyForm} (hform : s.node.form = .lazy form) :
    ∃ other, t.node.form = .lazy other ∧ other.generator = form.generator := by
  have heq : (t.erase keep).node.form = (s.erase keep).node.form := by rw [h]
  rw [node_erase, node_erase] at heq
  have heq : (t.node.form.map (erase keep)).withoutCell =
      (s.node.form.map (erase keep)).withoutCell := heq
  rw [hform] at heq
  cases ht : t.node.form with
  | lazy other =>
    rw [ht] at heq
    have heq : ({ other with cell := none } : LazyForm) = { form with cell := none } :=
      Form.lazy.inj heq
    exact ⟨other, rfl, (LazyForm.mk.inj heq).1⟩
  | _ =>
    rw [ht] at heq
    exact absurd heq (by simp [Form.map, Form.withoutCell])

/-- `t` takes part in checks by `s`, so many levels further in. -/
inductive Occurs (env : Environment) (s : Schema) : Nat → Schema → Prop
  | self : Occurs env s 0 s
  | inner {depth levels : Nat} {t child : Schema} : Occurs env s depth t →
      (levels, child) ∈ t.visited → Occurs env s (depth + levels) child
  | made {depth used : Nat} {t : Schema} {form : LazyForm} : Occurs env s depth t →
      t.node.form = .lazy form → Occurs env s depth (env.made form.generator used)

variable {env : Environment}

/-- What takes part in a part takes part. -/
theorem Occurs.trans {s t u : Schema} {depth further : Nat} (h : Occurs env s depth t)
    (htu : Occurs env t further u) : Occurs env s (depth + further) u := by
  induction htu with
  | self => exact h
  | inner _ hchild ih => exact Nat.add_assoc .. ▸ .inner ih hchild
  | made _ hform ih => exact .made ih hform

/-- Marks do not bear on what takes part. -/
theorem Occurs.congr {keep : Bool} {s s' t : Schema} {depth : Nat}
    (h : s'.erase keep = s.erase keep)
    (ht : Occurs env s depth t) : ∃ u, Occurs env s' depth u ∧ u.erase keep = t.erase keep := by
  induction ht with
  | self => exact ⟨s', .self, h⟩
  | inner _ hchild ih =>
    obtain ⟨u, hu, heq⟩ := ih
    obtain ⟨other, hother, heq⟩ := visited_congr heq hchild
    exact ⟨other, .inner hu hother, heq⟩
  | made _ hform ih =>
    obtain ⟨u, hu, heq⟩ := ih
    obtain ⟨other, hother, hname⟩ := generator_congr heq hform
    exact ⟨_, hname ▸ .made hu hother, rfl⟩

/-- What takes part in checks by a node with other flags is that node, or takes part in checks
by the node as it was. -/
theorem Occurs.of_updateFlags {s t : Schema} {f : Flags → Flags} {depth : Nat}
    (h : Occurs env (s.updateFlags f) depth t) :
    (depth = 0 ∧ t = s.updateFlags f) ∨ Occurs env s depth t := by
  induction h with
  | self => exact .inl ⟨rfl, rfl⟩
  | inner _ hchild ih =>
    rcases ih with ⟨rfl, rfl⟩ | hocc
    · exact .inr (.inner .self hchild)
    · exact .inr (.inner hocc hchild)
  | made _ hform ih =>
    rcases ih with ⟨rfl, rfl⟩ | hocc
    · exact .inr (.made .self hform)
    · exact .inr (.made hocc hform)

/-- The property holds of all that takes part in checks by the schema. -/
def Throughout (env : Environment) (P : Schema → Prop) (s : Schema) : Prop :=
  ∀ depth t, Occurs env s depth t → P t

section

variable {P : Schema → Prop} {s t : Schema}

/-- What holds throughout holds of the schema. -/
theorem Throughout.self (h : s.Throughout env P) : P s := h 0 s .self

/-- What holds throughout holds throughout every part. -/
theorem Throughout.of_occurs (h : s.Throughout env P) {depth : Nat} (ht : Occurs env s depth t) :
    t.Throughout env P :=
  fun further u hu => h (depth + further) u (ht.trans hu)

/-- What holds throughout holds throughout what is visited. -/
theorem Throughout.visited (h : s.Throughout env P) {levels : Nat} (ht : (levels, t) ∈ s.visited) :
    t.Throughout env P :=
  h.of_occurs (.inner .self ht)

/-- What holds of a schema, of all that it hands values on to and of all that is made for it holds
throughout. -/
theorem throughout_of_closed (hself : P s)
    (hvisited : ∀ t, P t → ∀ levels child, (levels, child) ∈ t.visited → P child)
    (hmade : ∀ t, P t → ∀ form, t.node.form = .lazy form →
      ∀ used, P (env.made form.generator used)) :
    s.Throughout env P := by
  intro depth t ht
  induction ht with
  | self => exact hself
  | inner _ hchild ih => exact hvisited _ ih _ _ hchild
  | made _ hform ih => exact hmade _ ih _ hform _

/-- Less may be said of all that takes part. -/
theorem Throughout.mono {Q : Schema → Prop} (h : s.Throughout env P) (himp : ∀ t, P t → Q t) :
    s.Throughout env Q :=
  fun depth t ht => himp t (h depth t ht)

/-- A property that marks do not bear on holds throughout schemas that are
the same but for marks. -/
theorem Throughout.congr (hP : ∀ t u : Schema, u.erase true = t.erase true → P t → P u)
    (hst : t.erase true = s.erase true) (h : s.Throughout env P) : t.Throughout env P := by
  intro depth u hu
  obtain ⟨v, hv, hsame⟩ := hu.congr hst.symm
  exact hP v u hsame.symm (h depth v hv)

end

/-- A look-up is made in checks by `s`, so many levels further in. -/
def Reads (env : Environment) (s : Schema) (depth : Nat) (look : Look) : Prop :=
  ∃ t, Occurs env s depth t ∧ look ∈ t.looks

/-- Marks do not bear on what is read. -/
theorem Reads.congr {keep : Bool} {s s' : Schema} {depth : Nat} {look : Look}
    (h : s'.erase keep = s.erase keep) (hr : Reads env s depth look) : Reads env s' depth look := by
  obtain ⟨t, ht, hlook⟩ := hr
  obtain ⟨u, hu, heq⟩ := ht.congr h
  refine ⟨u, hu, ?_⟩
  rw [← looks_erase keep, heq, looks_erase]
  exact hlook

/-- A node whose flags are changed, defaults apart, reads the same. -/
theorem Reads.of_updateFlags {s : Schema} {f : Flags → Flags}
    (hdefault : (f s.node.flags).default = s.node.flags.default)
    (hfailover : (f s.node.flags).failover = s.node.flags.failover) {depth : Nat} {look : Look}
    (h : Reads env (s.updateFlags f) depth look) : Reads env s depth look := by
  obtain ⟨t, ht, hlook⟩ := h
  rcases ht.of_updateFlags with ⟨rfl, rfl⟩ | hocc
  · refine ⟨s, .self, ?_⟩
    have hflags : (s.updateFlags f).looks = s.looks := by
      unfold looks Node.looks
      show _ ++ ((f s.node.flags).default.toList ++ (f s.node.flags).failover.toList).flatMap _ = _
      rw [hdefault, hfailover]
      rfl
    exact hflags ▸ hlook
  · exact ⟨t, hocc, hlook⟩

/-- Positions that are one to a check by `s`: all that it looks up, from however much further in, is
the same. -/
structure Agree (env : Environment) (s : Schema) (p q : Position) : Prop where
  path : q.path = p.path
  sees : ∀ depth look, Reads env s depth look → ∀ inside : List Value, inside.length = depth →
    ∀ value prefs path,
      look.sees value ⟨⟨path, inside ++ q.ancestors⟩, prefs, env.registry.adjusters⟩ =
      look.sees value ⟨⟨path, inside ++ p.ancestors⟩, prefs, env.registry.adjusters⟩

namespace Agree

variable {s t : Schema} {p q : Position}

/-- A position agrees with itself. -/
theorem refl (s : Schema) (p : Position) : Agree env s p p :=
  ⟨rfl, fun _ _ _ _ _ _ _ _ => rfl⟩

/-- A schema that reads no more agrees on the same positions. -/
theorem of_reads (h : Agree env s p q)
    (hreads : ∀ depth look, Reads env t depth look → Reads env s depth look) :
    Agree env t p q :=
  ⟨h.path, fun depth look hlook => h.sees depth look (hreads depth look hlook)⟩

/-- Further in, positions agree for what stands there. -/
theorem inner (h : Agree env s p q) {depth : Nat} (ht : Occurs env s depth t) (inside : List Value)
    (hinside : inside.length = depth) (path : List Segment) :
    Agree env t ⟨path, inside ++ p.ancestors⟩ ⟨path, inside ++ q.ancestors⟩ := by
  refine ⟨rfl, ?_⟩
  rintro further look ⟨u, hu, hlook⟩ more hmore value prefs path
  have hreads : Reads env s (depth + further) look := ⟨u, ht.trans hu, hlook⟩
  have hlen : (more ++ inside).length = depth + further := by
    rw [List.length_append, hmore, hinside, Nat.add_comm]
  have hsame := h.sees _ look hreads (more ++ inside) hlen value prefs path
  rw [List.append_assoc, List.append_assoc] at hsame
  exact hsame

/-- Positions that agree for a schema agree for what it hands the same value to. -/
theorem visited_zero (h : Agree env s p q) (ht : (0, t) ∈ s.visited) : Agree env t p q := by
  obtain ⟨path, outside⟩ := p
  obtain ⟨path', outside'⟩ := q
  obtain rfl : path' = path := h.path
  exact h.inner (.inner .self ht) [] rfl path'

/-- Positions that agree for a lazy schema agree for what it makes. -/
theorem made (h : Agree env s p q) {form : LazyForm}
    (hform : s.node.form = .lazy form) (used : Nat) :
    Agree env (env.made form.generator used) p q := by
  obtain ⟨path, outside⟩ := p
  obtain ⟨path', outside'⟩ := q
  obtain rfl : path' = path := h.path
  exact h.inner (.made .self hform) [] rfl path'

/-- Positions that agree for a schema agree, one level further in, for what it hands a part to. -/
theorem nest (h : Agree env s p q) (ht : (1, t) ∈ s.visited) (segment : Segment) (parent : Value) :
    Agree env t (p.nest segment parent) (q.nest segment parent) := by
  unfold Position.nest
  rw [h.path]
  exact h.inner (.inner .self ht) [parent] rfl _

/-- What the node itself looks up. -/
theorem own (h : Agree env s p q) {look : Look} (hlook : look ∈ s.looks) (value : Value)
    (prefs : Preferences) :
    look.sees value ⟨q, prefs, env.registry.adjusters⟩ =
      look.sees value ⟨p, prefs, env.registry.adjusters⟩ := by
  obtain ⟨path, outside⟩ := p
  obtain ⟨path', outside'⟩ := q
  obtain rfl : path' = path := h.path
  exact h.sees 0 look ⟨s, .self, hlook⟩ [] rfl value prefs path'

end Agree

end Schema

end Conform
