import Conform.Schema.Basic

/-!
# Schemas as trees

The schemas directly inside a node, the height of the tree, and the sibling keys that a schema
reads through its references.

Main statement: `sizeOf_child`, what is inside a schema is smaller; recursion over schemas rests on
it.
-/

namespace Conform

variable {σ : Type}

namespace Argument

def schema? : Argument σ → Option σ
  | .schema s => some s
  | _ => none

def reference? : Argument σ → Option Reference
  | .reference r => some r
  | _ => none

end Argument

def Default.reference? : Default → Option Reference
  | .reference r => some r
  | _ => none

namespace Rule

/-- The schemas among the arguments. -/
def schemas (rule : Rule σ) : List σ := rule.args.filterMap Argument.schema?

/-- The references among the arguments. -/
def references (rule : Rule σ) : List Reference := rule.args.filterMap Argument.reference?

end Rule

def KeyMatcher.schema? : KeyMatcher σ → Option σ
  | .pattern _ => none
  | .schema s => some s

def KeyPattern.schemas (p : KeyPattern σ) : List σ := p.matcher.schema?.toList ++ [p.schema]

namespace ObjectForm

/-- The children, in order of declaration. -/
def children (f : ObjectForm σ) : List (String × σ) := f.keys.getD []

/-- The schemas of the children. -/
def childSchemas (f : ObjectForm σ) : List σ := f.children.map (·.2)

end ObjectForm

def Condition.schema? : Condition σ → Option σ
  | .reference _ => none
  | .schema s => some s

def Condition.reference? : Condition σ → Option Reference
  | .reference r => some r
  | .schema _ => none

def Case.schemas (c : Case σ) : List σ := c.test.toList ++ c.branch.toList

namespace Match

def schemas : Match σ → List σ
  | .attempt s => [s]
  | .conditional condition cases otherwise =>
    condition.schema?.toList ++ cases.flatMap Case.schemas ++ otherwise.toList

def reference? : Match σ → Option Reference
  | .attempt _ => none
  | .conditional condition _ _ => condition.reference?

end Match

namespace AlternativesForm

/-- Every schema that a value may be checked against. -/
def schemas (f : AlternativesForm σ) : List σ := f.entries.flatMap Match.schemas ++ f.base.toList

/-- The references that conditionals test. -/
def references (f : AlternativesForm σ) : List Reference := f.entries.filterMap Match.reference?

end AlternativesForm

/-- The schemas directly inside a form. -/
def Form.schemas : Form σ → List σ
  | .alternatives f => f.schemas
  | .array f => f.items ++ f.ordered
  | .object f => f.childSchemas ++ f.patterns.flatMap KeyPattern.schemas
  | _ => []

/-- The schemas directly inside a node. -/
def Node.inner (n : Node σ) : List σ :=
  n.empty.toList ++ n.rules.flatMap Rule.schemas ++ n.form.schemas

namespace Schema

variable [SizeOf σ]

theorem sizeOf_toList {o : Option σ} {s : σ} (h : s ∈ o.toList) : sizeOf s < sizeOf o := by
  cases o with
  | none => simp at h
  | some t => simp at h; subst h; simp

theorem sizeOf_ruleSchemas {rule : Rule σ} {s : σ} (h : s ∈ rule.schemas) :
    sizeOf s < sizeOf rule := by
  obtain ⟨arg, harg, hs⟩ := List.mem_filterMap.1 h
  have h1 := List.sizeOf_lt_of_mem harg
  have h2 : sizeOf s < sizeOf arg := by
    cases arg <;> simp [Argument.schema?] at hs
    subst hs; simp
  cases rule
  simp only [Rule.mk.sizeOf_spec] at h1 ⊢
  omega

theorem sizeOf_patternSchemas {p : KeyPattern σ} {s : σ} (h : s ∈ p.schemas) :
    sizeOf s < sizeOf p := by
  obtain ⟨matcher, schema⟩ := p
  simp only [KeyPattern.schemas, List.mem_append, List.mem_singleton] at h
  simp only [KeyPattern.mk.sizeOf_spec]
  rcases h with h | h
  · have h1 := sizeOf_toList h
    cases matcher <;> simp [KeyMatcher.schema?] at h ⊢
    subst h; omega
  · subst h; omega

theorem sizeOf_caseSchemas {c : Case σ} {s : σ} (h : s ∈ c.schemas) : sizeOf s < sizeOf c := by
  obtain ⟨test, branch⟩ := c
  simp only [Case.schemas, List.mem_append] at h
  simp only [Case.mk.sizeOf_spec]
  rcases h with h | h <;> have h1 := sizeOf_toList h <;> omega

theorem sizeOf_matchSchemas {m : Match σ} {s : σ} (h : s ∈ m.schemas) : sizeOf s < sizeOf m := by
  cases m with
  | attempt t => simp [Match.schemas] at h; subst h; simp
  | conditional condition cases otherwise =>
    simp only [Match.schemas, List.mem_append, List.mem_flatMap] at h
    simp only [Match.conditional.sizeOf_spec]
    rcases h with (h | ⟨c, hc, h⟩) | h
    · cases condition <;> simp [Condition.schema?] at h ⊢
      subst h; omega
    · have h1 := List.sizeOf_lt_of_mem hc
      have h2 := sizeOf_caseSchemas h
      omega
    · have h1 := sizeOf_toList h
      omega

theorem sizeOf_childSchemas {f : ObjectForm σ} {s : σ} (h : s ∈ f.childSchemas) :
    sizeOf s < sizeOf f := by
  obtain ⟨keys, order, renames, dependencies, patterns, unknown⟩ := f
  simp only [ObjectForm.mk.sizeOf_spec]
  cases keys with
  | none => simp [ObjectForm.childSchemas, ObjectForm.children] at h
  | some children =>
    simp only [ObjectForm.childSchemas, ObjectForm.children, Option.getD_some, List.mem_map] at h
    obtain ⟨⟨key, t⟩, hc, rfl⟩ := h
    have h1 := List.sizeOf_lt_of_mem hc
    simp only [Prod.mk.sizeOf_spec, Option.some.sizeOf_spec] at h1 ⊢
    omega

theorem sizeOf_formSchemas {f : Form σ} {s : σ} (h : s ∈ f.schemas) : sizeOf s < sizeOf f := by
  cases f with
  | alternatives f =>
    obtain ⟨entries, base⟩ := f
    simp only [Form.schemas, AlternativesForm.schemas, List.mem_append, List.mem_flatMap] at h
    simp only [Form.alternatives.sizeOf_spec, AlternativesForm.mk.sizeOf_spec]
    rcases h with ⟨m, hm, h⟩ | h
    · have h1 := List.sizeOf_lt_of_mem hm
      have h2 := sizeOf_matchSchemas h
      omega
    · have h1 := sizeOf_toList h
      omega
  | array f =>
    obtain ⟨items, ordered, sparse, single⟩ := f
    simp only [Form.schemas, List.mem_append] at h
    simp only [Form.array.sizeOf_spec, ArrayForm.mk.sizeOf_spec]
    rcases h with h | h <;> have h1 := List.sizeOf_lt_of_mem h <;> omega
  | object f =>
    simp only [Form.schemas, List.mem_append, List.mem_flatMap] at h
    simp only [Form.object.sizeOf_spec]
    rcases h with h | ⟨p, hp, h⟩
    · have h1 := sizeOf_childSchemas h
      omega
    · have h1 := List.sizeOf_lt_of_mem hp
      have h2 := sizeOf_patternSchemas h
      cases f
      simp only [ObjectForm.mk.sizeOf_spec] at h1 ⊢
      omega
  | _ => simp [Form.schemas] at h

/-- The schemas directly inside a schema. -/
def inner (s : Schema) : List Schema := s.node.inner

/-- What is inside a schema is smaller. -/
theorem sizeOf_child {s child : Schema} (h : child ∈ s.inner) : sizeOf child < sizeOf s := by
  obtain ⟨⟨form, flags, empty, allowed, denied, rules, prefs, notes⟩, stamp⟩ := s
  simp only [inner, Node.inner, List.mem_append, List.mem_flatMap] at h
  simp only [Schema.mk.sizeOf_spec, Node.mk.sizeOf_spec]
  rcases h with (h | ⟨rule, hr, h⟩) | h
  · have h1 := sizeOf_toList h
    omega
  · have h1 := List.sizeOf_lt_of_mem hr
    have h2 := sizeOf_ruleSchemas h
    omega
  · have h1 := sizeOf_formSchemas h
    omega

/-- How many schemas stand inside one another, at most. -/
def height (s : Schema) : Nat :=
  (s.inner.attach.map fun ⟨child, _⟩ => child.height).foldl max 0 + 1
  termination_by sizeOf s
  decreasing_by exact sizeOf_child ‹_›

/-- The references of a node itself. -/
def ownReferences (s : Schema) : List Reference :=
  let n := s.node
  n.rules.flatMap Rule.references ++ n.allowed.referenceItems ++ n.denied.referenceItems ++
    (n.flags.default.toList ++ n.flags.failover.toList).filterMap Default.reference? ++
    match n.form with
    | .alternatives f => f.references
    | _ => []

/-- The inner schemas whose references count among those of the schema, and how many levels further
down they look at the input. -/
def consulted (s : Schema) : List (Nat × Schema) :=
  (s.node.rules.flatMap Rule.schemas).map (0, ·) ++
    match s.node.form with
    | .object f => f.childSchemas.map (1, ·)
    | .array f => (f.items ++ f.ordered).map (1, ·)
    | .alternatives f => f.schemas.map (0, ·)
    | _ => []

theorem mem_inner_of_consulted {s child : Schema} {levels : Nat}
    (h : (levels, child) ∈ s.consulted) :
    child ∈ s.inner := by
  obtain ⟨⟨form, flags, empty, allowed, denied, rules, prefs, notes⟩, stamp⟩ := s
  simp only [consulted, List.mem_append, List.mem_map, Prod.mk.injEq] at h
  simp only [inner, Node.inner, List.mem_append]
  rcases h with ⟨t, ht, -, rfl⟩ | h
  · exact .inl (.inr ht)
  · refine .inr ?_
    cases form <;> simp only [Form.schemas, List.mem_map, List.mem_append, Prod.mk.injEq,
      List.not_mem_nil] at h ⊢
    · obtain ⟨t, ht, -, rfl⟩ := h; exact ht
    · obtain ⟨t, ht, -, rfl⟩ := h; exact ht
    · obtain ⟨t, ht, -, rfl⟩ := h; exact .inl ht

/-- The sibling keys that the schema reads through references, seen from `levels` up. -/
def siblingRefs (levels : Nat) (s : Schema) : List String :=
  s.ownReferences.filterMap (·.firstStepAt? levels) ++
    s.consulted.attach.flatMap fun ⟨(further, child), _⟩ => child.siblingRefs (levels + further)
  termination_by sizeOf s
  decreasing_by exact sizeOf_child (mem_inner_of_consulted ‹_›)

end Schema

end Conform
