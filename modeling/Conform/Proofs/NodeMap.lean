import Mathlib.Data.List.Basic
import Conform.Schema.Traverse

/-!
# Changing what is inside a node

A schema is a node with schemas inside: those of its children, items, entries and rules, and the one
that says what counts as empty. `Node.map` changes the schemas directly inside a node. What is
inside afterwards is what was inside, changed (`Node.inner_map`); changes that agree on what is
inside are one (`Node.map_congr`); two changes in a row are one (`Node.map_map`); and no change
inside is no change of the node. Each of these four goes through the parts that a node has: rules
and their arguments, key patterns and children, cases and entries, then the form and the node.

The node is told of with any kind of thing inside, not only with schemas. Descriptions are nodes
with descriptions inside, so what is proved here of a change from schemas to schemas serves as well
for writing a schema down and for building it again.

At the end stands what a change at every depth is proved by. `Schema.Within` says what stands inside
a schema at any depth, and `Schema.Everywhere` what holds of all of it. A property that holds
everywhere holds of the schema and everywhere in the schemas directly inside it (`everywhere_iff`),
and `inner_induction` proves a property of all schemas from what it says of the schemas inside.
-/

namespace Conform

/-! ### What is inside a changed node -/

section Map

variable {σ τ υ : Type} {f g : σ → τ}

/-- The schemas among the arguments of a changed rule are the changed ones. -/
theorem Rule.schemas_map (f : σ → τ) (rule : Rule σ) :
    (rule.map f).schemas = rule.schemas.map f := by
  unfold Rule.schemas Rule.map
  rw [List.filterMap_map, List.map_filterMap]
  congr 1
  funext arg
  cases arg <;> rfl

/-- A change of the schemas inside a rule leaves its references. -/
theorem Rule.references_map (f : σ → τ) (rule : Rule σ) :
    (rule.map f).references = rule.references := by
  unfold Rule.references Rule.map
  rw [List.filterMap_map]
  congr 1
  funext arg
  cases arg <;> rfl

/-- Changes that agree on the schema of an argument are one. -/
theorem Argument.map_congr {arg : Argument σ} (h : ∀ s ∈ arg.schema?, f s = g s) :
    arg.map f = arg.map g := by
  cases arg with
  | schema s => exact congrArg Argument.schema (h s rfl)
  | _ => rfl

/-- Changes that agree on the schemas of a rule are one. -/
theorem Rule.map_congr {rule : Rule σ} (h : ∀ s ∈ rule.schemas, f s = g s) :
    rule.map f = rule.map g := by
  unfold Rule.map
  congr 1
  apply List.map_congr_left
  intro arg harg
  exact Argument.map_congr fun s hs => h s (List.mem_filterMap.mpr ⟨arg, harg, hs⟩)

/-- A key pattern holds the schema of its keys and that of the values under them. -/
theorem KeyPattern.schemas_map (f : σ → τ) (p : KeyPattern σ) :
    (p.map f).schemas = p.schemas.map f := by
  obtain ⟨matcher, schema⟩ := p
  cases matcher <;> rfl

theorem KeyPattern.map_congr {p : KeyPattern σ} (h : ∀ s ∈ p.schemas, f s = g s) :
    p.map f = p.map g := by
  obtain ⟨matcher, schema⟩ := p
  unfold KeyPattern.map
  have hschema : f schema = g schema :=
    h schema (List.mem_append_right _ (List.mem_singleton_self _))
  congr 1
  cases matcher with
  | pattern p => rfl
  | schema s =>
    exact congrArg KeyMatcher.schema (h s (List.mem_append_left _ (List.mem_cons_self ..)))

theorem ObjectForm.children_map (f : σ → τ) (form : ObjectForm σ) :
    (form.map f).children = mapChildren f form.children := by
  unfold ObjectForm.children ObjectForm.map
  cases form.keys <;> rfl

/-- The schemas of the children are changed in their order. -/
theorem ObjectForm.childSchemas_map (f : σ → τ) (form : ObjectForm σ) :
    (form.map f).childSchemas = form.childSchemas.map f := by
  unfold ObjectForm.childSchemas
  rw [children_map, mapChildren, List.map_map, List.map_map]
  rfl

/-- Children are changed one by one. -/
theorem mapChildren_congr {children : List (String × σ)}
    (h : ∀ child ∈ children, f child.2 = g child.2) :
    mapChildren f children = mapChildren g children := by
  unfold mapChildren
  apply List.map_congr_left
  intro child hchild
  rw [h child hchild]

/-- The keys of children stay, and stay in order. -/
theorem keys_mapChildren (f : σ → τ) (children : List (String × σ)) :
    Members.keys (mapChildren f children) = Members.keys children := by
  unfold Members.keys mapChildren
  rw [List.map_map]
  rfl

/-- The child under a key is the changed one. -/
theorem get?_mapChildren (f : σ → τ) (children : List (String × σ)) (key : String) :
    Members.get? (mapChildren f children) key = (Members.get? children key).map f := by
  induction children with
  | nil => rfl
  | cons child rest ih =>
    show (if child.1 = key then _ else _) = Option.map f (if child.1 = key then _ else _)
    by_cases hk : child.1 = key
    · rw [if_pos hk, if_pos hk]
      rfl
    · rw [if_neg hk, if_neg hk]
      exact ih

/-- An object holds schemas for its children and for its key patterns, and for nothing else. -/
theorem ObjectForm.map_congr {form : ObjectForm σ}
    (h : ∀ s ∈ form.childSchemas ++ form.patterns.flatMap KeyPattern.schemas, f s = g s) :
    form.map f = form.map g := by
  have hkeys : form.keys.map (mapChildren f) = form.keys.map (mapChildren g) := by
    cases hform : form.keys with
    | none => rfl
    | some children =>
      refine congrArg some (mapChildren_congr fun child hchild => h child.2 ?_)
      refine List.mem_append_left _ (List.mem_map.mpr ⟨child, ?_, rfl⟩)
      rw [ObjectForm.children, hform]
      exact hchild
  have hpatterns : form.patterns.map (KeyPattern.map f) = form.patterns.map (KeyPattern.map g) := by
    apply List.map_congr_left
    intro p hp
    exact KeyPattern.map_congr fun s hs =>
      h s (List.mem_append_right _ (List.mem_flatMap.mpr ⟨p, hp, hs⟩))
  unfold ObjectForm.map
  rw [hkeys, hpatterns]

theorem Option.toList_map (f : σ → τ) (o : Option σ) : (o.map f).toList = o.toList.map f := by
  cases o <;> rfl

theorem Option.map_congr_toList {o : Option σ} (h : ∀ s ∈ o.toList, f s = g s) :
    o.map f = o.map g := by
  cases o with
  | none => rfl
  | some s => exact congrArg some (h s (List.mem_singleton_self _))

/-- A case of a conditional holds the schema it tests by and its branch. -/
theorem Case.schemas_map (f : σ → τ) (c : Case σ) : (c.map f).schemas = c.schemas.map f := by
  unfold Case.schemas Case.map
  rw [List.map_append, Option.toList_map, Option.toList_map]

theorem Case.map_congr {c : Case σ} (h : ∀ s ∈ c.schemas, f s = g s) : c.map f = c.map g := by
  unfold Case.map
  rw [Option.map_congr_toList fun s hs => h s (List.mem_append_left _ hs),
    Option.map_congr_toList fun s hs => h s (List.mem_append_right _ hs)]

/-- What is inside the parts of a list is changed part by part. -/
theorem flatMap_map_schemas {α β : Type} (change : α → β) (inner : α → List σ) (inner' : β → List τ)
    (h : ∀ a, inner' (change a) = (inner a).map f) (items : List α) :
    (items.map change).flatMap inner' = (items.flatMap inner).map f := by
  rw [List.flatMap_map, List.map_flatMap]
  congr 1
  funext a
  exact h a

/-- An entry of alternatives is a schema to try, or a conditional with its cases. -/
theorem Match.schemas_map (f : σ → τ) (m : Match σ) : (m.map f).schemas = m.schemas.map f := by
  cases m with
  | attempt s => rfl
  | conditional condition cases otherwise =>
    have hcases :=
      flatMap_map_schemas (Case.map f) Case.schemas Case.schemas (Case.schemas_map f) cases
    show (condition.map f).schema?.toList ++ _ ++ _ = _
    rw [hcases, Option.toList_map, Match.schemas, List.map_append, List.map_append]
    cases condition <;> rfl

theorem Match.map_congr {m : Match σ} (h : ∀ s ∈ m.schemas, f s = g s) : m.map f = m.map g := by
  cases m with
  | attempt s => exact congrArg Match.attempt (h s (List.mem_singleton_self _))
  | conditional condition cases otherwise =>
    have hcondition : condition.map f = condition.map g := by
      cases condition with
      | reference r => rfl
      | schema s =>
        exact congrArg Condition.schema
          (h s (List.mem_append_left _ (List.mem_append_left _ (List.mem_singleton_self _))))
    have hcases : cases.map (Case.map f) = cases.map (Case.map g) := by
      apply List.map_congr_left
      intro c hc
      refine Case.map_congr fun s hs => h s (List.mem_append_left _ (List.mem_append_right _ ?_))
      exact List.mem_flatMap.mpr ⟨c, hc, hs⟩
    have hotherwise : otherwise.map f = otherwise.map g :=
      Option.map_congr_toList fun s hs => h s (List.mem_append_right _ hs)
    show Match.conditional _ _ _ = Match.conditional _ _ _
    rw [hcondition, hcases, hotherwise]

/-- What is inside a changed form is what was inside, changed. -/
theorem Form.schemas_map (f : σ → τ) (form : Form σ) :
    (form.map f).schemas = form.schemas.map f := by
  cases form with
  | alternatives form =>
    have hentries := flatMap_map_schemas (Match.map f) Match.schemas Match.schemas
      (Match.schemas_map f) form.entries
    show (form.entries.map (Match.map f)).flatMap Match.schemas ++ (form.base.map f).toList = _
    rw [hentries, Option.toList_map, ← List.map_append]
    rfl
  | array form => exact (List.map_append ..).symm
  | object form =>
    have hpatterns := flatMap_map_schemas (KeyPattern.map f) KeyPattern.schemas KeyPattern.schemas
      (KeyPattern.schemas_map f) form.patterns
    show (form.map f).childSchemas ++
      (form.patterns.map (KeyPattern.map f)).flatMap KeyPattern.schemas = _
    rw [ObjectForm.childSchemas_map, hpatterns, ← List.map_append]
    rfl
  | _ => rfl

/-- Changes that agree on the schemas of a form are one. -/
theorem Form.map_congr {form : Form σ} (h : ∀ s ∈ form.schemas, f s = g s) :
    form.map f = form.map g := by
  cases form with
  | alternatives form =>
    have hentries : form.entries.map (Match.map f) = form.entries.map (Match.map g) := by
      apply List.map_congr_left
      intro m hm
      exact Match.map_congr fun s hs =>
        h s (List.mem_append_left _ (List.mem_flatMap.mpr ⟨m, hm, hs⟩))
    have hbase : form.base.map f = form.base.map g :=
      Option.map_congr_toList fun s hs => h s (List.mem_append_right _ hs)
    show Form.alternatives ⟨_, _⟩ = Form.alternatives ⟨_, _⟩
    rw [hentries, hbase]
  | array form =>
    have hitems : form.items.map f = form.items.map g :=
      List.map_congr_left fun s hs => h s (List.mem_append_left _ hs)
    have hordered : form.ordered.map f = form.ordered.map g :=
      List.map_congr_left fun s hs => h s (List.mem_append_right _ hs)
    show Form.array ⟨_, _, _, _⟩ = Form.array ⟨_, _, _, _⟩
    rw [hitems, hordered]
  | object form => exact congrArg Form.object (ObjectForm.map_congr h)
  | _ => rfl

/-- What is inside a changed node is what was inside, changed. -/
theorem Node.inner_map (f : σ → τ) (n : Node σ) : (n.map f).inner = n.inner.map f := by
  have hrules :=
    flatMap_map_schemas (Rule.map f) Rule.schemas Rule.schemas (Rule.schemas_map f) n.rules
  show (n.empty.map f).toList ++ (n.rules.map (Rule.map f)).flatMap Rule.schemas
    ++ (n.form.map f).schemas = _
  rw [hrules, Form.schemas_map, Option.toList_map, ← List.map_append, ← List.map_append]
  rfl

/-- Changes that agree on what is inside are one. -/
theorem Node.map_congr {n : Node σ} (h : ∀ s ∈ n.inner, f s = g s) : n.map f = n.map g := by
  have hempty : n.empty.map f = n.empty.map g :=
    Option.map_congr_toList fun s hs => h s (List.mem_append_left _ (List.mem_append_left _ hs))
  have hrules : n.rules.map (Rule.map f) = n.rules.map (Rule.map g) := by
    apply List.map_congr_left
    intro rule hrule
    refine Rule.map_congr fun s hs => h s (List.mem_append_left _ (List.mem_append_right _ ?_))
    exact List.mem_flatMap.mpr ⟨rule, hrule, hs⟩
  have hform : n.form.map f = n.form.map g :=
    Form.map_congr fun s hs => h s (List.mem_append_right _ hs)
  unfold Node.map
  rw [hempty, hrules, hform]

end Map

section Compose

variable {σ τ υ : Type} (f : σ → τ) (g : τ → υ)

/-- Two changes of a rule in a row are one. -/
theorem Rule.map_map (rule : Rule σ) : (rule.map f).map g = rule.map (g ∘ f) := by
  unfold Rule.map
  rw [List.map_map]
  congr 2
  funext arg
  cases arg <;> rfl

theorem KeyPattern.map_map (p : KeyPattern σ) : (p.map f).map g = p.map (g ∘ f) := by
  obtain ⟨matcher, schema⟩ := p
  cases matcher <;> rfl

theorem ObjectForm.map_map (form : ObjectForm σ) : (form.map f).map g = form.map (g ∘ f) := by
  have hpatterns : (form.patterns.map (KeyPattern.map f)).map (KeyPattern.map g) =
      form.patterns.map (KeyPattern.map (g ∘ f)) := by
    rw [List.map_map]
    exact List.map_congr_left fun p _ => KeyPattern.map_map f g p
  have hkeys : (form.keys.map (mapChildren f)).map (mapChildren g) =
      form.keys.map (mapChildren (g ∘ f)) := by
    rw [Option.map_map]
    congr 1
    funext children
    show mapChildren g (mapChildren f children) = _
    unfold mapChildren
    rw [List.map_map]
    rfl
  unfold ObjectForm.map
  rw [hpatterns, hkeys]

theorem Case.map_map (c : Case σ) : (c.map f).map g = c.map (g ∘ f) := by
  unfold Case.map
  rw [Option.map_map, Option.map_map]

theorem Match.map_map (m : Match σ) : (m.map f).map g = m.map (g ∘ f) := by
  cases m with
  | attempt s => rfl
  | conditional condition cases otherwise =>
    have hcases : (cases.map (Case.map f)).map (Case.map g) = cases.map (Case.map (g ∘ f)) := by
      rw [List.map_map]
      exact List.map_congr_left fun c _ => Case.map_map f g c
    have hcondition : (condition.map f).map g = condition.map (g ∘ f) := by
      cases condition <;> rfl
    show Match.conditional _ _ _ = Match.conditional _ _ _
    rw [hcases, hcondition, Option.map_map]

theorem Form.map_map (form : Form σ) : (form.map f).map g = form.map (g ∘ f) := by
  cases form with
  | alternatives form =>
    have hentries : (form.entries.map (Match.map f)).map (Match.map g) =
        form.entries.map (Match.map (g ∘ f)) := by
      rw [List.map_map]
      exact List.map_congr_left fun m _ => Match.map_map f g m
    show Form.alternatives ⟨(form.entries.map (Match.map f)).map (Match.map g),
      (form.base.map f).map g⟩ = _
    rw [hentries, Option.map_map]
    rfl
  | array form =>
    show Form.array ⟨(form.items.map f).map g, (form.ordered.map f).map g, form.sparse,
      form.single⟩ = _
    rw [List.map_map, List.map_map]
    rfl
  | object form => exact congrArg Form.object (ObjectForm.map_map f g form)
  | _ => rfl

/-- Two changes of what is inside a node are one change. -/
theorem Node.map_map (n : Node σ) : (n.map f).map g = n.map (g ∘ f) := by
  have hrules : (n.rules.map (Rule.map f)).map (Rule.map g) = n.rules.map (Rule.map (g ∘ f)) := by
    rw [List.map_map]
    exact List.map_congr_left fun rule _ => Rule.map_map f g rule
  unfold Node.map
  rw [hrules, Form.map_map, Option.map_map]

end Compose

section Identity

variable {σ : Type}

theorem Argument.map_id (arg : Argument σ) : arg.map id = arg := by cases arg <;> rfl

/-- No change inside a rule is no change of the rule. -/
theorem Rule.map_id (rule : Rule σ) : rule.map id = rule := by
  obtain ⟨name, args⟩ := rule
  unfold Rule.map
  rw [show (Argument.map id : Argument σ → Argument σ) = id from
    funext Argument.map_id, List.map_id]

theorem KeyPattern.map_id (p : KeyPattern σ) : p.map id = p := by
  obtain ⟨matcher, schema⟩ := p
  cases matcher <;> rfl

theorem ObjectForm.map_id (form : ObjectForm σ) : form.map id = form := by
  obtain ⟨keys, order, renames, dependencies, patterns, unknown⟩ := form
  have hkeys : (mapChildren id : List (String × σ) → List (String × σ)) = id :=
    funext fun children => List.map_id children
  unfold ObjectForm.map
  rw [show (KeyPattern.map id : KeyPattern σ → KeyPattern σ) = id from funext KeyPattern.map_id,
    List.map_id, hkeys, Option.map_id_apply]

theorem Case.map_id (c : Case σ) : c.map id = c := by
  obtain ⟨test, branch⟩ := c
  cases test <;> cases branch <;> rfl

theorem Match.map_id (m : Match σ) : m.map id = m := by
  cases m with
  | attempt s => rfl
  | conditional condition cases otherwise =>
    have hcondition : condition.map id = condition := by
      cases condition <;> rfl
    show Match.conditional (condition.map id) (cases.map (Case.map id)) (otherwise.map id) = _
    rw [show (Case.map id : Case σ → Case σ) = id from funext Case.map_id, List.map_id,
      Option.map_id_apply, hcondition]

theorem Form.map_id (form : Form σ) : form.map id = form := by
  cases form with
  | alternatives f =>
    show Form.alternatives ⟨f.entries.map (Match.map id), f.base.map id⟩ = _
    rw [show (Match.map id : Match σ → Match σ) = id from funext Match.map_id, List.map_id,
      Option.map_id_apply]
  | array f =>
    show Form.array ⟨f.items.map id, f.ordered.map id, f.sparse, f.single⟩ = _
    rw [List.map_id, List.map_id]
  | object f => exact congrArg Form.object (ObjectForm.map_id f)
  | _ => rfl

end Identity

/-! ### At every depth -/

namespace Schema

/-- `t` stands inside `s`, at any depth; every schema stands inside itself. -/
inductive Within (s : Schema) : Schema → Prop
  | self : Within s s
  | inner {t child : Schema} : Within s t → child ∈ t.inner → Within s child

/-- What stands inside something inside stands inside. -/
theorem Within.trans {s t u : Schema} (hst : Within s t) (htu : Within t u) : Within s u := by
  induction htu with
  | self => exact hst
  | inner _ hchild ih => exact .inner ih hchild

/-- What stands in something directly inside stands inside. -/
theorem Within.of_inner {s child t : Schema} (hchild : child ∈ s.inner) (h : Within child t) :
    Within s t :=
  Within.trans (.inner .self hchild) h

/-- The property holds of every schema inside. -/
def Everywhere (P : Schema → Prop) (s : Schema) : Prop := ∀ t, Within s t → P t

/-- What holds everywhere in a schema holds of the schema. -/
theorem Everywhere.self {P : Schema → Prop} {s : Schema} (h : Everywhere P s) : P s := h s .self

/-- What holds everywhere in a schema holds everywhere in what is directly inside. -/
theorem Everywhere.inner {P : Schema → Prop} {s child : Schema} (h : Everywhere P s)
    (hchild : child ∈ s.inner) : Everywhere P child :=
  fun t ht => h t (ht.of_inner hchild)

/-- What holds everywhere holds of the schema and everywhere in what is directly inside, and the
other way round: by this a property is proved node by node. -/
theorem everywhere_iff {P : Schema → Prop} {s : Schema} :
    Everywhere P s ↔ P s ∧ ∀ child ∈ s.inner, Everywhere P child := by
  constructor
  · exact fun h => ⟨h.self, fun child hchild => h.inner hchild⟩
  · rintro ⟨hself, hinner⟩ t ht
    have hcases : t = s ∨ ∃ child ∈ s.inner, Within child t := by
      induction ht with
      | self => exact .inl rfl
      | inner _ hchild ih =>
        rcases ih with rfl | ⟨c, hc, hin⟩
        · exact .inr ⟨_, hchild, .self⟩
        · exact .inr ⟨c, hc, .inner hin hchild⟩
    rcases hcases with rfl | ⟨child, hchild, hin⟩
    · exact hself
    · exact hinner child hchild t hin

/-- What follows from something that holds everywhere holds everywhere. -/
theorem Everywhere.mono {P Q : Schema → Prop} {s : Schema} (h : Everywhere P s)
    (himp : ∀ t, P t → Q t) : Everywhere Q s :=
  fun t ht => himp t (h t ht)

/-- Two properties that hold everywhere hold together everywhere. -/
theorem Everywhere.and {P Q : Schema → Prop} {s : Schema} (hP : Everywhere P s)
    (hQ : Everywhere Q s) : Everywhere (fun t => P t ∧ Q t) s :=
  fun t ht => ⟨hP t ht, hQ t ht⟩

/-- Induction on what is inside. -/
theorem inner_induction {P : Schema → Prop} (h : ∀ s, (∀ child ∈ s.inner, P child) → P s)
    (s : Schema) : P s :=
  h s fun child _ => inner_induction h child
  termination_by sizeOf s
  decreasing_by exact sizeOf_child ‹_›

end Schema

end Conform
