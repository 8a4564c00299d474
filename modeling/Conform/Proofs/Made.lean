import Conform.Proofs.Calls

/-!
# Properties of all schemas that are made

A property of single nodes that every call keeps holds at every depth of what is made. `Kept` is
what has to be shown of the property. Calls that change one node are told apart there from those
that go through a whole schema: `concat` merges the children of both sides, and `when` merges its
schema into each branch.

A call changes a node, or some schemas inside it, or it puts schemas that were handed over into it.
For the first two it is enough that the property survives the change of one node; for the last the
property has to hold of what is handed over, and that is the induction over how a schema was made.
So what has to be shown of a property (`Kept`) never mentions more than one level of a schema, and
the depth is dealt with here, once.

Merging is taken apart with some care, because it goes down two schemas at once. A merged form
stands in one of three relations to the two it was made of: it is the one, or the other, or the two
were merged field by field, children of one key being merged in turn (`FormsMerged`). From that it
is read off that everything inside comes from one side, or was merged from both.

Main statement: `Made.everywhere`.
-/

namespace Conform

namespace Schema

/-! ### What merging puts inside -/

/-- The node of merged schemas, over a form merged before. -/
def mergedNode (form : Form Schema) (a b : Node Schema) : Node Schema where
  form := form
  flags := a.flags.merge b.flags
  empty := b.empty <|> a.empty
  allowed := a.allowed.merge b.allowed b.denied
  denied := a.denied.merge b.denied b.allowed
  rules := mergeRules form.kind a.rules b.rules
  prefs := mergePatches a.prefs b.prefs
  notes := a.notes.merge b.notes

theorem concatWithin_ok {fuel : Nat} {a b c : Schema} (h : concatWithin (fuel + 1) a b = .ok c) :
    ∃ form, a.node.form.merge (concatWithin fuel) b.node.form = .ok form ∧
      c = { node := mergedNode form a.node b.node } := by
  obtain ⟨a, _⟩ := a
  obtain ⟨b, _⟩ := b
  obtain ⟨form, hform, h⟩ := Attempt.bind_ok h
  exact ⟨form, hform, (Except.ok.inj h).symm⟩

theorem mem_mergeRules {σ : Type} {kind : Kind} {a b : List (Rule σ)} {rule : Rule σ}
    (h : rule ∈ mergeRules kind a b) : rule ∈ a ∨ rule ∈ b := by
  unfold mergeRules at h
  induction b generalizing a with
  | nil => exact .inl h
  | cons first rest ih =>
    rcases ih h with hin | hrest
    · rcases mem_appendRule hin with hold | rfl
      · exact .inl hold
      · exact .inr (List.mem_cons_self ..)
    · exact .inr (List.mem_cons_of_mem _ hrest)

theorem mem_orElse {a b : Option Schema} {s : Schema} (h : s ∈ (b <|> a).toList) :
    s ∈ a.toList ∨ s ∈ b.toList := by
  cases b with
  | none => exact .inl h
  | some t => exact .inr h

section Merge

variable {merge : Schema → Schema → Except SchemaError Schema}

/-- The children of the source as they are declared: merged with the target's, or as they were. -/
theorem mem_mergedChildren {f : ObjectForm Schema} {added merged : List (String × Schema)}
    (h : f.mergedChildren merge added = .ok merged) {entry : String × Schema}
    (hentry : entry ∈ merged) :
    entry ∈ added ∨ ∃ old new, (entry.1, old) ∈ f.children ∧ (entry.1, new) ∈ added ∧
      merge old new = .ok entry.2 := by
  obtain ⟨⟨key, new⟩, hnew, hstep⟩ := Attempt.mem_of_mapM h hentry
  dsimp only at hstep
  cases hget : Members.get? f.children key with
  | none =>
    rw [hget] at hstep
    obtain rfl := Except.ok.inj hstep
    exact .inl hnew
  | some old =>
    rw [hget] at hstep
    obtain ⟨result, hresult, rfl⟩ := Attempt.map_ok hstep
    exact .inr ⟨old, new, Members.mem_of_get? hget, hnew, hresult⟩

/-- An object form after another is merged in: the children are declared, if the source has any, and
the renames made. -/
theorem mergeObject_ok {a b form : ObjectForm Schema} (h : a.merge merge b = .ok form) :
    ∃ base renamed : ObjectForm Schema,
      (b.keys = none ∧ base = a ∨ ∃ others merged, b.keys = some others ∧
        a.mergedChildren merge others = .ok merged ∧ a.setChildren merged = .ok base) ∧
      b.renames.foldlM ObjectForm.addRename base = .ok renamed ∧
      form = { renamed with
        dependencies := renamed.dependencies ++ b.dependencies
        patterns := renamed.patterns ++ b.patterns
        unknown := b.unknown <|> renamed.unknown } := by
  unfold ObjectForm.merge at h
  dsimp only at h
  -- only declared children of the source are merged
  cases hkeys : b.keys with
  | none =>
    rw [hkeys] at h
    obtain ⟨base, hbase, h⟩ := Attempt.bind_ok h
    obtain rfl := Except.ok.inj hbase
    obtain ⟨renamed, hrenamed, h⟩ := Attempt.bind_ok h
    exact ⟨a, renamed, .inl ⟨rfl, rfl⟩, hrenamed, (Except.ok.inj h).symm⟩
  | some others =>
    rw [hkeys] at h
    obtain ⟨merged, hmerged, h⟩ := Attempt.bind_ok h
    obtain ⟨base, hset, h⟩ := Attempt.bind_ok h
    obtain ⟨renamed, hrenamed, h⟩ := Attempt.bind_ok h
    exact ⟨base, renamed, .inr ⟨others, merged, rfl, hmerged, hset⟩, hrenamed,
      (Except.ok.inj h).symm⟩

/-- Renames leave what is inside alone. -/
theorem schemas_foldlM_addRename (renames : List Rename) {f g : ObjectForm Schema}
    (h : renames.foldlM ObjectForm.addRename f = .ok g) :
    (Form.object g).schemas = (Form.object f).schemas := by
  refine Attempt.foldlM_ok (P := fun g => (Form.object g).schemas = (Form.object f).schemas)
    (fun b rename b' _ hb hstep => ?_) rfl h
  obtain ⟨-, rfl⟩ := ObjectForm.addRename_ok hstep
  exact hb

/-- How two forms are merged: one of no type gives way to the other, and those of one type are
merged field by field. -/
inductive FormsMerged (merge : Schema → Schema → Except SchemaError Schema) :
    Form Schema → Form Schema → Form Schema → Prop
  | target (a) : FormsMerged merge a .any a
  | source (b) : FormsMerged merge .any b b
  | alternatives (f g) :
      FormsMerged merge (.alternatives f) (.alternatives g) (.alternatives (f.merge g))
  | array (f g) : FormsMerged merge (.array f) (.array g) (.array (f.merge g))
  | binary (f g) : FormsMerged merge (.binary f) (.binary g) (.binary (g <|> f))
  | boolean (f g) : FormsMerged merge (.boolean f) (.boolean g) (.boolean (f.merge g))
  | date (f g) : FormsMerged merge (.date f) (.date g) (.date (g <|> f))
  | lazy (f g) : FormsMerged merge (.lazy f) (.lazy g) (.lazy g)
  | number (f g) : FormsMerged merge (.number f) (.number g) (.number (f || g))
  | object {f g form} : f.merge merge g = .ok form →
      FormsMerged merge (.object f) (.object g) (.object form)
  | string (f g) : FormsMerged merge (.string f) (.string g) (.string (f.merge g))

theorem formsMerged_of_ok {a b form : Form Schema} (h : a.merge merge b = .ok form) :
    FormsMerged merge a b form := by
  unfold Form.merge at h
  split at h
  case h_10 =>
    obtain ⟨result, hresult, rfl⟩ := Attempt.map_ok h
    exact .object hresult
  case h_12 => exact nomatch h
  all_goals
    obtain rfl := Except.ok.inj h
    constructor

/-- What is inside a merged form stood on one side, or was merged from both. -/
theorem schemas_merge {a b form : Form Schema} (h : a.merge merge b = .ok form) {child : Schema}
    (hchild : child ∈ form.schemas) :
    child ∈ a.schemas ∨ child ∈ b.schemas ∨
      ∃ old ∈ a.schemas, ∃ new ∈ b.schemas, merge old new = .ok child := by
  cases formsMerged_of_ok h with
  | target => exact .inl hchild
  | source => exact .inr (.inl hchild)
  | alternatives f g =>
    have hchild : child ∈ (f.entries ++ g.entries).flatMap Match.schemas ++
        (g.base <|> f.base).toList := hchild
    rw [List.flatMap_append] at hchild
    rcases List.mem_append.mp hchild with hentries | hbase
    · rcases List.mem_append.mp hentries with ha | hb
      · exact .inl (List.mem_append_left _ ha)
      · exact .inr (.inl (List.mem_append_left _ hb))
    · rcases mem_orElse hbase with ha | hb
      · exact .inl (List.mem_append_right _ ha)
      · exact .inr (.inl (List.mem_append_right _ hb))
  | array f g =>
    have hchild : child ∈ (f.items ++ g.items) ++ (f.ordered ++ g.ordered) := hchild
    rcases List.mem_append.mp hchild with hitems | hordered
    · rcases List.mem_append.mp hitems with ha | hb
      · exact .inl (List.mem_append_left _ ha)
      · exact .inr (.inl (List.mem_append_left _ hb))
    · rcases List.mem_append.mp hordered with ha | hb
      · exact .inl (List.mem_append_right _ ha)
      · exact .inr (.inl (List.mem_append_right _ hb))
  | @object f g _ hresult =>
    obtain ⟨base, renamed, hbase, hrenamed, rfl⟩ := mergeObject_ok hresult
    have hsame := schemas_foldlM_addRename g.renames hrenamed
    have hchild : child ∈ renamed.childSchemas ++
        (renamed.patterns ++ g.patterns).flatMap KeyPattern.schemas := hchild
    rw [List.flatMap_append, ← List.append_assoc] at hchild
    rcases List.mem_append.mp hchild with hin | hpatterns
    · have hin : child ∈ (Form.object base).schemas := hsame ▸ hin
      rcases hbase with ⟨-, rfl⟩ | ⟨others, merged, hothers, hmerged, hset⟩
      · exact .inl hin
      · rcases schemas_setChildren hset hin with ha | hnew
        · exact .inl ha
        · obtain ⟨entry, hentry, rfl⟩ := List.mem_map.mp hnew
          have hinside {e : String × Schema} (he : e ∈ others) : e.2 ∈ (Form.object g).schemas := by
            refine List.mem_append_left _ (List.mem_map_of_mem ?_)
            rw [ObjectForm.children, hothers]
            exact he
          rcases mem_mergedChildren hmerged hentry with hb | ⟨old, new, hold, hnew, hstep⟩
          · exact .inr (.inl (hinside hb))
          · exact .inr (.inr ⟨old, List.mem_append_left _ (List.mem_map_of_mem (f := (·.2)) hold),
              new, hinside hnew, hstep⟩)
    · -- patterns of the source are taken over as they are
      exact .inr (.inl (List.mem_append_right _ hpatterns))
  -- the other forms have nothing inside
  | _ => exact absurd hchild List.not_mem_nil

end Merge

/-! ### What a conditional puts inside -/

end Schema

variable {σ : Type}

/-- Whether the cases under the condition are tested. -/
def Condition.isTested : Condition σ → Bool
  | .reference _ => true
  | .schema _ => false

/-- What calls demand of a conditional: that some branch is there, and a test in each case of a
reference and in none of a schema. -/
def Match.Decides : Match σ → Prop
  | .attempt _ => True
  | .conditional condition cases otherwise =>
    (otherwise.isSome = true ∨ ∃ c ∈ cases, c.branch.isSome = true) ∧
      ∀ c ∈ cases, c.test.isSome = condition.isTested

namespace Schema

/-- Where the tests and branches of a conditional come from. -/
inductive Handed (w : When) (wrap : Schema → Except SchemaError Schema) : Schema → Prop
  | truthy : Handed w wrap isTruthy
  | test {s : Schema} : s ∈ w.schemas → Handed w wrap s
  | required {s : Schema} : s ∈ w.schemas → Handed w wrap (s.withPresence .required)
  | branch {s t : Schema} : s ∈ w.schemas → wrap s = .ok t → Handed w wrap t

theorem caseTest_handed {condition : Condition Schema} {w : When} {c : Case Schema}
    (hc : c = {} ∨ c ∈ w.cases) {wrap : Schema → Except SchemaError Schema} {test : Option Schema}
    (h : caseTest condition c.test = .ok test) {s : Schema} (hs : s ∈ test.toList) :
    Handed w wrap s := by
  unfold caseTest at h
  split at h
  next => exact absurd h (by simp)
  next =>
    obtain rfl := Except.ok.inj h
    exact absurd hs List.not_mem_nil
  next =>
    obtain rfl := Except.ok.inj h
    obtain rfl := List.mem_singleton.mp hs
    exact .truthy
  next given hgiven =>
    obtain rfl := Except.ok.inj h
    have hin : given ∈ w.schemas := by
      rcases hc with rfl | hc
      · exact absurd hgiven (by simp)
      · refine List.mem_append_left _ (List.mem_flatMap.mpr ⟨c, hc, List.mem_append_left _ ?_⟩)
        rw [hgiven]
        exact List.mem_singleton_self _
    obtain rfl := List.mem_singleton.mp hs
    -- a test that says nothing of presence demands a value
    split
    next => exact .required hin
    next => exact .test hin

theorem caseTest_isSome {condition : Condition Schema} {given test : Option Schema}
    (h : caseTest condition given = .ok test) : test.isSome = condition.isTested := by
  unfold caseTest at h
  split at h
  next => exact absurd h (by simp)
  next => exact Except.ok.inj h ▸ rfl
  next => exact Except.ok.inj h ▸ rfl
  next => exact Except.ok.inj h ▸ rfl

end Schema

/-- A case as a conditional keeps it: with a test as the condition wants it,
and its branch changed. -/
structure Case.Kept (condition : Condition Schema) (wrap : Schema → Except SchemaError Schema)
    (given kept : Case Schema) : Prop where
  test : Schema.caseTest condition given.test = .ok kept.test
  branch : given.branch.mapM wrap = .ok kept.branch

/-- The cases that a conditional is made of: one without a branch where none is given. -/
def When.casesOrOne (w : When) : List (Case Schema) := if w.cases.isEmpty then [{}] else w.cases

namespace When

variable {w : When} {c : Case Schema}

theorem mem_casesOrOne (h : c ∈ w.casesOrOne) : c = {} ∨ c ∈ w.cases := by
  unfold casesOrOne at h
  split at h
  next => exact .inl (List.mem_singleton.mp h)
  next => exact .inr h

theorem mem_casesOrOne_of_mem (h : c ∈ w.cases) : c ∈ w.casesOrOne := by
  unfold casesOrOne
  split
  next hnil => exact absurd h (by rw [List.isEmpty_iff.mp hnil]; exact List.not_mem_nil)
  next => exact h

theorem casesOrOne_ne_nil : w.casesOrOne ≠ [] := by
  unfold casesOrOne
  split
  next => exact List.cons_ne_nil _ _
  next hne => exact fun hnil => hne (List.isEmpty_iff.mpr hnil)

end When

namespace Schema

/-- Branches are handed over, and changed. -/
theorem handed_of_mapM {w : When} {wrap : Schema → Except SchemaError Schema} {o o' : Option Schema}
    (hin : ∀ s ∈ o.toList, s ∈ w.schemas) (h : o.mapM wrap = .ok o') :
    ∀ s ∈ o'.toList, Handed w wrap s := by
  intro s hs
  obtain ⟨t, ht, hwrap⟩ := Attempt.option_mapM_ok h (Option.mem_toList.mp hs)
  exact .branch (hin t (Option.mem_toList.mpr ht)) hwrap

/-- What is in a case that is kept was handed over, or is the test that is put in. -/
theorem handed_of_kept {condition : Condition Schema} {w : When}
    {wrap : Schema → Except SchemaError Schema} {given kept : Case Schema}
    (hgiven : given ∈ w.casesOrOne) (h : Case.Kept condition wrap given kept) :
    ∀ s ∈ kept.schemas, Handed w wrap s := by
  have hgiven := When.mem_casesOrOne hgiven
  intro s hs
  rcases List.mem_append.mp hs with hs | hs
  · exact caseTest_handed hgiven h.test hs
  · refine handed_of_mapM (fun t ht => ?_) h.branch s hs
    rcases hgiven with rfl | hgiven
    · exact absurd ht List.not_mem_nil
    · exact List.mem_append_left _
        (List.mem_flatMap.mpr ⟨given, hgiven, List.mem_append_right _ ht⟩)

/-- A conditional keeps what it is made of, case by case. -/
theorem conditionalEntry_cases {condition : Condition Schema} {w : When}
    {wrap : Schema → Except SchemaError Schema} {entry : Match Schema}
    (h : conditionalEntry condition w wrap = .ok entry) :
    ∃ cases otherwise, entry = .conditional condition cases otherwise ∧
      List.Forall₂ (Case.Kept condition wrap) w.casesOrOne cases ∧
      w.otherwise.mapM wrap = .ok otherwise := by
  unfold conditionalEntry at h
  split at h
  next => exact absurd h (by simp)
  next =>
    obtain ⟨cases, hcases, h⟩ := Attempt.bind_ok h
    have hall : List.Forall₂ (Case.Kept condition wrap) w.cases cases := by
      refine (Attempt.mapM_ok_iff.mp hcases).imp fun given kept hstep => ?_
      obtain ⟨test, htest, hstep⟩ := Attempt.bind_ok hstep
      obtain ⟨branch, hbranch, hstep⟩ := Attempt.bind_ok hstep
      obtain rfl := Except.ok.inj hstep
      exact ⟨htest, hbranch⟩
    unfold When.casesOrOne
    generalize w.cases = given at hall
    cases hall with
    | nil =>
      -- one case is put in, which has a test where the condition wants one, and no branch
      obtain ⟨test, htest, h⟩ := Attempt.bind_ok h
      obtain ⟨one, hone, h⟩ := Attempt.bind_ok h
      obtain rfl := Except.ok.inj hone
      obtain ⟨otherwise, hotherwise, h⟩ := Attempt.bind_ok h
      exact ⟨_, otherwise, (Except.ok.inj h).symm, .cons ⟨htest, rfl⟩ .nil, hotherwise⟩
    | cons hfirst hrest =>
      obtain ⟨all, hsame, h⟩ := Attempt.bind_ok h
      obtain rfl := Except.ok.inj hsame
      obtain ⟨otherwise, hotherwise, h⟩ := Attempt.bind_ok h
      exact ⟨_, otherwise, (Except.ok.inj h).symm, .cons hfirst hrest, hotherwise⟩

/-- A conditional without any branch is refused. -/
theorem hasBranch_of_conditionalEntry {condition : Condition Schema} {w : When}
    {wrap : Schema → Except SchemaError Schema} {entry : Match Schema}
    (h : conditionalEntry condition w wrap = .ok entry) : w.hasBranch = true := by
  unfold conditionalEntry at h
  split at h
  next => exact absurd h (by simp)
  next hbranch => simpa using hbranch

/-- The entry of a conditional decides by what was handed over, its branches changed. -/
theorem conditionalEntry_ok {condition : Condition Schema} {w : When}
    {wrap : Schema → Except SchemaError Schema} {entry : Match Schema}
    (h : conditionalEntry condition w wrap = .ok entry) :
    ∃ cases otherwise, entry = .conditional condition cases otherwise ∧ entry.Decides ∧
      ∀ s ∈ cases.flatMap Case.schemas ++ otherwise.toList, Handed w wrap s := by
  have hbranch := hasBranch_of_conditionalEntry h
  obtain ⟨cases, otherwise, rfl, hkept, hotherwise⟩ := conditionalEntry_cases h
  refine ⟨cases, otherwise, rfl, ⟨?_, fun c hc => ?_⟩, fun s hs => ?_⟩
  · unfold When.hasBranch at hbranch
    rcases Bool.or_eq_true_iff.mp hbranch with hsome | hany
    · exact .inl ((Attempt.option_mapM_isSome hotherwise).trans hsome)
    · obtain ⟨given, hgiven, hsome⟩ := List.any_eq_true.mp hany
      obtain ⟨c, hc, hstep⟩ :=
        Attempt.exists_of_mem_forall₂_left hkept (When.mem_casesOrOne_of_mem hgiven)
      exact .inr ⟨c, hc, (Attempt.option_mapM_isSome hstep.branch).trans hsome⟩
  · obtain ⟨given, -, hstep⟩ := Attempt.exists_of_mem_forall₂ hkept hc
    exact caseTest_isSome hstep.test
  · rcases List.mem_append.mp hs with hs | hs
    · obtain ⟨c, hc, hin⟩ := List.mem_flatMap.mp hs
      obtain ⟨given, hgiven, hstep⟩ := Attempt.exists_of_mem_forall₂ hkept hc
      exact handed_of_kept hgiven hstep s hin
    · exact handed_of_mapM (fun t ht => List.mem_append_right _ ht) hotherwise s hs

/-! ### What calls keep -/

/-- What has to be shown of a property of single nodes for calls to keep it. -/
structure Kept (P : Schema → Prop) : Prop where
  plain : ∀ s ∈ plain, P s
  lazily : ∀ generator, P (lazily generator)
  simple : ∀ {s t : Schema} {call : Call}, call.isSimple = true → P s →
    (∀ r ∈ call.references, r.Written) → call.apply s = .ok t → P t
  entry : ∀ {s : Schema} {condition cases otherwise}, P s →
    (∀ r ∈ condition.reference?, r.Written) →
    (Match.conditional condition cases otherwise).Decides →
    P (s.addEntry (.conditional condition cases otherwise))
  under : ∀ {condition cases otherwise base}, (∀ r ∈ condition.reference?, r.Written) →
    (Match.conditional condition cases otherwise).Decides →
    P (ofForm (.alternatives { entries := [.conditional condition cases otherwise], base }))
  merged : ∀ {merge form} {a b : Schema}, P a → P b →
    a.node.form.merge merge b.node.form = .ok form → P { node := mergedNode form a.node b.node }
  marked : ∀ {s t : Schema}, P s → t.bare = s.bare → P t

namespace Kept

variable {P : Schema → Prop}

/-- A simple call keeps the property at every depth. -/
theorem simple_everywhere (hP : Kept P) (call : Call) {s t : Schema}
    (hsimple : call.isSimple = true) (hs : Everywhere P s)
    (hinner : ∀ inner ∈ call.schemas, Everywhere P inner)
    (hwritten : ∀ r ∈ call.references, r.Written) (h : call.apply s = .ok t) : Everywhere P t := by
  rw [everywhere_iff]
  refine ⟨hP.simple hsimple hs.self hwritten h, fun child hchild => ?_⟩
  rcases inner_apply hsimple h hchild with hold | hnew
  · exact hs.inner hold
  · exact hinner child hnew

theorem withPresence_everywhere (hP : Kept P) {s : Schema} (hs : Everywhere P s)
    (presence : Presence) : Everywhere P (s.withPresence presence) :=
  hP.simple_everywhere (.presence presence) rfl hs
    (fun _ h => absurd h List.not_mem_nil) (fun _ h => absurd h List.not_mem_nil) rfl

theorem plain_everywhere (hP : Kept P) {s : Schema} (hs : s ∈ Schema.plain) : Everywhere P s := by
  rw [everywhere_iff]
  refine ⟨hP.plain s hs, fun child hchild => ?_⟩
  have hnone : ∀ s ∈ Schema.plain, s.inner = [] := by decide
  exact absurd (hnone s hs ▸ hchild) List.not_mem_nil

theorem truthy_everywhere (hP : Kept P) : Everywhere P isTruthy := by
  refine hP.withPresence_everywhere ?_ .required
  exact hP.simple_everywhere (.deny _) rfl (hP.plain_everywhere (List.mem_cons_self ..))
    (fun _ h => absurd h List.not_mem_nil) (fun _ h => absurd h List.not_mem_nil) rfl

/-- What is handed to a conditional keeps the property if the change of its branches does. -/
theorem handed_everywhere (hP : Kept P) {w : When} {wrap : Schema → Except SchemaError Schema}
    (hinner : ∀ s ∈ w.schemas, Everywhere P s)
    (hwrap : ∀ s ∈ w.schemas, ∀ t, wrap s = .ok t → Everywhere P t) {s : Schema}
    (h : Handed w wrap s) : Everywhere P s := by
  cases h with
  | truthy => exact hP.truthy_everywhere
  | test hs => exact hinner s hs
  | required hs => exact hP.withPresence_everywhere (hinner _ hs) .required
  | branch hs ht => exact hwrap _ hs s ht

/-- Merging keeps the property at every depth. -/
theorem concat_everywhere (hP : Kept P) {fuel : Nat} {a b c : Schema} (ha : Everywhere P a)
    (hb : Everywhere P b) (h : concatWithin fuel a b = .ok c) : Everywhere P c := by
  induction fuel generalizing a b c with
  | zero =>
    obtain rfl := Except.ok.inj h
    exact ha
  | succ fuel ih =>
    obtain ⟨form, hform, rfl⟩ := concatWithin_ok h
    -- what the node holds comes from the one or the other, but for children they share
    rw [everywhere_iff]
    refine ⟨hP.merged ha.self hb.self hform, fun child hchild => ?_⟩
    rcases List.mem_append.mp hchild with hbefore | hin
    · rcases List.mem_append.mp hbefore with hempty | hrules
      · rcases mem_orElse hempty with hold | hnew
        · exact ha.inner (List.mem_append_left _ (List.mem_append_left _ hold))
        · exact hb.inner (List.mem_append_left _ (List.mem_append_left _ hnew))
      · obtain ⟨rule, hrule, hin⟩ := List.mem_flatMap.mp hrules
        rcases mem_mergeRules hrule with hold | hnew
        · exact ha.inner (List.mem_append_left _ (List.mem_append_right _
            (List.mem_flatMap.mpr ⟨rule, hold, hin⟩)))
        · exact hb.inner (List.mem_append_left _ (List.mem_append_right _
            (List.mem_flatMap.mpr ⟨rule, hnew, hin⟩)))
    · rcases schemas_merge hform hin with hold | hnew | ⟨old, hold, new, hnew, hstep⟩
      · exact ha.inner (List.mem_append_right _ hold)
      · exact hb.inner (List.mem_append_right _ hnew)
      · exact ih (ha.inner (List.mem_append_right _ hold)) (hb.inner (List.mem_append_right _ hnew))
          hstep

/-- What is under a condition keeps the property: its branches, the condition and the base. -/
theorem under_everywhere (hP : Kept P) {s t : Schema} {condition : Condition Schema} {w : When}
    (hs : Everywhere P s)
    (hinner : ∀ inner ∈ condition.schema?.toList ++ w.schemas, Everywhere P inner)
    (hwritten : ∀ r ∈ condition.reference?, r.Written) (h : s.when condition w = .ok t) :
    Everywhere P t := by
  obtain ⟨entry, hentry, h⟩ := Attempt.bind_ok h
  obtain rfl := Except.ok.inj h
  obtain ⟨cases, otherwise, rfl, hdecides, hhanded⟩ := conditionalEntry_ok hentry
  refine hP.withPresence_everywhere
    (everywhere_iff.mpr ⟨hP.under hwritten hdecides, fun child hchild => ?_⟩)
    .ignore
  have hchild : child ∈ ([.conditional condition cases otherwise] : List (Match Schema)).flatMap
      Match.schemas ++ [s] := hchild
  rw [List.flatMap_singleton, Match.schemas, List.append_assoc, List.append_assoc] at hchild
  rcases List.mem_append.mp hchild with hcondition | hchild
  · exact hinner child (List.mem_append_left _ hcondition)
  · rw [← List.append_assoc] at hchild
    rcases List.mem_append.mp hchild with hin | hbase
    · refine hP.handed_everywhere (fun s hs => hinner s (List.mem_append_right _ hs)) ?_
        (hhanded child hin)
      exact fun branch hbranch t ht =>
        hP.concat_everywhere hs (hinner branch (List.mem_append_right _ hbranch)) ht
    · obtain rfl := List.mem_singleton.mp hbase
      exact hs

theorem addWhen_everywhere (hP : Kept P) {s t : Schema} {condition : Condition Schema} {w : When}
    (hs : Everywhere P s)
    (hinner : ∀ inner ∈ condition.schema?.toList ++ w.schemas, Everywhere P inner)
    (hwritten : ∀ r ∈ condition.reference?, r.Written) (h : s.addWhen condition w = .ok t) :
    Everywhere P t := by
  obtain ⟨entry, hentry, h⟩ := Attempt.bind_ok h
  obtain rfl := Except.ok.inj h
  obtain ⟨cases, otherwise, rfl, hdecides, hhanded⟩ := conditionalEntry_ok hentry
  refine everywhere_iff.mpr ⟨hP.entry hs.self hwritten hdecides, fun child hchild => ?_⟩
  rcases inner_addEntry hchild with hold | hnew
  · exact hs.inner hold
  · rw [Match.schemas, List.append_assoc] at hnew
    rcases List.mem_append.mp hnew with hcondition | hin
    · exact hinner child (List.mem_append_left _ hcondition)
    · refine hP.handed_everywhere (fun s hs => hinner s (List.mem_append_right _ hs)) ?_
        (hhanded child hin)
      intro branch hbranch t ht
      obtain rfl := Except.ok.inj ht
      exact hinner branch (List.mem_append_right _ hbranch)

theorem marked_everywhere (hP : Kept P) {s t : Schema} (hs : Everywhere P s) (h : t.bare = s.bare) :
    Everywhere P t := by
  induction s using inner_induction generalizing t with
  | h s ih =>
    have hinner : t.inner.map (erase false) = s.inner.map (erase false) := by
      rw [← inner_erase, ← inner_erase]
      exact congrArg inner h
    refine everywhere_iff.mpr ⟨hP.marked hs.self h, fun child hchild => ?_⟩
    have hmem : child.bare ∈ s.inner.map (erase false) := hinner ▸ List.mem_map_of_mem hchild
    obtain ⟨c, hc, hbare⟩ := List.mem_map.mp hmem
    exact ih c hc (hs.inner hc) hbare.symm

end Kept

/-- A property that calls keep holds at every depth of what is made, if it does so of what
there is to start from. -/
theorem Made.everywhere {P origin : Schema → Prop} (hP : Kept P)
    (horigin : ∀ s, origin s → Everywhere P s) {s : Schema} (h : Made origin s) :
    Everywhere P s := by
  induction h with
  | origin hs => exact horigin _ hs
  | plain hs => exact hP.plain_everywhere hs
  | lazily generator =>
    rw [everywhere_iff]
    exact ⟨hP.lazily generator, fun _ h => absurd h List.not_mem_nil⟩
  | @call s t call hs hinner hwritten happly ih ihinner =>
    cases call with
    | addWhen condition w =>
      exact hP.addWhen_everywhere ih ihinner
        (fun r hr => hwritten r (Option.mem_toList.mpr hr)) happly
    | under condition w =>
      exact hP.under_everywhere ih ihinner
        (fun r hr => hwritten r (Option.mem_toList.mpr hr)) happly
    | concat source =>
      exact hP.concat_everywhere ih (ihinner source (List.mem_singleton_self _)) happly
    | _ => exact hP.simple_everywhere _ rfl ih ihinner hwritten happly
  | @marked s t hs hbare ih => exact hP.marked_everywhere ih hbare

end Schema

end Conform
