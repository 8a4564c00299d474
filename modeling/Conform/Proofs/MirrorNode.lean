import Conform.Proofs.Attempt
import Conform.Proofs.MirrorArray

/-!
# Nodes and their mirrors

The rules and the steps of a node are mirrored, given that the check of what is inside is,
that lazy nodes come to schemas that may be checked either way, and what is asked of
arrays (`Site.MirrorWhole`).

Two sites are mirrors of one another if their nodes are the same but for the schemas inside, of
which the one has images under a function of those of the other, and if they stand at the same
position with the same preferences. Runs at them go in lockstep: from workshops that are related
they come to the same and leave workshops that are related, or both come to nothing. A rule gets its
arguments resolved at both sites, and they are the same but for the schemas among them, so what has
to be shown of each rule is what it does with a schema. Two rules do something with one, those that
look for a member that matches and those that assert something of a path.

The steps of a node follow one another as binding does, and `Lockstep.bind` is all that is used
between them; presence, failover and finish do not look at schemas.

Main statement: `Site.MirrorWhole.run`.
-/

namespace Conform

variable {W : Workshop → Workshop → Prop} {check : Check} {f : Schema → Schema} {a b : Site}

/-- What is inside is changed throughout, or the nodes are lazy ones of one generator. -/
theorem Form.Alike.eq_map_or_lazy {form other : Form Schema} (h : Form.Alike f form other) :
    (form.kind ≠ .lazy ∧ other = form.map f) ∨
      ∃ g g', g'.generator = g.generator ∧ form = .lazy g ∧ other = .lazy g' := by
  cases h with
  | map =>
    cases form with
    | lazy g => exact .inr ⟨g, g, rfl, rfl, rfl⟩
    | _ => exact .inl ⟨nofun, rfl⟩
  | lazy hname => exact .inr ⟨_, _, hname, rfl, rfl⟩

/-! ### What rules are given -/

namespace Site

variable {site : Site}

/-- What a rule is given as stored is one of its arguments. -/
theorem mem_args_of_given {rule : Rule Schema} {parameters : List Parameter}
    {value : Value} {given : Given}
    (hgiven : site.resolveArguments value parameters rule.args = .ok given) {name : String}
    {arg : Argument Schema}
    (hget : Members.get? given.stored name = some arg) : arg ∈ rule.args := by
  obtain ⟨values, -, hgiven⟩ := Attempt.bind_ok hgiven
  obtain rfl := Except.ok.inj hgiven
  exact (List.of_mem_zip (Members.mem_of_get? hget)).2

/-- A schema that a rule is given is one of its own. -/
theorem schema_of_given {rule : Rule Schema} {parameters : List Parameter}
    {value : Value} {given : Given}
    (hgiven : site.resolveArguments value parameters rule.args = .ok given) {name : String} :
    ∀ t ∈ given.schema? name, t ∈ rule.schemas := by
  intro t ht
  obtain ⟨arg, hget, harg⟩ := Option.bind_eq_some_iff.mp ht
  exact List.mem_filterMap.mpr ⟨arg, mem_args_of_given hgiven hget, harg⟩

/-- A schema given to a rule is one that the node hands values on to. -/
theorem visited_of_given {rule : Rule Schema} (hrule : rule ∈ site.node.rules)
    {parameters : List Parameter}
    {value : Value} {given : Given}
    (hgiven : site.resolveArguments value parameters rule.args = .ok given)
    {name : String} : ∀ t ∈ given.schema? name, (1, t) ∈ site.schema.visited := by
  intro t ht
  have hschemas : t ∈ site.node.rules.flatMap Rule.schemas :=
    List.mem_flatMap.mpr ⟨rule, hrule, schema_of_given hgiven t ht⟩
  exact List.mem_append_left _ (List.mem_append_right _ (List.mem_map_of_mem hschemas))

/-- The references that a rule resolves are among those of its node. -/
theorem resolved_of_rule {rule : Rule Schema} (hrule : rule ∈ site.node.rules) {spec : RuleSpec}
    (hspec : site.node.kind.rule? rule.name = some spec) (p : Parameter) (arg : Argument Schema)
    (hmem : (p, arg) ∈ spec.parameters.zip rule.args) (hkind : p.kind ≠ .subject) :
    ∀ r ∈ arg.reference?, r ∈ site.node.resolved := by
  intro r hr
  refine List.mem_append_left _ (List.mem_append_left _ (List.mem_append_left _ ?_))
  refine List.mem_flatMap.mpr ⟨rule, hrule, ?_⟩
  unfold Rule.resolved
  rw [hspec]
  refine List.mem_filterMap.mpr ⟨(p, arg), hmem, ?_⟩
  dsimp only
  rw [if_neg hkind]
  exact hr

/-- The schema of the values that count as missing is one that the node hands values on to. -/
theorem visited_of_empty {empty : Schema} (hempty : site.node.empty = some empty) :
    (0, empty) ∈ site.schema.visited := by
  refine List.mem_append_left _ (List.mem_append_left _ (List.mem_map.mpr ⟨empty, ?_, rfl⟩))
  exact Option.mem_toList.mpr hempty

end Site

/-! ### Rules -/

section

variable (h : a.Mirror W check f b)

include h

namespace ArrayForm

/-- Looking for a member that matches is mirrored. -/
theorem anyMatches_mirrors {schema : Schema} (hin : (1, schema) ∈ a.schema.visited) (parent : Value)
    (members : List Value) (i : Nat) :
    Lockstep W Eq (anyMatches check a schema parent i members)
      (anyMatches check b (f schema) parent i members) := by
  refine anyMatches_lockstep (fun i member => ?_) i members
  rw [h.prefs]
  exact h.below_passes hin (.index i) parent member a.prefs

/-- The rule that some member matches is mirrored. -/
theorem hasRule_mirrors (hf : Unseen f) {given : Given}
    (hin : ∀ t ∈ given.schema? "schema", (1, t) ∈ a.schema.visited) (value : Value) :
    Lockstep W Eq (hasRule check a given value) (hasRule check b (given.map f) value) := by
  unfold hasRule
  rw [Given.schema?_map, h.alike.report]
  cases value with
  | array members =>
    cases hschema : given.schema? "schema" with
    | none => exact .pure rfl
    | some schema =>
      dsimp only [Option.map]
      rw [hf.label]
      refine (anyMatches_mirrors h (hin schema hschema) _ members 0).bind ?_
      rintro found _ rfl
      split
      · exact .pure rfl
      · split <;> exact .pure rfl
  | _ => exact .pure rfl

/-- The rule that members are distinct does not look at schemas. -/
theorem uniqueRule_mirror (given : Given) (value : Value) :
    uniqueRule b (given.map f) value = uniqueRule a given value := by
  have hreport (i : Nat) : reportAt b.schema (b.position.nest (.index i) value) =
      reportAt a.schema (a.position.nest (.index i) value) := by
    refine reportAt_congr (congrArg Flags.label h.alike.flags) ?_
    show b.position.path ++ _ = a.position.path ++ _
    rw [h.agree.path]
  unfold uniqueRule
  simp only [hreport]
  rfl

/-- The rules of arrays are mirrored. -/
theorem rule_mirrors (hf : Unseen f) {given : Given}
    (hin : ∀ t ∈ given.schema? "schema", (1, t) ∈ a.schema.visited)
    (name : String) (value : Value) :
    Lockstep W Eq (rule check a name given value) (rule check b name (given.map f) value) := by
  unfold rule
  rw [h.alike.requireSize, uniqueRule_mirror h]
  dsimp only [Given.count_map]
  split
  case h_5 => exact hasRule_mirrors h hf hin value
  all_goals exact .pure rfl

end ArrayForm

namespace ObjectForm

/-- A subject in the context is resolved there, whatever the position. -/
theorem resolve_context {r : Reference} (hr : r.isContext = true) (value : Value) :
    r.resolve value b.scope = r.resolve value a.scope := by
  have htarget : r.target = .context := of_decide_eq_true hr
  unfold Reference.resolve Reference.start Reference.finish Site.scope
  rw [htarget, h.prefs, h.alike.env]

/-- Assertions are mirrored. -/
theorem assertRule_mirrors {given : Given}
    (hin : ∀ t ∈ given.schema? "schema", (1, t) ∈ a.schema.visited)
    (value : Value) :
    Lockstep W Eq (assertRule check a given value) (assertRule check b (given.map f) value) := by
  unfold assertRule
  rw [Given.subject?_map, Given.schema?_map, Given.text?_map]
  cases given.subject? "subject" with
  | none => exact .pure rfl
  | some subject =>
    cases hschema : given.schema? "schema" with
    | none => exact .pure rfl
    | some schema =>
      have hpath : b.position.path = a.position.path := h.agree.path
      -- a reference to the context is the same at both sites, another one starts from the value
      have hfound : (if subject.isContext then (subject.resolve value b.scope, [])
            else (value.reach subject.path, subject.path.map Segment.key)) =
          if subject.isContext then (subject.resolve value a.scope, [])
            else (value.reach subject.path, subject.path.map Segment.key) := by
        split
        next hcontext => rw [resolve_context h hcontext]
        next => rfl
      dsimp only [Option.map]
      rw [hfound, hpath, h.prefs]
      generalize (if subject.isContext then (subject.resolve value a.scope, [])
        else (value.reach subject.path, subject.path.map Segment.key)) = found
      obtain ⟨found, path⟩ := found
      have hvisit := hin schema hschema
      -- the schema is asked away from the node, where what it reads is still the same
      have hagree : Schema.Agree a.env schema
          ((a.position.nest (.key "") value).localize (a.position.path ++ path))
          ((b.position.nest (.key "") value).localize (a.position.path ++ path)) :=
        h.agree.inner (.inner .self hvisit) [value] rfl _
      refine ((h.inner 1 schema hvisit).passes hagree found _).bind ?_
      rintro passed _ rfl
      cases passed with
      | true => exact .pure rfl
      | false =>
        refine .pure (congrArg Except.error ?_)
        exact (congrFun
          (congrFun (congrFun (reportAt_congr (congrArg Flags.label h.alike.flags) rfl) _) _)
          _).symm

/-- The rules of objects are mirrored. -/
theorem rule_mirrors {given : Given} (hin : ∀ t ∈ given.schema? "schema", (1, t) ∈ a.schema.visited)
    (name : String) (value : Value) :
    Lockstep W Eq (rule check a name given value) (rule check b name (given.map f) value) := by
  unfold rule
  rw [h.alike.requireSize]
  dsimp only [Given.count_map]
  split
  case h_4 => exact assertRule_mirrors h hin value
  all_goals exact .pure rfl

end ObjectForm

namespace Site

/-- The rules of the type are mirrored. -/
theorem typeRule_mirrors (hf : ArrayForm.Unseen f) {given : Given}
    (hin : ∀ t ∈ given.schema? "schema", (1, t) ∈ a.schema.visited)
    (name : String) (value : Value) :
    Lockstep W Eq (a.typeRule check name given value)
      (b.typeRule check name (given.map f) value) := by
  unfold typeRule
  rcases h.alike.form.eq_map_or_lazy with ⟨-, hother⟩ | ⟨form, form', -, hform, hother⟩
  · rw [hother]
    cases a.node.form with
    | array form => exact ArrayForm.rule_mirrors h hf hin name value
    | object form => exact ObjectForm.rule_mirrors h hin name value
    | binary encoding => exact .pure (h.alike.binaryRule name given value).symm
    | date format => exact .pure (h.alike.dateRule name given value).symm
    | number allowUnsafe => exact .pure (h.alike.numberRule name given value).symm
    | string form => exact .pure (h.alike.stringRule name given value).symm
    | _ => exact .pure rfl
  · rw [hform, hother]
    exact .pure rfl

/-- A rule is mirrored. -/
theorem applyRule_mirrors (hf : ArrayForm.Unseen f) {rule : Rule Schema}
    (hrule : rule ∈ a.node.rules) (value : Value) :
    Lockstep W Eq (a.applyRule check value rule) (b.applyRule check value (rule.map f)) := by
  unfold applyRule
  rw [h.alike.kind]
  dsimp only [Rule.map]
  cases hspec : a.node.kind.rule? rule.name with
  | none => exact .pure rfl
  | some spec =>
    dsimp only
    rw [h.alike.resolveArguments (resolved_of_rule hrule hspec)]
    cases hgiven : a.resolveArguments value spec.parameters rule.args with
    | error report => exact .pure rfl
    | ok given =>
      dsimp only [Except.map]
      split
      · exact .pure (h.alike.customRule given value).symm
      · exact typeRule_mirrors h hf (visited_of_given hrule hgiven) spec.name value

/-- Rules are mirrored, one after another. -/
theorem applyRules_mirrors (hf : ArrayForm.Unseen f) {rules : List (Rule Schema)}
    (hrules : ∀ rule ∈ rules, rule ∈ a.node.rules) (value : Value) (reports : List Report) :
    Lockstep W Eq (a.applyRules check value reports rules)
      (b.applyRules check value reports (rules.map (Rule.map f))) := by
  induction rules generalizing value reports with
  | nil => exact .pure rfl
  | cons rule rest ih =>
    have ih := ih fun rule hrule => hrules rule (List.mem_cons_of_mem _ hrule)
    rw [List.map_cons]
    unfold applyRules
    refine (applyRule_mirrors h hf (hrules rule (List.mem_cons_self ..)) value).bind ?_
    rintro result _ rfl
    cases result with
    | ok value => exact ih value reports
    | error report =>
      dsimp only
      rw [h.prefs]
      split
      · exact .pure rfl
      · exact ih value _

/-! ### The steps -/

/-- Whether a value counts as nothing is asked alike on both sides. -/
theorem dropEmpty_mirrors (value : Value) :
    Lockstep W Eq (a.dropEmpty check value) (b.dropEmpty check value) := by
  unfold dropEmpty
  rw [h.alike.empty]
  cases hempty : a.node.empty with
  | none => exact .pure rfl
  | some empty =>
    dsimp only [Option.map]
    rw [h.prefs]
    split
    · refine (h.near_passes (visited_of_empty hempty) value a.prefs).bind ?_
      rintro passed _ rfl
      exact .pure rfl
    · exact .pure rfl

end Site

end

namespace Site

/-- What is known of a site and its mirror besides: what is asked of arrays, and that lazy nodes
come to schemas by which the checks are the same. -/
structure MirrorWhole (W : Workshop → Workshop → Prop) (check : Check)
    (f : Schema → Schema) (a b : Site) : Prop
    extends a.Mirror W check f b where
  unseen : ArrayForm.Unseen f
  array : ∀ form, a.node.form = .array form → form.Mirrored W check f a b
  forced : ∀ form form', a.node.form = .lazy form → b.node.form = .lazy form' →
    form'.generator = form.generator →
    Lockstep W (fun t u => ∀ value, Lockstep W Eq (check t value a.position a.prefs)
      (check u value b.position a.prefs)) (a.env.force form) (a.env.force form')

namespace MirrorWhole

variable (h : a.MirrorWhole W check f b)

include h

/-- The check of the type is mirrored. -/
theorem checkBase (value : Value) :
    Lockstep W Eq (a.checkBase check value) (b.checkBase check value) := by
  have hmirror := h.toMirror
  unfold Site.checkBase
  rcases h.alike.form.eq_map_or_lazy with ⟨hkind, hother⟩ | ⟨form, form', hname, hform, hother⟩
  · rw [hother]
    cases hform : a.node.form with
    | any => exact .pure rfl
    | alternatives form => exact AlternativesForm.check_mirrors hmirror hform value
    | array form => exact ArrayForm.base_mirrors hmirror hform h.unseen (h.array form hform) value
    | object form => exact ObjectForm.base_mirrors hmirror hform value
    | binary encoding => exact .pure (h.alike.binaryBase value).symm
    | boolean form => exact .pure (h.alike.booleanBase value).symm
    | date format => exact .pure (h.alike.dateBase format value).symm
    | number allowUnsafe => exact .pure (h.alike.numberBase allowUnsafe value).symm
    | string form => exact .pure (h.alike.stringBase value).symm
    | lazy form => exact absurd (congrArg Form.kind hform) hkind
  · rw [hform, hother, h.alike.env, h.prefs]
    exact (h.forced form form' hform hother hname).bind fun _ _ hsame => hsame value

/-- The type and the rules are mirrored. -/
theorem checkContent (value : Value) (reports : List Report) :
    Lockstep W Eq (a.checkContent check value reports) (b.checkContent check value reports) := by
  unfold Site.checkContent
  refine (h.checkBase value).bind ?_
  rintro base _ rfl
  rw [h.alike.finish]
  split
  · exact .pure rfl
  · rw [h.alike.rules]
    refine (applyRules_mirrors h.toMirror h.unseen
      (fun _ hrule => hrule) base.value reports).bind ?_
    rintro result _ rfl
    exact .pure rfl

/-- The check of a value that is there is mirrored. -/
theorem checkPresent (value : Value) :
    Lockstep W Eq (a.checkPresent check value) (b.checkPresent check value) := by
  have hcontent := h.checkContent value
  unfold Site.checkPresent
  rw [h.alike.allowed?, h.alike.denials, h.alike.finish, h.prefs]
  cases a.allowed? value with
  | some found => exact .pure rfl
  | none =>
    dsimp only
    generalize a.denials value = reports
    generalize a.prefs.abortEarly = early
    cases reports with
    | nil => exact hcontent []
    | cons report rest =>
      cases early with
      | true => exact .pure rfl
      | false => exact hcontent (report :: rest)

/-- The check of a node is mirrored. -/
theorem run : Lockstep W Eq (a.run check) (b.run check) := by
  unfold Site.run
  rw [h.alike.convert, h.alike.input, h.alike.finish]
  split
  · exact .pure rfl
  · refine (dropEmpty_mirrors h.toMirror _).bind ?_
    rintro value _ rfl
    rw [h.alike.checkPresence]
    split
    · exact .pure rfl
    · exact h.checkPresent _

end MirrorWhole

end Site

end Conform
