import Conform.Proofs.JsonSource
import Conform.Proofs.NodeReports
import Conform.Proofs.ReorderedObject
import Conform.Proofs.TruncationNode

/-!
# Children in another order, the whole

After the members come the rules of the object. They see the members in the order in which these
were written. A rule may look at the size of the object, at the end of a path into it, and at what
stands outside, since all of that is the same in any order, but not at the object itself
(`Look.Spares`). Then rules pass together or are reported at one place together
(`Site.applyRules_agreed`), and so does the node (`Site.run_alike`).

What is compared are outcomes: values that are the same but for the order of members, at every
depth (`Value.Reorders`), and reports in the same places, or one report in each where the first
failure settles the check (`Outcome.Alike`). A reference that leads into the object by at least
one step ends at a value that is found under a key, and that does not tell the order; so what has
to be excluded is only a reference to the object as a whole. The steps of a node are then gone
through: conversion and presence come before the members, rules after them, and the finish last,
with failover and default.

Where a rule does look at the object itself, the order can be told: the schema of an assertion may
ask whether one value is another one that was written before it. The last part has such a schema,
and an object that passes in one order of its fields and fails in the other.

Main statements: `Schema.key_order_immaterial`, `Schema.key_order_matters`.
-/

namespace Conform

/-! ### Look-ups that spare the object -/

/-- The reference does not lead to the object that stands so many levels up; it may lead to
something inside. The root is that object if it stands alone. -/
def Reference.Spares (alone : Prop) (levels : Nat) (r : Reference) : Prop :=
  r.path ≠ [] ∨ r.target ≠ .ancestor levels ∧ (alone → r.target ≠ .root)

/-- From so many levels further in than the members of the object, the object
itself is not looked at. -/
def Look.Spares (alone : Prop) (depth : Nat) : Look → Prop
  | .reference r => r.Spares alone (depth + 1)
  | .parent => depth ≠ 0

/-- What is asked of an object, standing alone or inside another value, for the order of its
children not to matter. -/
structure Schema.IsOrderly (env : Environment) (alone : Prop) (s : Schema) : Prop where
  /-- Children and patterns look up nothing, and nothing in them is lazy. -/
  inner : ∀ t ∈ s.node.form.schemas, t.Throughout env Schema.IsIsolated
  message : s.node.flags.message = none
  customs : ∀ rule ∈ s.node.rules, rule.name ≠ "custom"
  /-- Where a reference among the arguments leads to the object itself, no function
  adjusts what it finds. -/
  arguments : ∀ rule ∈ s.node.rules, ∀ r ∈ rule.resolved s.node.kind,
    r.Spares alone 0 ∨ r.adjuster = none
  /-- An assertion is about something inside the object, or in the context. -/
  subjects : ∀ rule ∈ s.node.rules, rule.name = "assert" → ∀ r ∈ rule.references,
    r.path ≠ [] ∨ r.isContext = true
  /-- What it asks for does not look at the object itself. -/
  schemas : ∀ rule ∈ s.node.rules, ∀ t ∈ rule.schemas, ∀ depth look, Schema.Reads env t depth look →
    look.Spares alone depth

/-- Object schemas that differ in nothing but the order of their children. -/
structure Schema.Reordered (f g : ObjectForm Schema) (s t : Schema) : Prop where
  form : s.node.form = .object f
  node : t.node = { s.node with form := .object g }
  forms : f.Reordered g

/-! ### Values read from texts -/

/-- A value read from data has the keys of the data. -/
theorem Value.keys_ofJsonMembers (members : List (String × Json)) :
    Members.keys (Value.ofJsonMembers members) = Members.keys members := by
  induction members with
  | nil => rfl
  | cons entry rest ih =>
    obtain ⟨name, json⟩ := entry
    exact congrArg (name :: ·) ih

/-- An object that is read from a text has each name once. -/
theorem ObjectForm.namesOnce_coerce {v : Value} (hnames : v.namesOnce = true) :
    (ObjectForm.coerce v).namesOnce = true := by
  unfold coerce
  split
  next text =>
    split
    next members _ hparse =>
      -- members that are read are sorted
      obtain ⟨source, -, hsource⟩ := Option.bind_eq_some_iff.mp hparse
      have hdistinct : Members.Distinct members := by
        cases source with
        | object ms =>
          rw [Source.toJson?] at hsource
          obtain ⟨read, -, heq⟩ := Option.map_eq_some_iff.mp hsource
          obtain rfl := Json.object.inj heq
          exact (Json.ascending_sortMembers read).distinct
        | array items =>
          rw [Source.toJson?] at hsource
          obtain ⟨_, -, heq⟩ := Option.map_eq_some_iff.mp hsource
          exact absurd heq (by simp)
        | _ => exact absurd hsource (by simp [Source.toJson?])
      have honce : (Members.keys (Value.ofJsonMembers members)).Nodup := by
        rw [Value.keys_ofJsonMembers]
        exact hdistinct
      exact decide_eq_true honce
    next => exact hnames
  next => exact hnames

/-! ### References -/

namespace Reference

variable {r : Reference} {v w : Value} {scope scope' : Scope}

/-- What is found depends on where the reference starts, and on the order of members there only
if it leads no further. -/
theorem resolve_of_start (hstart : (r.start v scope).Reorders (r.start w scope'))
    (hself : r.path = [] → r.start w scope' = r.start v scope)
    (hadjust : scope'.adjust = scope.adjust) : r.resolve w scope' = r.resolve v scope := by
  have hreach : (r.start w scope').reach r.path = (r.start v scope).reach r.path := by
    by_cases hpath : r.path = []
    · rw [hself hpath]
    · exact hstart.reach hpath
  unfold resolve finish
  rw [hreach, hadjust]

/-- What a reference starts from is the same but for the order of members. -/
theorem start_reorders (h : v.Reorders w) : (r.start v scope).Reorders (r.start w scope) := by
  unfold start
  split
  · exact .refl _
  · cases scope.position.rootValue? with
    | none => exact h
    | some root => exact .refl root
  · exact h
  · exact .refl _

/-- What is found differs in the order of members at most, if that is not handed to a function. -/
theorem resolve_reorders (scope : Scope)
    (hplain : r.Spares (scope.position.ancestors = []) 0 ∨ r.adjuster = none)
    (h : v.Reorders w) : (r.resolve v scope).Reorders (r.resolve w scope) := by
  have hstart : (r.start v scope).Reorders (r.start w scope) := start_reorders h
  -- an adjuster is a function, and might see the order
  rcases hplain with hspares | hadjuster
  · -- without a path the whole object is handed on, which only another start avoids
    have hself : r.path = [] → r.start w scope = r.start v scope := by
      intro hpath
      obtain ⟨hself, hroot⟩ := hspares.resolve_left fun hne => hne hpath
      unfold start
      split
      next => rfl
      next htarget =>
        unfold Position.rootValue?
        cases hlast : scope.position.ancestors.getLast? with
        | none => exact absurd htarget (hroot (List.getLast?_eq_none_iff.mp hlast))
        | some root => rfl
      next htarget => exact absurd htarget hself
      next => rfl
    rw [resolve_of_start hstart hself rfl]
    exact .refl _
  · have hfound := hstart.reach_reorders r.path
    unfold resolve finish
    rw [hadjuster]
    simp only [Option.bind_none, hfound.same_right]
    cases r.table.find? fun entry => entry.1.same ((r.start v scope).reach r.path) with
    | some entry => exact .refl _
    | none => exact hfound

end Reference

/-- Among the values around, the one that differs stands behind all that are inside it. -/
theorem getElem?_reorders {v w : Value} (h : v.Reorders w) (inside outside : List Value) (n : Nat) :
    (((inside ++ v :: outside)[n]?).getD .undefined).Reorders
      (((inside ++ w :: outside)[n]?).getD .undefined) ∧
      (n ≠ inside.length → (inside ++ w :: outside)[n]? = (inside ++ v :: outside)[n]?) := by
  induction inside generalizing n with
  | nil =>
    cases n with
    | zero => exact ⟨h, fun hne => absurd rfl hne⟩
    | succ n => exact ⟨.refl _, fun _ => rfl⟩
  | cons first inside ih =>
    cases n with
    | zero => exact ⟨.refl _, fun _ => rfl⟩
    | succ n => exact ⟨(ih n).1, fun hne => (ih n).2 fun heq => hne (congrArg Nat.succ heq)⟩

/-- A schema that spares the object comes to the same for any order of its members. -/
theorem Schema.Agree.of_spares {env : Environment} {t : Schema}
    {outside : List Value}
    (hspares : ∀ depth look, Schema.Reads env t depth look → look.Spares (outside = []) depth)
    {v w : Value} (h : v.Reorders w) (path : List Segment) :
    Schema.Agree env t ⟨path, v :: outside⟩ ⟨path, w :: outside⟩ := by
  -- how deep the look is decides which of the values it starts from
  refine ⟨rfl, fun depth look hreads inside hinside value prefs path => ?_⟩
  have hspares := hspares depth look hreads
  have hat := getElem?_reorders h inside outside
  cases look with
  | parent =>
    have hne : 0 ≠ inside.length := hinside ▸ Ne.symm hspares
    exact congrArg (Option.getD · .undefined) ((hat 0).2 hne)
  | reference r =>
    refine Reference.resolve_of_start ?_ (fun hpath => ?_) rfl
    · unfold Reference.start
      split
      · exact .refl _
      · show ((inside ++ v :: outside).getLast?.getD value).Reorders
          ((inside ++ w :: outside).getLast?.getD value)
        rw [List.getLast?_append, List.getLast?_append, List.getLast?_cons, List.getLast?_cons]
        cases outside.getLast? with
        | none => exact h
        | some root => exact .refl root
      · exact .refl _
      next n _ => exact (hat n).1
    · obtain ⟨hself, hroot⟩ := hspares.resolve_left fun hne => hne hpath
      unfold Reference.start
      split
      next => rfl
      next htarget =>
        show (inside ++ w :: outside).getLast?.getD value =
          (inside ++ v :: outside).getLast?.getD value
        rw [List.getLast?_append, List.getLast?_append, List.getLast?_cons, List.getLast?_cons]
        cases hlast : outside.getLast? with
        | none => exact absurd htarget (hroot (List.getLast?_eq_none_iff.mp hlast))
        | some root => rfl
      next => rfl
      next n htarget =>
        have hne : n ≠ inside.length := by
          rintro rfl
          exact hself (hinside ▸ htarget)
        exact congrArg (Option.getD · .undefined) ((hat n).2 hne)

/-! ### Rules -/

/-- Both pass, with related results, or both are reported at one place. -/
inductive Agreed {α β : Type} (R : α → β → Prop) : Except Report α → Except Report β → Prop
  | ok {a : α} {b : β} : R a b → Agreed R (.ok a) (.ok b)
  | error {r r' : Report} : r'.place = r.place → Agreed R (.error r) (.error r')

namespace Agreed

variable {α β γ δ : Type} {R : α → β → Prop}

/-- Steps that agree are followed by steps that agree. -/
theorem bind {Q : γ → δ → Prop} {x : Except Report α} {y : Except Report β}
    {f : α → Except Report γ}
    {g : β → Except Report δ} (h : Agreed R x y) (hf : ∀ a b, R a b → Agreed Q (f a) (g b)) :
    Agreed Q (x >>= f) (y >>= g) := by
  cases h with
  | ok hab => exact hf _ _ hab
  | error hplace => exact .error hplace

/-- Items that agree one by one agree together. -/
theorem mapM {R : γ → γ → Prop} {f g : α → Except Report γ} {items : List α}
    (h : ∀ item ∈ items, Agreed R (f item) (g item)) :
    Agreed (List.Forall₂ R) (items.mapM f) (items.mapM g) := by
  induction items with
  | nil => exact .ok .nil
  | cons item rest ih =>
    rw [List.mapM_cons, List.mapM_cons]
    refine (h item (List.mem_cons_self ..)).bind fun a b hab => ?_
    refine (ih fun item hitem => h item (List.mem_cons_of_mem _ hitem)).bind fun as bs hall => ?_
    exact .ok (.cons hab hall)

end Agreed

/-- Arguments that differ in the order of members at most. -/
structure Given.Alike (a b : Given) : Prop where
  stored : b.stored = a.stored
  value : ∀ name, (a.value name).Reorders (b.value name)

namespace Given.Alike

variable {a b : Given} (h : a.Alike b)

include h

/-- The subject of an assertion is the same. -/
theorem subject? (name : String) : b.subject? name = a.subject? name := by
  unfold Given.subject?
  rw [h.stored]

/-- The schema of an assertion is the same. -/
theorem schema? (name : String) : b.schema? name = a.schema? name := by
  unfold Given.schema?
  rw [h.stored]

/-- A size to compare with is the same. -/
theorem count (name : String) : b.count name = a.count name := by
  unfold Given.count Given.number
  rw [(h.value name).number?]

/-- A text among the arguments is the same. -/
theorem text? (name : String) : b.text? name = a.text? name := (h.value name).string?

end Given.Alike

namespace Site

/-- A site of a check of an object, and the same object with its children in another order. -/
structure Rearranged (check : Check) (site : Site) (t : Schema)
    (f g : ObjectForm Schema) : Prop where
  reordered : Schema.Reordered f g site.schema t
  orderly : site.schema.IsOrderly site.env (site.position.ancestors = [])
  fixed : ∀ t ∈ (Form.object f).schemas, check.Fixed t
  movable : ∀ t, Movable (Abreast site.env) site.env check t

variable {check : Check} {site : Site} {t : Schema} {f g : ObjectForm Schema} {v w : Value}

/-- Arguments that do not look at the object itself resolve to the same. -/
theorem resolveArguments_agreed (site : Site) {parameters : List Parameter}
    {args : List (Argument Schema)}
    (hplain : ∀ p arg, (p, arg) ∈ parameters.zip args → p.kind ≠ .subject → ∀ r ∈ arg.reference?,
      r.Spares (site.position.ancestors = []) 0 ∨ r.adjuster = none)
    (h : v.Reorders w) :
    Agreed Given.Alike (site.resolveArguments v parameters args)
      (site.resolveArguments w parameters args) := by
  -- a reference starts from the node, so what it finds may be in another order
  have hone (p : Parameter) (arg : Argument Schema) (hmem : (p, arg) ∈ parameters.zip args) :
      Agreed Value.Reorders (site.resolveArgument v p arg) (site.resolveArgument w p arg) := by
    cases arg with
    | reference r =>
      unfold resolveArgument
      dsimp only
      split
      · exact .ok (.refl _)
      next hkind =>
        have hfound := Reference.resolve_reorders site.scope (hplain p _ hmem hkind r rfl) h
        rw [hfound.rejection?]
        split
        · exact .ok hfound
        · exact .error rfl
    | _ => exact .ok (.refl _)
  have hget {xs ys : List (String × Value)}
      (hall : List.Forall₂ (fun x y => y.1 = x.1 ∧ x.2.Reorders y.2) xs ys)
      (name : String) :
      ((Members.get? xs name).getD .undefined).Reorders
      ((Members.get? ys name).getD .undefined) := by
    induction hall with
    | nil => exact .refl _
    | @cons x y xs ys hxy hall ih =>
      obtain ⟨key, old⟩ := x
      obtain ⟨_, new⟩ := y
      obtain ⟨rfl, hvalues⟩ := hxy
      rw [Members.get?_cons, Members.get?_cons]
      split
      · exact hvalues
      · exact ih
  unfold resolveArguments
  refine (Agreed.mapM (R := fun x y => y.1 = x.1 ∧ x.2.Reorders y.2) fun pair hmem => ?_).bind
    fun xs ys hall => ?_
  · exact (hone pair.1 pair.2 hmem).bind fun _ _ hvalues => .ok ⟨rfl, hvalues⟩
  · exact .ok ⟨rfl, hget hall⟩

section

variable {given given' : Given} (hgiven : given.Alike given') (h : v.Reorders w)

include hgiven h

/-- An assertion about something inside the object, by a schema that spares the object. -/
theorem assertRule_agreed (hmovable : ∀ t, Movable (Abreast site.env) site.env check t)
    (hsubject : ∀ r ∈ given.subject? "subject", r.path ≠ [] ∨ r.isContext = true)
    (hschema : ∀ s ∈ given.schema? "schema", ∀ depth look, Schema.Reads site.env s depth look →
      look.Spares (site.position.ancestors = []) depth) :
    Lockstep (Abreast site.env) (Agreed Value.Reorders) (ObjectForm.assertRule check site given v)
      (ObjectForm.assertRule check site given' w) := by
  unfold ObjectForm.assertRule
  rw [hgiven.subject?, hgiven.schema?, hgiven.text?]
  cases hsome : given.subject? "subject" with
  | none => exact .pure (.ok h)
  | some subject =>
    cases hsome' : given.schema? "schema" with
    | none => exact .pure (.ok h)
    | some s =>
      have hfound : (if subject.isContext then (subject.resolve w site.scope, [])
            else (w.reach subject.path, subject.path.map Segment.key)) =
          if subject.isContext then (subject.resolve v site.scope, [])
            else (v.reach subject.path, subject.path.map Segment.key) := by
        split
        next hcontext =>
          have htarget : subject.target = .context := of_decide_eq_true hcontext
          unfold Reference.resolve Reference.start
          rw [htarget]
        next hinside => rw [h.reach ((hsubject subject hsome).resolve_right hinside)]
      dsimp only
      rw [hfound]
      generalize (if subject.isContext then (subject.resolve v site.scope, [])
        else (v.reach subject.path, subject.path.map Segment.key)) = found
      obtain ⟨found, path⟩ := found
      -- the subject's schema looks past the object, or not at the object itself
      have hagree : Schema.Agree site.env s
          ((site.position.nest (.key "") v).localize (site.position.path ++ path))
          ((site.position.nest (.key "") w).localize (site.position.path ++ path)) :=
        .of_spares (hschema s hsome') h _
      refine ((hmovable s).passes hagree found _).bind ?_
      rintro passed _ rfl
      split
      · exact .pure (.ok h)
      · exact .pure (.error rfl)

/-- The rules of objects: the sizes are those of any order. -/
theorem objectRule_agreed (hmovable : ∀ t, Movable (Abreast site.env) site.env check t)
    (name : String)
    (hsubject : name = "assert" → ∀ r ∈ given.subject? "subject", r.path ≠ [] ∨ r.isContext = true)
    (hschema : ∀ s ∈ given.schema? "schema", ∀ depth look, Schema.Reads site.env s depth look →
      look.Spares (site.position.ancestors = []) depth) :
    Lockstep (Abreast site.env) (Agreed Value.Reorders) (ObjectForm.rule check site name given v)
      (ObjectForm.rule check site name given' w) := by
  have hsize (code : String) (limit : Nat) (passes : Bool) :
      Agreed Value.Reorders (site.requireSize code v limit passes)
      (site.requireSize code w limit passes) := by
    unfold requireSize
    cases passes with
    | true => exact .ok h
    | false => exact .error rfl
  unfold ObjectForm.rule
  rw [h.size, hgiven.count]
  dsimp only
  split
  next => exact .pure (hsize ..)
  next => exact .pure (hsize ..)
  next => exact .pure (hsize ..)
  next => exact assertRule_agreed hgiven h hmovable (hsubject rfl) hschema
  next => exact .pure (.ok h)

end

section

variable (h : site.Rearranged check t f g)

include h

/-- The order of the children is no part of the label. -/
theorem Rearranged.label : t.node.flags.label = site.node.flags.label := by
    rw [h.reordered.node]; rfl

/-- Reports do not tell the order of the children. -/
theorem Rearranged.report : @Site.report (site.under t) = @Site.report site := report_under h.label

/-- One rule, before and after the children change places. -/
theorem applyRule_agreed {rule : Rule Schema} (hrule : rule ∈ site.node.rules)
    (hvw : v.Reorders w) :
    Lockstep (Abreast site.env) (Agreed Value.Reorders) (site.applyRule check v rule)
      ((site.under t).applyRule check w rule) := by
  have hkind : site.node.kind = .object := congrArg Form.kind h.reordered.form
  have hkind' : (site.under t).node.kind = .object :=
    congrArg (fun n => n.form.kind) h.reordered.node
  have harguments : @resolveArguments (site.under t) = @resolveArguments site := by
    unfold resolveArguments resolveArgument
    rw [h.report]
    rfl
  unfold applyRule
  rw [hkind, hkind', harguments]
  cases hspec : Kind.object.rule? rule.name with
  | none => exact .pure (.ok hvw)
  | some spec =>
    -- the table names a rule as the node does
    have hname : spec.name = rule.name := by
      have hfound := List.find?_some hspec
      exact beq_iff_eq.mp hfound
    -- the arguments are those the orderly node speaks for
    have hplain : ∀ p arg, (p, arg) ∈ spec.parameters.zip rule.args → p.kind ≠ .subject →
        ∀ r ∈ arg.reference?, r.Spares (site.position.ancestors = []) 0 ∨ r.adjuster = none := by
      intro p arg hmem hsubject r hr
      refine h.orderly.arguments rule hrule r ?_
      unfold Rule.resolved
      rw [show site.schema.node.kind = .object from hkind, hspec]
      refine List.mem_filterMap.mpr ⟨(p, arg), hmem, ?_⟩
      dsimp only
      rw [if_neg hsubject]
      exact hr
    dsimp only
    have hagreed := resolveArguments_agreed site hplain hvw
    revert hagreed
    cases hgiven : site.resolveArguments v spec.parameters rule.args with
    | error report =>
      generalize site.resolveArguments w spec.parameters rule.args = y
      rintro (_ | hplace)
      exact .pure (.error hplace)
    | ok given =>
      generalize site.resolveArguments w spec.parameters rule.args = y
      rintro (halike | _)
      dsimp only
      rw [hname, if_neg (h.orderly.customs rule hrule), if_neg (h.orderly.customs rule hrule)]
      unfold typeRule
      have hform' : (site.under t).node.form = .object g := congrArg Node.form h.reordered.node
      rw [show site.node.form = .object f from h.reordered.form, hform']
      dsimp only
      rw [ObjectForm.rule_under h.label]
      refine objectRule_agreed halike hvw h.movable rule.name (fun hassert r hr => ?_)
        fun s hs => h.orderly.schemas rule hrule s (schema_of_given hgiven s hs)
      obtain ⟨arg, hget, harg⟩ := Option.bind_eq_some_iff.mp hr
      have hmem : r ∈ rule.references :=
        List.mem_filterMap.mpr ⟨arg, mem_args_of_given hgiven hget, harg⟩
      exact h.orderly.subjects rule hrule hassert r hmem

/-- Rules pass together, or are reported at one place together, in turn. -/
theorem applyRules_agreed {rules : List (Rule Schema)}
    (hrules : ∀ rule ∈ rules, rule ∈ site.node.rules)
    {reports reports' : List Report} (hvw : v.Reorders w)
    (hplaces : reports'.map Report.place = reports.map Report.place) :
    Lockstep (Abreast site.env)
      (fun r r' => r.1.Reorders r'.1 ∧ r'.2.map Report.place = r.2.map Report.place)
      (site.applyRules check v reports rules)
        ((site.under t).applyRules check w reports' rules) := by
  induction rules generalizing v w reports reports' with
  | nil => exact .pure ⟨hvw, hplaces⟩
  | cons rule rest ih =>
    have hrest : ∀ rule ∈ rest, rule ∈ site.node.rules := fun rule hrule =>
      hrules rule (List.mem_cons_of_mem _ hrule)
    unfold applyRules
    refine (applyRule_agreed h (hrules rule (List.mem_cons_self ..)) hvw).bind ?_
    rintro _ _ (hvw' | @⟨report, report', hplace⟩)
    · exact ih hrest hvw' hplaces
    · have hboth : (reports' ++ [report']).map Report.place =
          (reports ++ [report]).map Report.place := by
        rw [List.map_append, List.map_append, hplaces]
        exact congrArg (reports.map Report.place ++ [·]) hplace
      show Lockstep _ _ (if site.prefs.abortEarly = true then _ else _)
        (if site.prefs.abortEarly = true then _ else _)
      split
      · exact .pure ⟨hvw, hboth⟩
      · exact ih hrest hvw hboth

/-! ### The steps of a node -/

/-- The steps that look at other parts of the node than its form. -/
theorem steps_under :
    @finish (site.under t) = @finish site ∧ (site.under t).denials = site.denials ∧
    (site.under t).allowed? = site.allowed? ∧ (site.under t).checkPresence = site.checkPresence ∧
    (site.under t).dropEmpty = site.dropEmpty := by
  obtain ⟨node, stamp⟩ := t
  obtain rfl : node = _ := h.reordered.node
  exact ⟨rfl, rfl, rfl, rfl, rfl⟩

/-- An object is converted before its children are looked at. -/
theorem convert_under : (site.under t).convert = site.convert := by
  have hform : site.node.form = .object f := h.reordered.form
  have hform' : (site.under t).node.form = .object g := congrArg Node.form h.reordered.node
  unfold convert
  rw [hform, hform']
  rfl

/-- What an object is read from names each member once. -/
theorem namesOnce_convert {next : Value} (hnames : v.namesOnce = true)
    (hnext : site.convert v = .ok next) : next.namesOnce = true := by
  have hform : site.node.form = .object f := h.reordered.form
  unfold convert at hnext
  rw [hform] at hnext
  split at hnext
  · exact Except.ok.inj hnext ▸ hnames
  · exact Except.ok.inj hnext ▸ ObjectForm.namesOnce_coerce hnames

omit h in
/-- A failover is the same in both orders. -/
theorem recover_alike (site : Site) {early : Bool} {reports reports' : List Report}
    {strip strip' : Bool} (ho : Outcome.Alike early ⟨v, reports, strip⟩ ⟨w, reports', strip'⟩) :
    Outcome.Alike early ⟨(site.recover v reports).1, (site.recover v reports).2, strip⟩
      ⟨(site.recover w reports').1, (site.recover w reports').2, strip'⟩ := by
  have hempty : reports'.isEmpty = reports.isEmpty := ho.ok
  unfold recover
  rw [hempty]
  split
  · exact ho
  · split
    · exact ⟨rfl, fun _ => .refl _, rfl, fun _ => .refl _, ho.strip⟩
    · exact ho

omit h in
/-- A default is the same in both orders. -/
theorem fillIn_alike (site : Site) {early : Bool} {reports reports' : List Report}
    {strip strip' : Bool} (ho : Outcome.Alike early ⟨v, reports, strip⟩ ⟨w, reports', strip'⟩) :
    Outcome.Alike early ⟨(site.fillIn v reports).1, (site.fillIn v reports).2, strip⟩
      ⟨(site.fillIn w reports').1, (site.fillIn w reports').2, strip'⟩ := by
  have hdefined : w.isDefined = v.isDefined := ho.defined
  unfold fillIn
  rw [hdefined]
  split
  · exact ho
  · split
    · exact ho
    next found _ => exact ⟨ho.ok, fun _ => .refl found, rfl, ho.places, ho.strip⟩
    next report _ =>
      have hfails (reports : List Report) (v : Value) (strip : Bool) :
          (Outcome.mk v (reports ++ [report]) strip).isOk = false :=
        List.isEmpty_eq_false_iff.mpr (List.append_ne_nil_of_right_ne_nil _ (List.cons_ne_nil _ _))
      refine ⟨(hfails ..).trans (hfails ..).symm,
        fun hok => absurd hok (by simp [hfails]), ho.defined, fun hlate => ?_, ho.strip⟩
      show ((reports' ++ [report]).map _).Perm ((reports ++ [report]).map _)
      rw [List.map_append, List.map_append]
      exact (ho.places hlate).append_right _

/-- Without a message of its own, the node's finish does not look at the order. -/
theorem finish_alike {early : Bool} {reports reports' : List Report} {strip strip' : Bool}
    (ho : Outcome.Alike early ⟨v, reports, strip⟩ ⟨w, reports', strip'⟩) :
    Outcome.Alike early (site.finish v reports strip) (site.finish w reports' strip') := by
  have hmessage (v : Value) (reports : List Report) : site.withOwnMessage v reports = reports := by
    unfold withOwnMessage
    rw [show site.node.flags.message = none from h.orderly.message]
    cases reports <;> rfl
  have hfilled := fillIn_alike site (recover_alike site ho)
  unfold finish
  dsimp only
  rw [hmessage, hmessage]
  refine ⟨hfilled.ok, fun hok => ?_, ?_, hfilled.places, ?_⟩
  · dsimp only
    split
    · exact .refl _
    · exact hfilled.value hok
  · dsimp only
    split
    · rfl
    · exact hfilled.defined
  · exact congrArg (· || site.node.flags.strip) ho.strip

/-- Members first, then rules: outcomes are alike where both come to something. -/
theorem checkContent_alike (hnames : v.namesOnce = true)
    (reports : List Report) {x x₁ x₂ : Workshop} (hx : x.Made site.env) {o o' : Outcome}
    (hrun : (site.checkContent check v reports).run x = some (o, x₁))
    (hrun' : ((site.under t).checkContent check v reports).run x = some (o', x₂)) :
    Outcome.Alike site.prefs.abortEarly o o' := by
  have hform : site.node.form = .object f := h.reordered.form
  have hform' : (site.under t).node.form = .object g := congrArg Node.form h.reordered.node
  obtain ⟨base, y, hbase, hrest⟩ := Runs.bind_some hrun
  obtain ⟨base', y', hbase', hrest'⟩ := Runs.bind_some hrun'
  unfold checkBase at hbase hbase'
  rw [hform] at hbase
  rw [hform'] at hbase'
  obtain ⟨halike, hkept⟩ :=
    ObjectForm.base_alike h.reordered.forms hform h.reordered.node h.fixed hnames hbase hbase'
  rw [(steps_under h).1, halike.ok] at hrest'
  -- failures in the children count as such whatever their order
  cases hok : base.isOk with
  | false =>
    rw [hok] at hrest hrest'
    obtain ⟨rfl, -⟩ := Runs.pure_some hrest
    obtain ⟨rfl, -⟩ := Runs.pure_some hrest'
    have hfails {more : List Report} (hmore : more.isEmpty = false) :
        (reports ++ more).isEmpty = false :=
      List.isEmpty_eq_false_iff.mpr
        (List.append_ne_nil_of_right_ne_nil _ (List.isEmpty_eq_false_iff.mp hmore))
    have hmore : (reports ++ base.reports).isEmpty = false := hfails hok
    have hmore' : (reports ++ base'.reports).isEmpty = false := hfails (halike.ok.trans hok)
    refine finish_alike h ⟨hmore'.trans hmore.symm, fun hall => ?_, halike.defined,
      fun hlate => ?_, halike.strip⟩
    · exact absurd hall (by rw [Outcome.isOk, hmore]; exact Bool.false_ne_true)
    · show ((reports ++ base'.reports).map _).Perm ((reports ++ base.reports).map _)
      rw [List.map_append, List.map_append]
      exact (halike.places hlate).append_left _
  -- the object passed, so its rules are about values that differ in order alone
  | true =>
    rw [hok] at hrest hrest'
    obtain ⟨rfl, rfl⟩ := hkept hok
    obtain ⟨r, z, hrules, hfinish⟩ := Runs.bind_some hrest
    obtain ⟨r', z', hrules', hfinish'⟩ := Runs.bind_some hrest'
    obtain ⟨rfl, -⟩ := Runs.pure_some hfinish
    obtain ⟨rfl, -⟩ := Runs.pure_some hfinish'
    have hnodes : (site.under t).node.rules = site.node.rules := by
      show t.node.rules = site.schema.node.rules
      rw [h.reordered.node]
    rw [hnodes] at hrules'
    have hagreed := applyRules_agreed h (fun _ hrule => hrule) (halike.value hok)
      (rfl : reports.map _ = _) y' y' ⟨rfl, hx⟩
    rw [hrules, hrules'] at hagreed
    obtain ⟨⟨hvalues, hplaces⟩, -⟩ := Option.rel_some_some.mp hagreed
    have hperm : (r'.2.map Report.place).Perm (r.2.map Report.place) := hplaces ▸ .refl _
    exact finish_alike h ⟨Report.isEmpty_of_places hperm, fun _ => hvalues,
      hvalues.isDefined, fun _ => hperm, halike.strip⟩

/-- What comes before the members does not look at their order. -/
theorem checkPresent_alike (hnames : v.namesOnce = true)
    {x x₁ x₂ : Workshop} (hx : x.Made site.env) {o o' : Outcome}
    (hrun : (site.checkPresent check v).run x = some (o, x₁))
    (hrun' : ((site.under t).checkPresent check v).run x = some (o', x₂)) :
    Outcome.Alike site.prefs.abortEarly o o' := by
  obtain ⟨hfinish, hdenials, hallowed, -, -⟩ := steps_under h
  have hprefs : (site.under t).prefs = site.prefs := rfl
  unfold checkPresent at hrun hrun'
  rw [hfinish, hdenials, hallowed, hprefs] at hrun'
  cases hfound : site.allowed? v with
  | some found =>
    rw [hfound] at hrun hrun'
    obtain ⟨rfl, -⟩ := Runs.pure_some hrun
    obtain ⟨rfl, -⟩ := Runs.pure_some hrun'
    exact .refl _ _
  | none =>
    rw [hfound] at hrun hrun'
    dsimp only at hrun hrun'
    -- what is neither allowed nor denied goes on to its content
    have hcontent : (site.checkContent check v (site.denials v)).run x = some (o, x₁) →
        ((site.under t).checkContent check v (site.denials v)).run x = some (o', x₂) →
        Outcome.Alike site.prefs.abortEarly o o' := checkContent_alike h hnames (site.denials v) hx
    cases hdenied : site.denials v with
    | nil =>
      rw [hdenied] at hrun hrun' hcontent
      exact hcontent hrun hrun'
    | cons report rest =>
      rw [hdenied] at hrun hrun' hcontent
      cases hearly : site.prefs.abortEarly with
      | false =>
        rw [hearly] at hrun hrun' hcontent
        exact hcontent hrun hrun'
      | true =>
        rw [hearly] at hrun hrun'
        obtain ⟨rfl, -⟩ := Runs.pure_some hrun
        obtain ⟨rfl, -⟩ := Runs.pure_some hrun'
        exact .refl _ _

/-- A value is taken away that counts as missing, or it stays. -/
theorem dropEmpty_made {x x₁ : Workshop} (hx : x.Made site.env) {next : Value}
    (hrun : (site.dropEmpty check v).run x = some (next, x₁)) :
    (next = v ∨ next = .undefined) ∧ x₁.Made site.env := by
  have hsteps : Lockstep (Abreast site.env) (fun a _ => a = v ∨ a = .undefined)
      (site.dropEmpty check v) (site.dropEmpty check v) := by
    unfold dropEmpty
    split
    next empty _ =>
      split
      · refine ((h.movable empty).passes (.refl _ _) v _).bind ?_
        rintro passed _ rfl
        refine .pure ?_
        cases passed with
        | true => exact .inr rfl
        | false => exact .inl rfl
      · exact .pure (.inl rfl)
    next => exact .pure (.inl rfl)
  have hkept := hsteps x x ⟨rfl, hx⟩
  rw [hrun] at hkept
  obtain ⟨hnext, -, hmade⟩ := Option.rel_some_some.mp hkept
  exact ⟨hnext, hmade⟩

omit h in
/-- A value that is there keeps its names, and an empty object that is made has none. -/
theorem namesOnce_checkPresence {next : Value} (hnames : v.namesOnce = true)
    (hnext : site.checkPresence v = .ok next) : next.namesOnce = true := by
  rcases checkPresence_ok hnext with rfl | rfl
  · exact hnames
  · rfl

/-- The whole node, for both orders of the children. -/
theorem run_alike (hnames : site.input.namesOnce = true) {x x₁ x₂ : Workshop} (hx : x.Made site.env)
    {o o' : Outcome} (hrun : (site.run check).run x = some (o, x₁))
    (hrun' : ((site.under t).run check).run x = some (o', x₂)) :
    Outcome.Alike site.prefs.abortEarly o o' := by
  obtain ⟨hfinish, -, -, hpresence, hempty⟩ := steps_under h
  have hinput : (site.under t).input = site.input := rfl
  unfold Site.run at hrun hrun'
  rw [convert_under h, hinput, hfinish, hempty, hpresence] at hrun'
  cases hconvert : site.convert site.input with
  | error report =>
    rw [hconvert] at hrun hrun'
    obtain ⟨rfl, -⟩ := Runs.pure_some hrun
    obtain ⟨rfl, -⟩ := Runs.pure_some hrun'
    exact .refl _ _
  | ok converted =>
    rw [hconvert] at hrun hrun'
    obtain ⟨value, y, hdrop, hrest⟩ := Runs.bind_some hrun
    obtain ⟨value', y', hdrop', hrest'⟩ := Runs.bind_some hrun'
    obtain ⟨rfl, rfl⟩ := Prod.mk.inj (Option.some.inj (hdrop.symm.trans hdrop'))
    cases hpresent : site.checkPresence value with
    | error reports =>
      rw [hpresent] at hrest hrest'
      obtain ⟨rfl, -⟩ := Runs.pure_some hrest
      obtain ⟨rfl, -⟩ := Runs.pure_some hrest'
      exact .refl _ _
    | ok present =>
      rw [hpresent] at hrest hrest'
      obtain ⟨hvalue, hmade⟩ := dropEmpty_made h hx hdrop
      have honce : value.namesOnce = true := by
        rcases hvalue with rfl | rfl
        · exact namesOnce_convert h hnames hconvert
        · rfl
      exact checkPresent_alike h (namesOnce_checkPresence honce hpresent) hmade hrest hrest'

end

end Site

/-! ### Whole checks -/

namespace Schema

variable {env : Environment} {s t : Schema} {f g : ObjectForm Schema}

/-- The order in which the children of an object were declared does not matter to its checks,
provided that children and patterns look up nothing, that nothing in them is lazy, and that neither
a custom rule, a message of its own nor a look-up of the object itself tells what order its members
have: the same values pass, with the same members, and if all failures are asked for where the
object stands, they are the same ones. -/
theorem key_order_immaterial (h : Schema.Reordered f g s t) {position : Position}
    (hs : s.IsOrderly env (position.ancestors = [])) (fuel : Nat) {value : Value}
    (hnames : value.hasDistinctNames = true) (prefs : Preferences) {w w₁ w₂ : Workshop}
    (hw : w.Made env) {o o' : Outcome}
    (hrun : (Check.within env fuel s value position prefs).run w = some (o, w₁))
    (hrun' : (Check.within env fuel t value position prefs).run w = some (o', w₂)) :
    o'.isOk = o.isOk ∧
      (o.isOk = true → o.value.Reorders o'.value ∧
        (o.value.hasDistinctNames = true → o.value.same o'.value = true) ∧ o'.strip = o.strip) ∧
      ((prefs.merged s.node.prefs).abortEarly = false →
        (o'.reports.map Report.place).Perm (o.reports.map Report.place)) := by
  cases fuel with
  -- without fuel there is no outcome
  | zero =>
    have hnothing : (none : Option (Outcome × Workshop)) = some (o, w₁) := hrun
    exact nomatch hnothing
  | succ fuel =>
    let site : Site := ⟨env, s, position, prefs.merged s.node.prefs, value⟩
    have hfixed : ∀ u ∈ (Form.object f).schemas, (Check.within env fuel).Fixed u := fun u hu =>
      Check.within_fixed (hs.inner u (h.form ▸ hu)) fuel
    have hsite : site.Rearranged (Check.within env fuel) t f g :=
      ⟨h, hs, hfixed, fun u => Check.within_abreast fuel u⟩
    have hprefs : t.node.prefs = s.node.prefs := by rw [h.node]
    have honce : value.namesOnce = true := (Value.everywhere_iff.mp hnames).1
    have hrun' : ((site.under t).run (Check.within env fuel)).run w = some (o', w₂) := by
      rw [← hrun']
      show _ = (Site.run ⟨env, t, position, prefs.merged t.node.prefs, value⟩ _).run w
      rw [hprefs]
      rfl
    have halike := Site.run_alike hsite honce hw hrun hrun'
    refine ⟨halike.ok, fun hok => ⟨halike.value hok, (halike.value hok).same, halike.strip⟩,
      halike.places⟩

/-- A schema that looks up nothing, hands no value on and is not lazy. -/
theorem isolated_leaf (hlooks : s.looks = []) (hvisited : s.visited = []) (hkind : s.kind ≠ .lazy) :
    s.Throughout env IsIsolated := by
  refine (throughout_of_closed (P := fun t => t = s) rfl ?_ ?_).mono ?_
  · rintro _ rfl levels child hchild
    rw [hvisited] at hchild
    exact absurd hchild List.not_mem_nil
  · rintro _ rfl form hform
    exact absurd (congrArg Form.kind hform) hkind
  · rintro _ rfl
    exact ⟨hlooks, hkind⟩

/-- The fields of `twoFields` the other way round. -/
def twoFieldsReversed : Schema :=
  ofForm (.object { keys := some [("b", number), ("a", number)], order := ["b", "a"] })

/-- A schema without references and without schemas inside reads no sibling. -/
theorem siblingRefs_leaf (hown : s.ownReferences = [])
    (hconsulted : s.consulted = []) (levels : Nat) : s.siblingRefs levels = [] := by
  rw [siblingRefs_eq, hown, hconsulted]
  rfl

/-- Two fields in either order. -/
theorem reordered_twoFields : ∃ f g, Schema.Reordered f g twoFields twoFieldsReversed := by
  refine ⟨_, _, rfl, rfl, ObjectForm.reordered_declared ?_ (List.Perm.swap ..) ?_⟩
  · exact List.nodup_cons.mpr ⟨by simp, List.nodup_singleton _⟩
  · simp only [List.forall_mem_cons, List.not_mem_nil, false_implies, implies_true, and_true]
    exact ⟨siblingRefs_leaf rfl rfl 1, siblingRefs_leaf rfl rfl 1⟩

/-- Both orders report both fields. -/
theorem key_order_immaterial_twoFields : ∃ (o o' : Outcome) (w w' : Workshop),
    (Check.within {} 2 twoFields twoTexts .root { abortEarly := false }).run {} = some (o, w) ∧
    (Check.within {} 2 twoFieldsReversed twoTexts .root { abortEarly := false }).run
    {} = some (o', w') ∧
    o.isOk = false ∧ o'.isOk = false ∧
    (o'.reports.map Report.place).Perm (o.reports.map Report.place) := by
  have hfails : ((Check.within {} 2 twoFields twoTexts .root { abortEarly := false }).run {}).any
      (fun r => !r.1.isOk) = true := by decide +kernel
  have hruns :
      ((Check.within {} 2 twoFieldsReversed twoTexts .root { abortEarly := false }).run {}).isSome =
      true := by decide +kernel
  obtain ⟨⟨o, w⟩, hrun, ho⟩ := (Option.any_eq_true _ _).mp hfails
  obtain ⟨⟨o', w'⟩, hrun'⟩ := Option.isSome_iff_exists.mp hruns
  rw [Bool.not_eq_true'] at ho
  have horderly : twoFields.IsOrderly {} (Position.root.ancestors = []) := by
    refine ⟨fun t ht => ?_, rfl, ?_, ?_, ?_, ?_⟩
    · have hnumber : t ∈ [number, number] := ht
      have hnumber : t = number := by simpa using hnumber
      exact hnumber ▸ isolated_leaf rfl rfl (by decide)
    all_goals exact fun rule hrule => absurd hrule List.not_mem_nil
  obtain ⟨f, g, hreordered⟩ := reordered_twoFields
  obtain ⟨hok, -, hplaces⟩ := key_order_immaterial hreordered horderly 2 (by decide)
    { abortEarly := false } (Workshop.made_new {}) hrun hrun'
  exact ⟨o, o', w, w', hrun, hrun', ho, hok.trans ho, hplaces rfl⟩

/-! ### Where the order can be told -/

/-- Two required fields of an object that asks for the first failure only. -/
def requiredPair (first second : String) : Schema :=
  { node := {
      form := .object {
        keys := some [(first, any.withPresence .required), (second, any.withPresence .required)]
        order := [first, second] }
      prefs := some { abortEarly := some true } } }

/-- An object in which `a` is what `b` is, once `b` has been made a number if
it stands before `a`. -/
def numberBefore : Schema :=
  ofForm (.object {
    patterns := [
      ⟨.schema (any.valid [.literal (.string "a")]), any.valid [.reference (.ofKey "b")]⟩,
      ⟨.schema (any.valid [.literal (.string "b")]), number⟩]
    unknown := some true })

/-- Something that may only be there if the object around it is such. -/
def ifNumberBefore : Schema :=
  { node := {
      form := .alternatives {
        entries := [.conditional (.reference (.ofKey "..")) [{ test := some numberBefore }]
          (some (any.withPresence .forbidden))]
        base := some any }
      flags := { presence := some .ignore } } }

/-- Two defaults, after a field that may only be there if their order is right. -/
def defaultPair (first second : String × Schema) : Schema :=
  { node := {
      form := .object
        { keys := some [("c", any), first, second], order := ["c", first.1, second.1] }
      rules := [⟨"assert", [.reference (.ofKey "c.x"), .schema ifNumberBefore,
        .literal (.string "stand in order")]⟩] } }

def numberDefault : String × Schema := ("a", any.withDefault (.value (.ofNat 2)))

def textDefault : String × Schema := ("b", any.withDefault (.value (.string "2")))

/-- Two required fields in either order; neither looks anything up. -/
theorem reordered_requiredPair :
    (∃ f g, Schema.Reordered f g (requiredPair "a" "b") (requiredPair "b" "a")) ∧
    ∀ t ∈ (requiredPair "a" "b").node.form.schemas, t.Throughout {} IsIsolated := by
  refine ⟨⟨_, _, rfl, rfl, ObjectForm.reordered_declared ?_ (List.Perm.swap ..) ?_⟩, fun t ht => ?_⟩
  · exact List.nodup_cons.mpr ⟨by simp, List.nodup_singleton _⟩
  · simp only [List.forall_mem_cons, List.not_mem_nil, false_implies, implies_true, and_true]
    exact ⟨siblingRefs_leaf rfl rfl 1, siblingRefs_leaf rfl rfl 1⟩
  · have hboth : t ∈ [any.withPresence .required, any.withPresence .required] := ht
    obtain rfl : t = any.withPresence .required := by simpa using hboth
    exact isolated_leaf rfl rfl (by decide)

/-- Two fields with defaults in either order, after one that looks at neither. -/
theorem reordered_defaultPair :
    (∃ f g, Schema.Reordered f g (defaultPair numberDefault textDefault)
      (defaultPair textDefault numberDefault)) ∧
    ∀ t ∈ (defaultPair numberDefault textDefault).node.form.schemas,
      t.Throughout {} IsIsolated := by
  refine ⟨⟨_, _, rfl, rfl, ObjectForm.reordered_declared ?_ ((List.Perm.swap ..).cons _) ?_⟩,
    fun t ht => ?_⟩
  · have hkeys : ["c", "a", "b"].Nodup := by simp
    exact hkeys
  · simp only [List.forall_mem_cons, List.not_mem_nil, false_implies, implies_true, and_true]
    exact ⟨siblingRefs_leaf rfl rfl 1, siblingRefs_leaf rfl rfl 1, siblingRefs_leaf rfl rfl 1⟩
  · have hall : t ∈ [any, numberDefault.2, textDefault.2] := ht
    simp only [List.mem_cons, List.not_mem_nil, or_false] at hall
    rcases hall with rfl | rfl | rfl
    all_goals exact isolated_leaf rfl rfl (by decide)

/-- The order of children that look up nothing can be told all the same where the object itself asks
for the first failure only, and where an assertion of its own looks at the whole object. -/
theorem key_order_matters :
    ((∃ f g, Schema.Reordered f g (requiredPair "a" "b") (requiredPair "b" "a")) ∧
      (∀ t ∈ (requiredPair "a" "b").node.form.schemas, t.Throughout {} IsIsolated) ∧
      (((requiredPair "a" "b").check {} (.object []) { abortEarly := false }).run {}).map
        (fun r => r.1.reports.map Report.place) = some [("any.required", [.key "a"])] ∧
      (((requiredPair "b" "a").check {} (.object []) { abortEarly := false }).run {}).map
        (fun r => r.1.reports.map Report.place) = some [("any.required", [.key "b"])]) ∧
    (∃ f g, Schema.Reordered f g (defaultPair numberDefault textDefault)
      (defaultPair textDefault numberDefault)) ∧
      (∀ t ∈ (defaultPair numberDefault textDefault).node.form.schemas,
        t.Throughout {} IsIsolated) ∧
      (((defaultPair numberDefault textDefault).check {}
        (.object [("c", .object [("x", .ofNat 1)])]) {}).run {}).map
        (fun r => r.1.isOk) = some false ∧
      (((defaultPair textDefault numberDefault).check {}
        (.object [("c", .object [("x", .ofNat 1)])]) {}).run {}).map
        (fun r => r.1.isOk) = some true := by
  refine ⟨⟨reordered_requiredPair.1, reordered_requiredPair.2, ?_, ?_⟩, reordered_defaultPair.1,
    reordered_defaultPair.2, ?_, ?_⟩
  · decide +kernel
  · decide +kernel
  · decide +kernel
  · decide +kernel

end Schema

end Conform
