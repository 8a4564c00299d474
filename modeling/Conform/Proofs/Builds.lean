import Conform.Manifest.Build
import Conform.Proofs.Regular

/-!
# How descriptions are built

Building is a chain of steps, any of which may be refused. Here a part that was built is told by its
shape, with the steps that were taken for it: `BuildsDefault`, `BuildsArgument`, `BuildsMatch` and
`BuildsForm` have one case for each shape, and `schema_ok` lists what a whole schema takes. Later
proofs go through these cases and open no step again.

For each of these there is a theorem with the same name as the step and the suffix `_ok`,
which takes a step that came to something and gives the case. The cases carry the smaller
steps that succeeded, so that an induction over descriptions has what it needs for the parts,
and they say nothing of the order in which errors would have been found, which only matters
where a step is refused.

A rule is added through the same function that calls use, after its arguments are built one by one,
each by its parameter (`Adds`). What is known of rules that calls add, that their arguments pass the
check of the rule, is therefore known of described rules as well.
-/

namespace Conform.Build

open Manifest Schema

variable {registry : Registry} {make : Manifest → Attempt Schema} {sheet : Sheet Manifest}

theorem registered_isSome {α : Type} {find : String → Option α} {name found : String}
    (h : registered find name = .ok found) : (find found).isSome := by
  unfold registered at h
  split at h
  next hsome => exact Except.ok.inj h ▸ hsome
  next => exact absurd h (by simp)

/-! ### Literals and references -/

/-- A reference is read from what is tagged as one. -/
theorem taggedReference?_ok {json : Json} {found : Option Reference}
    (h : taggedReference? registry json = .ok found) :
    found = none ∧ untagged? json "ref" = none ∨
    ∃ content entry r, untagged? json "ref" = some content ∧
      ReferenceEntry.read? content.toSource = some entry ∧ reference registry entry = .ok r ∧
      found = some r := by
  unfold taggedReference? at h
  split at h
  next hnone => exact .inl ⟨(Except.ok.inj h).symm, hnone⟩
  next content hcontent =>
    split at h
    next => exact absurd h (by simp)
    next entry hentry =>
      obtain ⟨r, hr, rfl⟩ := Attempt.map_ok h
      exact .inr ⟨content, entry, r, hcontent, hentry, hr, rfl⟩

theorem item_ok {json : Json} {i : SetItem} (h : item registry json = .ok i) :
    (∃ r, taggedReference? registry json = .ok (some r) ∧ i = .reference r) ∨
      ∃ v, Literal.decode json = .ok v ∧ i = .literal v := by
  obtain ⟨found, hfound, h⟩ := Attempt.bind_ok h
  cases found with
  | some r => exact .inl ⟨r, hfound, (Except.ok.inj h).symm⟩
  | none =>
    obtain ⟨v, hv, h⟩ := Attempt.bind_ok h
    exact .inr ⟨v, hv, (Except.ok.inj h).symm⟩

/-- What a default is built to be. -/
inductive BuildsDefault (registry : Registry) (json : Json) : Default → Prop
  | reference {r : Reference} (htagged : taggedReference? registry json = .ok (some r)) :
      BuildsDefault registry json (.reference r)
  | function {name : String} (hname : (registry.defaults name).isSome) :
      BuildsDefault registry json (.function name)
  | deep : BuildsDefault registry json .deep
  | value {v : Value} (hv : Literal.decode json = .ok v) : BuildsDefault registry json (.value v)

theorem default_ok {json : Json} {d : Default} (h : default registry json = .ok d) :
    BuildsDefault registry json d := by
  obtain ⟨found, hfound, h⟩ := Attempt.bind_ok h
  cases found with
  | some r => exact Except.ok.inj h ▸ .reference hfound
  | none =>
    dsimp only at h
    split at h
    next =>
      obtain ⟨name, hname, h⟩ := Attempt.bind_ok h
      exact Except.ok.inj h ▸ .function (registered_isSome hname)
    next =>
      split at h
      next => exact Except.ok.inj h ▸ .deep
      next =>
        obtain ⟨v, hv, h⟩ := Attempt.bind_ok h
        exact Except.ok.inj h ▸ .value hv

/-! ### Rules -/

/-- The description that an argument holds. -/
def described? (json : Json) : Option Manifest :=
  (untagged? json "schema").bind fun content => Manifest.read? content.toSource

/-- What an argument is built to be. -/
inductive BuildsArgument (registry : Registry) (make : Manifest → Attempt Schema)
    (p : Parameter) (json : Json) : Argument Schema → Prop
  | reference {r : Reference} (htagged : taggedReference? registry json = .ok (some r)) :
      BuildsArgument registry make p json (.reference r)
  | pattern {regex : Pattern} (hkind : p.kind = .pattern) :
      BuildsArgument registry make p json (.pattern regex)
  | schema {m : Manifest} {s : Schema} (hkind : p.kind = .schema) (hm : described? json = some m)
      (hs : make m = .ok s) : BuildsArgument registry make p json (.schema s)
  | function {name : String} (hkind : p.kind = .function) (hname : (registry.customs name).isSome) :
      BuildsArgument registry make p json (.function name)
  | literal {v : Value} (huntagged : taggedReference? registry json = .ok none)
      (hkind : p.kind ∉ [ArgumentKind.pattern, .schema, .function])
      (hv : Literal.decode json = .ok v) : BuildsArgument registry make p json (.literal v)

theorem argument_ok {p : Parameter} {json : Json} {arg : Argument Schema}
    (h : argument registry make p json = .ok arg) : BuildsArgument registry make p json arg := by
  -- whatever does not fit the parameter is thrown, and then nothing is built
  have hrefused {e : SchemaError} {α : Prop}
      (h : (throw e : Attempt (Argument Schema)) = .ok arg) : α :=
    absurd h (by simp [throw, throwThe, MonadExceptOf.throw])
  obtain ⟨found, hfound, h⟩ := Attempt.bind_ok h
  cases found with
  | some r => exact Except.ok.inj h ▸ .reference hfound
  | none =>
    dsimp only at h
    split at h
    next hkind =>
      split at h
      next =>
        obtain ⟨regex, -, h⟩ := Attempt.bind_ok h
        exact Except.ok.inj h ▸ .pattern hkind
      next => exact hrefused h
    -- a schema is read from its description first and built then
    next hkind =>
      split at h
      next content hcontent =>
        split at h
        next m hread =>
          obtain ⟨s, hs, h⟩ := Attempt.bind_ok h
          refine Except.ok.inj h ▸ .schema hkind ?_ hs
          unfold described?
          rw [hcontent]
          exact hread
        next => exact hrefused h
      next => exact hrefused h
    next hkind =>
      split at h
      next =>
        obtain ⟨name, hname, h⟩ := Attempt.bind_ok h
        exact Except.ok.inj h ▸ .function hkind (registered_isSome hname)
      next => exact hrefused h
    next hpattern hschema hfunction =>
      obtain ⟨v, hv, h⟩ := Attempt.bind_ok h
      refine Except.ok.inj h ▸ .literal hfound ?_ hv
      simp only [List.mem_cons, List.not_mem_nil, or_false, not_or]
      exact ⟨hpattern, hschema, hfunction⟩

/-- The rule is added for the entry. -/
def Adds (registry : Registry) (make : Manifest → Attempt Schema) (kind : Kind) (entry : RuleEntry)
    (rule : Rule Schema) : Prop :=
  ∃ spec, kind.rule? entry.name = some spec ∧ rule.name = spec.name ∧
    spec.check rule.args = .ok () ∧
    List.Forall₂ (fun p arg => argumentOf registry make entry p = .ok arg) spec.parameters rule.args

/-- A described rule is added like any other, under the same checks. -/
theorem adds_addRule {n m : Node Schema} {entry : RuleEntry}
    (h : addRule registry make n entry = .ok m) : ∃ rule, Adds registry make n.kind entry rule ∧
      m = { n with rules := Node.appendRule n.rules rule (n.kind.repeats entry.name) } := by
  unfold addRule at h
  cases hspec : n.kind.rule? entry.name with
  | none =>
    rw [hspec] at h
    exact absurd h (by simp)
  | some spec =>
    rw [hspec] at h
    obtain ⟨args, hargs, h⟩ := Attempt.bind_ok h
    obtain ⟨spec', hspec', hcheck, rfl⟩ := Schema.addRule_ok h
    obtain rfl : spec = spec' := Option.some.inj (hspec.symm.trans hspec')
    rw [← Kind.repeats_eq hspec]
    exact ⟨⟨spec.name, args⟩, ⟨spec, hspec, rfl, hcheck, Attempt.mapM_ok_iff.mp hargs⟩, rfl⟩

theorem Adds.name {kind : Kind} {entry : RuleEntry} {rule : Rule Schema}
    (h : Adds registry make kind entry rule) : rule.name = entry.name := by
  obtain ⟨spec, hspec, hname, -⟩ := h
  exact hname.trans (Kind.rule?_name hspec)

/-! ### Forms -/

/-- The form of an object: its children declared, its renames made. -/
theorem object_ok {form : ObjectForm Schema} (h : object make sheet = .ok form) :
    ∃ unknown base renamed patterns,
      (base = { unknown } ∨ ∃ described children, sheet.keys = some described ∧
        (described.mapM fun child => do return (child.1, ← make child.2)) = .ok children ∧
          ObjectForm.setChildren { unknown } children = .ok base) ∧
      sheet.renames.foldlM ObjectForm.addRename base = .ok renamed ∧
      sheet.patterns.mapM (keyPattern make) = .ok patterns ∧
      form = { renamed with dependencies := sheet.dependencies, patterns } := by
  obtain ⟨base, hbase, h⟩ := Attempt.bind_ok h
  obtain ⟨renamed, hrenamed, h⟩ := Attempt.bind_ok h
  obtain ⟨patterns, hpatterns, h⟩ := Attempt.bind_ok h
  refine ⟨switch? sheet.flags "unknown", base, renamed, patterns, ?_, hrenamed, hpatterns,
    (Except.ok.inj h).symm⟩
  cases hkeys : sheet.keys with
  | none =>
    rw [hkeys] at hbase
    exact .inl (Except.ok.inj hbase).symm
  | some described =>
    rw [hkeys] at hbase
    obtain ⟨children, hchildren, hset⟩ := Attempt.bind_ok hbase
    exact .inr ⟨described, children, rfl, hchildren, hset⟩

/-- What the condition of an entry is built to be. -/
inductive BuildsCondition (registry : Registry) (make : Manifest → Attempt Schema)
    (entry : MatchEntry Manifest) : Condition Schema → Prop
  | reference {given : ReferenceEntry} {r : Reference} (hgiven : entry.reference = some given)
      (hr : Build.reference registry given = .ok r) :
      BuildsCondition registry make entry (.reference r)
  | schema {m : Manifest} {s : Schema} (hgiven : entry.reference = none)
      (hm : entry.condition = some m)
      (hs : make m = .ok s) : BuildsCondition registry make entry (.schema s)

theorem condition_ok {entry : MatchEntry Manifest} {c : Condition Schema}
    (h : condition registry make entry = .ok c) : BuildsCondition registry make entry c := by
  unfold Build.condition at h
  split at h
  next hgiven _ =>
    obtain ⟨r, hr, rfl⟩ := Attempt.map_ok h
    exact .reference hgiven hr
  next hgiven hm =>
    obtain ⟨s, hs, rfl⟩ := Attempt.map_ok h
    exact .schema hgiven hm hs
  next => exact absurd h (by simp)

/-- What an entry of alternatives is built to be. -/
inductive BuildsMatch (registry : Registry) (make : Manifest → Attempt Schema)
    (entry : MatchEntry Manifest) : Match Schema → Prop
  | attempt {m : Manifest} {s : Schema} (hm : entry.schema = some m) (hs : make m = .ok s) :
      BuildsMatch registry make entry (.attempt s)
  | conditional {condition : Condition Schema} {cases : List (Case Schema)}
      {otherwise : Option Schema}
      (hnone : entry.schema = none) (hcondition : BuildsCondition registry make entry condition)
      (hcases : List.Forall₂ (fun given c => given.test.mapM make = .ok c.test ∧
        given.branch.mapM make = .ok c.branch) entry.cases cases)
      (hotherwise : entry.otherwise.mapM make = .ok otherwise) :
      BuildsMatch registry make entry (.conditional condition cases otherwise)

theorem matchEntry_ok {entry : MatchEntry Manifest} {m : Match Schema}
    (h : matchEntry registry make entry = .ok m) : BuildsMatch registry make entry m := by
  unfold matchEntry at h
  split at h
  next d hd =>
    obtain ⟨s, hs, h⟩ := Attempt.bind_ok h
    exact Except.ok.inj h ▸ .attempt hd hs
  next hnone =>
    obtain ⟨condition, hcondition, h⟩ := Attempt.bind_ok h
    obtain ⟨cases, hcases, h⟩ := Attempt.bind_ok h
    obtain ⟨otherwise, hotherwise, h⟩ := Attempt.bind_ok h
    refine Except.ok.inj h ▸ .conditional hnone (condition_ok hcondition) ?_ hotherwise
    refine (Attempt.mapM_ok_iff.mp hcases).imp fun given c hstep => ?_
    obtain ⟨test, htest, hstep⟩ := Attempt.bind_ok hstep
    obtain ⟨branch, hbranch, hstep⟩ := Attempt.bind_ok hstep
    obtain rfl := Except.ok.inj hstep
    exact ⟨htest, hbranch⟩

/-- What the form of a schema is built to be, by its type. -/
inductive BuildsForm (registry : Registry) (make : Manifest → Attempt Schema)
    (sheet : Sheet Manifest) : Kind → Form Schema → Prop
  | any : BuildsForm registry make sheet .any .any
  | alternatives {entries : List (Match Schema)} {base : Option Schema}
      (hentries : List.Forall₂ (BuildsMatch registry make) sheet.entries entries)
      (hbase : sheet.base.mapM make = .ok base) :
      BuildsForm registry make sheet .alternatives (.alternatives { entries, base })
  | array {items ordered : List Schema} {sparse single : Bool}
      (hitems : sheet.items.mapM make = .ok items)
      (hordered : sheet.ordered.mapM make = .ok ordered) :
      BuildsForm registry make sheet .array (.array { items, ordered, sparse, single })
  | binary : BuildsForm registry make sheet .binary
      (.binary ((Members.get? sheet.flags "encoding").bind text?))
  | boolean {truthy falsy : ValueSet} {sensitive : Bool}
      (htruthy : set registry sheet.truthy = .ok truthy)
      (hfalsy : set registry sheet.falsy = .ok falsy) :
      BuildsForm registry make sheet .boolean (.boolean { truthy, falsy, sensitive })
  | date {format : Option DateFormat} : BuildsForm registry make sheet .date (.date format)
  | lazy {generator : String} {once : Bool} (hgenerator : (registry.generators generator).isSome) :
      BuildsForm registry make sheet .lazy (.lazy { generator, once })
  | number {allowed : Bool} : BuildsForm registry make sheet .number (.number allowed)
  | object {f : ObjectForm Schema} (hf : Build.object make sheet = .ok f) :
      BuildsForm registry make sheet .object (.object f)
  | string {f : StringForm} : BuildsForm registry make sheet .string (.string f)

theorem form_ok {kind : Kind} {given : Form Schema}
    (h : form registry make kind sheet = .ok given) :
    BuildsForm registry make sheet kind given := by
  cases kind with
  | any => exact Except.ok.inj h ▸ .any
  | alternatives =>
    obtain ⟨entries, hentries, h⟩ := Attempt.bind_ok h
    obtain ⟨base, hbase, h⟩ := Attempt.bind_ok h
    exact Except.ok.inj h ▸ .alternatives
      ((Attempt.mapM_ok_iff.mp hentries).imp fun _ _ => matchEntry_ok) hbase
  | array =>
    obtain ⟨items, hitems, h⟩ := Attempt.bind_ok h
    obtain ⟨ordered, hordered, h⟩ := Attempt.bind_ok h
    exact Except.ok.inj h ▸ .array hitems hordered
  | binary => exact Except.ok.inj h ▸ .binary
  | boolean =>
    obtain ⟨truthy, htruthy, h⟩ := Attempt.bind_ok h
    obtain ⟨falsy, hfalsy, h⟩ := Attempt.bind_ok h
    exact Except.ok.inj h ▸ .boolean htruthy hfalsy
  | date =>
    obtain ⟨format, -, h⟩ := Attempt.bind_ok h
    exact Except.ok.inj h ▸ .date
  | lazy =>
    obtain ⟨f, hf, h⟩ := Attempt.bind_ok h
    -- a lazy form has a generator, and a registered one
    unfold lazyForm at hf
    split at hf
    next => exact absurd hf (by simp [throw, throwThe, MonadExceptOf.throw])
    next =>
      obtain ⟨generator, hgenerator, hf⟩ := Attempt.bind_ok hf
      obtain rfl := Except.ok.inj hf
      exact Except.ok.inj h ▸ .lazy (registered_isSome hgenerator)
  | number => exact Except.ok.inj h ▸ .number
  | object =>
    obtain ⟨f, hf, h⟩ := Attempt.bind_ok h
    exact Except.ok.inj h ▸ .object hf
  | string =>
    obtain ⟨replacements, -, h⟩ := Attempt.bind_ok h
    exact Except.ok.inj h ▸ .string

/-! ### Schemas -/

/-- The flags are set, the annotations among them, and what counts as missing; the rest stays. -/
theorem setFlags_ok {n m : Node Schema} (h : setFlags registry make sheet n = .ok m) :
    ∃ flags empty description unit, sheet.empty.mapM make = .ok empty ∧
      (Members.get? sheet.flags "default").mapM (default registry) = .ok flags.default ∧
      (Members.get? sheet.flags "failover").mapM (default registry) = .ok flags.failover ∧
      m = { n with flags, empty, notes := { n.notes with description, unit } } := by
  unfold setFlags at h
  obtain ⟨presence, -, h⟩ := Attempt.bind_ok h
  obtain ⟨label, -, h⟩ := Attempt.bind_ok h
  obtain ⟨message, -, h⟩ := Attempt.bind_ok h
  obtain ⟨description, -, h⟩ := Attempt.bind_ok h
  obtain ⟨unit, -, h⟩ := Attempt.bind_ok h
  obtain ⟨initial, hinitial, h⟩ := Attempt.bind_ok h
  obtain ⟨failover, hfailover, h⟩ := Attempt.bind_ok h
  obtain ⟨empty, hempty, h⟩ := Attempt.bind_ok h
  exact ⟨_, empty, description, unit, hempty, hinitial, hfailover, (Except.ok.inj h).symm⟩

/-- A schema is built from a form, flags, sets and rules, in that order; then what is
said of it in passing. -/
theorem schema_ok {s : Schema} (h : schema registry make sheet = .ok s) :
    ∃ kind form n allowed denied m notes, Kind.ofName? sheet.kind = some kind ∧
      Build.form registry make kind sheet = .ok form ∧
      setFlags registry make sheet { form } = .ok n ∧
      sheet.allow.mapM (item registry) = .ok allowed ∧
      sheet.invalid.mapM (item registry) = .ok denied ∧
      sheet.rules.foldlM (addRule registry make)
        (denied.foldl Node.deny (allowed.foldl Node.allow n)) = .ok m ∧
      sheet.examples.mapM Literal.decode = .ok notes.examples ∧
      sheet.metas.mapM Literal.decode = .ok notes.metas ∧
      s = { node := { m with prefs := sheet.preferences, notes } } := by
  unfold schema at h
  cases hkind : Kind.ofName? sheet.kind with
  | none =>
    rw [hkind] at h
    exact absurd h (by simp [throw, throwThe, MonadExceptOf.throw])
  | some kind =>
    rw [hkind] at h
    obtain ⟨form, hform, h⟩ := Attempt.bind_ok h
    obtain ⟨n, hn, h⟩ := Attempt.bind_ok h
    obtain ⟨allowed, hallowed, h⟩ := Attempt.bind_ok h
    obtain ⟨denied, hdenied, h⟩ := Attempt.bind_ok h
    obtain ⟨m, hm, h⟩ := Attempt.bind_ok h
    obtain ⟨examples, hexamples, h⟩ := Attempt.bind_ok h
    obtain ⟨metas, hmetas, h⟩ := Attempt.bind_ok h
    exact ⟨kind, form, n, allowed, denied, m, _, rfl, hform, hn, hallowed, hdenied,
      hm, hexamples, hmetas, (Except.ok.inj h).symm⟩

end Conform.Build
