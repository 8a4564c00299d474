import Mathlib.Algebra.Group.Nat.Defs
import Conform.Proofs.Attempt
import Conform.Proofs.ChildOrder
import Conform.Proofs.Marks
import Conform.Schema.Conditional

/-!
# Schemas that calls make

Schemas are not written down but put together by calls, each of which extends a schema by a setting,
a rule, inner schemas or another schema. `Call` lists them, and `Schema.Made` says which schemas
come of any number of calls, the schemas handed to a call being made in the same way. `origin`
admits further schemas to start from, such as those built from descriptions.

A call may be refused: for an argument that does not fit, for a type that does not have the
rule, for children that cannot be put in order, for two schemas that cannot be merged. So a call
is a function to schemas or a reason, and a schema is made if there is a chain of calls none of
which is refused. The theorems about made schemas are inductions on that chain, and each needs
to know what a call puts where.

Most calls are simple: they change settings of one node and put inside what they are handed, if
anything. That is said once for all of them (`inner_apply`) by going through the kinds of change, of
flags, of sets, of rules and of the form. Putting schemas together and making branches of a
conditional are the two calls that go deeper, and are dealt with where they are needed.

Main statement: `Schema.inner_apply`, by which a call on a single node puts nothing
inside but what it was handed.
-/

namespace Conform

/-- A reference as keys write it, with what may be said about it afterwards. A level is a machine
word. -/
inductive Reference.Written : Reference → Prop
  | key (key : String) (separator : Char) : Written (.ofKey key separator)
  | level {r : Reference} (levels : Nat) : Written r → levels < 2 ^ 64 →
      Written (r.withLevel levels)
  | values {r : Reference} : Written r → Written { r with inValues := true }
  | table {r : Reference} (table : List (Value × Value)) : Written r → Written { r with table }
  | adjuster {r : Reference} (name : String) : Written r → Written { r with adjuster := some name }

def SetItem.reference? : SetItem → Option Reference
  | .literal _ => none
  | .reference r => some r

/-- The item as a rule argument. -/
def SetItem.argument {σ : Type} : SetItem → Argument σ
  | .literal value => .literal value
  | .reference r => .reference r

/-- The schemas handed over with a conditional. -/
def When.schemas (w : When) : List Schema := w.cases.flatMap Case.schemas ++ w.otherwise.toList

/-! ### Calls -/

/-- The rules that compare with a limit or another number. -/
def limitNames : List String := ["min", "max", "length", "greater", "less", "precision", "multiple"]

/-- The rules that one boolean refines. -/
def switchNames : List String := ["hex", "base64", "trim"]

/-- A call that adds a rule. -/
inductive RuleCall
  | limit (name : String) (known : name ∈ limitNames) (bound : SetItem)
  /-- A rule without parameters. -/
  | plain (name : String)
  | switch (name : String) (known : name ∈ switchNames) (on : Bool)
  | case (direction : String)
  | pattern (source : String) (name : Option String) (invert : Bool)
  | unique (path : Option String) (ignoreUndefined : Bool)
  | custom (name : String)
  | has (schema : Schema)
  | assert (subject : Reference) (schema : Schema) (message : String)

namespace RuleCall

def apply (call : RuleCall) (s : Schema) : Except SchemaError Schema :=
  match call with
  | .limit name _ bound => s.withRule name [bound.argument]
  | .plain name => s.withRule name []
  | .switch name _ on => s.withRule name [.literal (.bool on)]
  | .case direction => s.withRule "case" [.literal (.string direction)]
  | .pattern source name invert => s.pattern source name invert
  | .unique path ignoreUndefined => s.unique path ignoreUndefined
  | .custom name => s.custom name
  | .has schema => s.has schema
  | .assert subject schema message => s.assert subject schema message

def schemas : RuleCall → List Schema
  | .has schema => [schema]
  | .assert _ schema _ => [schema]
  | _ => []

def references : RuleCall → List Reference
  | .limit _ _ bound => bound.reference?.toList
  | .assert subject _ _ => [subject]
  | _ => []

end RuleCall

/-- A call that extends a schema. -/
inductive Call
  | allow (given : List SetItem)
  | deny (given : List SetItem)
  | valid (given : List SetItem)
  | only
  | presence (wanted : Presence)
  | default (source : Default)
  | failover (value : Value)
  | empty (matched : Schema)
  | label (text : String)
  | strip
  | raw
  | message (text : String)
  | prefs (patch : PreferencesPatch)
  | strict
  | description (text : String)
  | note (text : String)
  | tag (text : String)
  | sample (value : Value)
  | unit (text : String)
  | remark (value : Value)
  | rule (added : RuleCall)
  | insensitive
  | truncate
  | replace (source template : String)
  | allowUnsafe
  | format (wanted : DateFormat)
  | encoding (name : String)
  | truthy (given : List SetItem)
  | falsy (given : List SetItem)
  | sensitive
  | items (inner : List Schema)
  | ordered (inner : List Schema)
  | sparse (enabled : Bool)
  | single
  | keys (children : List (String × Schema))
  | rename (added : Rename)
  | dependency (added : Dependency)
  | keyPattern (source : String) (inner : Schema)
  | keySchema (key inner : Schema)
  | unknown (allowed : Bool)
  | once (kept : Bool)
  | attempt (inner : Schema)
  /-- A conditional among the entries of alternatives. -/
  | addWhen (condition : Condition Schema) (w : When)
  /-- The whole schema under a condition. -/
  | under (condition : Condition Schema) (w : When)
  | concat (source : Schema)

namespace Call

def apply (call : Call) (s : Schema) : Except SchemaError Schema :=
  match call with
  | .allow given => .ok (s.allow given)
  | .deny given => .ok (s.deny given)
  | .valid given => .ok (s.valid given)
  | .only => .ok s.only
  | .presence wanted => .ok (s.withPresence wanted)
  | .default source => .ok (s.withDefault source)
  | .failover value => .ok (s.withFailover value)
  | .empty matched => .ok (s.withEmpty matched)
  | .label text => .ok (s.withLabel text)
  | .strip => .ok s.strip
  | .raw => .ok s.raw
  | .message text => .ok (s.withMessage text)
  | .prefs patch => .ok (s.withPrefs patch)
  | .strict => .ok s.strict
  | .description text => .ok (s.withDescription text)
  | .note text => .ok (s.withNote text)
  | .tag text => .ok (s.withTag text)
  | .sample value => .ok (s.withExample value)
  | .unit text => .ok (s.withUnit text)
  | .remark value => .ok (s.withMeta value)
  | .rule added => added.apply s
  | .insensitive => .ok s.insensitive
  | .truncate => .ok s.truncate
  | .replace source template => s.replace source template
  | .allowUnsafe => .ok s.allowUnsafe
  | .format wanted => .ok (s.withFormat wanted)
  | .encoding name => s.withEncoding name
  | .truthy given => .ok (s.truthy given)
  | .falsy given => .ok (s.falsy given)
  | .sensitive => .ok s.sensitive
  | .items inner => .ok (s.items inner)
  | .ordered inner => .ok (s.ordered inner)
  | .sparse enabled => .ok (s.sparse enabled)
  | .single => .ok s.single
  | .keys children => s.keys children
  | .rename added => s.rename added
  | .dependency added => .ok (s.dependency added)
  | .keyPattern source
      inner => do return s.keyPattern (.pattern (← Schema.readPattern source)) inner
  | .keySchema key inner => .ok (s.keyPattern (.schema key) inner)
  | .unknown allowed => .ok (s.unknown allowed)
  | .once kept => .ok (s.once kept)
  | .attempt inner => .ok (s.attempt inner)
  | .addWhen condition w => s.addWhen condition w
  | .under condition w => s.when condition w
  | .concat source => s.concat source

/-- The schemas handed over with a call. -/
def schemas : Call → List Schema
  | .empty matched => [matched]
  | .rule added => added.schemas
  | .items inner => inner
  | .ordered inner => inner
  | .keys children => children.map (·.2)
  | .keyPattern _ inner => [inner]
  | .keySchema key inner => [key, inner]
  | .attempt inner => [inner]
  | .addWhen condition w => condition.schema?.toList ++ w.schemas
  | .under condition w => condition.schema?.toList ++ w.schemas
  | .concat source => [source]
  | _ => []

/-- The references handed over with a call. -/
def references : Call → List Reference
  | .allow given => given.filterMap SetItem.reference?
  | .deny given => given.filterMap SetItem.reference?
  | .valid given => given.filterMap SetItem.reference?
  | .default (.reference r) => [r]
  | .rule added => added.references
  | .truthy given => given.filterMap SetItem.reference?
  | .falsy given => given.filterMap SetItem.reference?
  | .addWhen condition _ => condition.reference?.toList
  | .under condition _ => condition.reference?.toList
  | _ => []

/-- Whether the call changes a single node, and leaves the schemas inside as they are. -/
def isSimple : Call → Bool
  | .addWhen .. => false
  | .under .. => false
  | .concat _ => false
  | _ => true

end Call

namespace Schema

/-- The schemas of each type with no settings, lazy ones apart. -/
def plain : List Schema :=
  [any, boolean, number, date, binary, array, object, alternatives, string]

/-- What comes of calls. -/
inductive Made (origin : Schema → Prop) : Schema → Prop
  | origin {s : Schema} : origin s → Made origin s
  | plain {s : Schema} : s ∈ plain → Made origin s
  | lazily (generator : String) : Made origin (lazily generator)
  | call {s t : Schema} (call : Call) : Made origin s →
      (∀ inner ∈ call.schemas, Made origin inner) →
      (∀ r ∈ call.references, r.Written) → call.apply s = .ok t → Made origin t
  /-- Copies, which share a stamp, and schemas that were given stamps and cells. -/
  | marked {s t : Schema} : Made origin s → t.bare = s.bare → Made origin t

theorem Made.any {origin : Schema → Prop} : Made origin Schema.any := .plain (List.mem_cons_self ..)

/-- A call that is handed neither schemas nor references asks nothing of what it is handed. -/
theorem Made.extended {origin : Schema → Prop} {s t : Schema} (hs : Made origin s) (call : Call)
    (hinner : call.schemas = []) (hrefs : call.references = [])
    (h : call.apply s = .ok t) : Made origin t :=
  .call call hs (hinner ▸ List.forall_mem_nil _) (hrefs ▸ List.forall_mem_nil _) h

/-! ### What a call puts inside -/

theorem mem_appendRule {σ : Type} {rules : List (Rule σ)} {rule r : Rule σ} {repeats : Bool}
    (h : r ∈ Node.appendRule rules rule repeats) : r ∈ rules ∨ r = rule := by
  unfold Node.appendRule at h
  rcases List.mem_append.mp h with hold | hnew
  · split at hold
    · exact .inl hold
    · exact .inl (List.mem_filter.mp hold).1
  · exact .inr (List.mem_singleton.mp hnew)

/-- A rule is added if its type has it and its arguments fit. -/
theorem addRule_ok {σ : Type} {n m : Node σ} {name : String} {args : List (Argument σ)}
    (h : n.addRule name args = .ok m) :
    ∃ spec, n.kind.rule? name = some spec ∧ spec.check args = .ok () ∧
      m = { n with rules := Node.appendRule n.rules ⟨spec.name, args⟩ spec.repeats } := by
  unfold Node.addRule at h
  cases hspec : n.kind.rule? name with
  | none =>
    rw [hspec] at h
    exact absurd h (by simp)
  | some spec =>
    rw [hspec] at h
    obtain ⟨_, hcheck, h⟩ := Attempt.bind_ok h
    exact ⟨spec, rfl, hcheck, (Except.ok.inj h).symm⟩

/-- What is inside after a rule is added stood there before or is an argument. -/
theorem inner_appendRule {σ : Type} {n : Node σ} {rule : Rule σ} {repeats : Bool} {child : σ}
    (hchild : child ∈ ({ n with rules := Node.appendRule n.rules rule repeats } : Node σ).inner) :
    child ∈ n.inner ∨ child ∈ rule.schemas := by
  rcases List.mem_append.mp hchild with hbefore | hform
  · rcases List.mem_append.mp hbefore with hempty | hrules
    · exact .inl (List.mem_append_left _ (List.mem_append_left _ hempty))
    · obtain ⟨rule, hrule, hin⟩ := List.mem_flatMap.mp hrules
      rcases mem_appendRule hrule with hold | rfl
      · refine .inl (List.mem_append_left _ (List.mem_append_right _ ?_))
        exact List.mem_flatMap.mpr ⟨rule, hold, hin⟩
      · exact .inr hin
  · exact .inl (List.mem_append_right _ hform)

theorem inner_withRule {s t : Schema} {name : String} {args : List (Argument Schema)}
    (h : s.withRule name args = .ok t) {child : Schema} (hchild : child ∈ t.inner) :
    child ∈ s.inner ∨ child ∈ args.filterMap Argument.schema? := by
  obtain ⟨n, hn, rfl⟩ := Attempt.map_ok h
  obtain ⟨spec, -, -, rfl⟩ := addRule_ok hn
  exact inner_appendRule hchild

/-- What no item changes in a node, a list of items does not change. -/
theorem foldl_keeps {α β : Type} (part : Node Schema → β) (f : Node Schema → α → Node Schema)
    (hf : ∀ n a, part (f n a) = part n) (given : List α) (n : Node Schema) :
    part (given.foldl f n) = part n := by
  induction given generalizing n with
  | nil => rfl
  | cons a rest ih => exact (ih (f n a)).trans (hf n a)

theorem inner_allow (s : Schema) (given : List SetItem) : (s.allow given).inner = s.inner :=
  foldl_keeps Node.inner Node.allow (fun _ _ => rfl) given s.node

theorem inner_deny (s : Schema) (given : List SetItem) : (s.deny given).inner = s.inner :=
  foldl_keeps Node.inner Node.deny (fun _ _ => rfl) given s.node

/-- A change of the form adds what the form says. -/
theorem inner_updateForm {s child : Schema} {f : Form Schema → Form Schema} {added : List Schema}
    (hf : ∀ form, ∀ c ∈ (f form).schemas, c ∈ form.schemas ∨ c ∈ added)
    (hchild : child ∈ (s.updateForm f).inner) : child ∈ s.inner ∨ child ∈ added := by
  rcases List.mem_append.mp hchild with hbefore | hform
  · exact .inl (List.mem_append_left _ hbefore)
  · exact (hf s.node.form child hform).imp_left (List.mem_append_right _)

/-- A change of the form that keeps what it holds. -/
theorem inner_updateForm_same {s child : Schema} {f : Form Schema → Form Schema}
    (hf : ∀ form, (f form).schemas = form.schemas) (hchild : child ∈ (s.updateForm f).inner) :
    child ∈ s.inner := by
  have h : child ∈ s.inner ∨ child ∈ [] :=
    inner_updateForm (fun form c hc => .inl (hf form ▸ hc)) hchild
  exact h.resolve_right List.not_mem_nil

/-- Only an encoding that is known is taken. -/
theorem withEncoding_ok {s t : Schema} {name : String} (h : s.withEncoding name = .ok t) :
    name ∈ encodings ∧ t = s.updateForm fun
      | .binary _ => .binary (some name)
      | form => form := by
  unfold withEncoding at h
  split at h
  next hknown => exact ⟨List.contains_iff_mem.mp hknown, (Except.ok.inj h).symm⟩
  next => exact nomatch h

theorem schemas_setChildren {f g : ObjectForm Schema} {added : List (String × Schema)}
    (h : f.setChildren added = .ok g) {child : Schema} (hchild : child ∈ (Form.object g).schemas) :
    child ∈ (Form.object f).schemas ∨ child ∈ added.map (·.2) := by
  obtain ⟨order, -, rfl⟩ := ObjectForm.setChildren_eq_ok.mp h
  rcases List.mem_append.mp hchild with hkeys | hpatterns
  · obtain ⟨entry, hentry, rfl⟩ := List.mem_map.mp hkeys
    rcases Members.mem_of_mem_insertAll hentry with hold | hnew
    · exact .inl (List.mem_append_left _ (List.mem_map_of_mem hold))
    · exact .inr (List.mem_map_of_mem hnew)
  · exact .inl (List.mem_append_right _ hpatterns)

/-- A change of an object's form that may be refused. -/
theorem updateObject?_ok {s t : Schema}
    {f : ObjectForm Schema → Except SchemaError (ObjectForm Schema)}
    (h : s.updateObject? f = .ok t) :
    t = s ∨ ∃ form g, s.node.form = .object form ∧ f form = .ok g ∧
      t = { node := { s.node with form := .object g } } := by
  unfold updateObject? at h
  split at h
  next form hform =>
    obtain ⟨g, hg, h⟩ := Attempt.bind_ok h
    exact .inr ⟨form, g, hform, hg, (Except.ok.inj h).symm⟩
  next => exact .inl (Except.ok.inj h).symm

theorem inner_updateObject? {s t child : Schema}
    {f : ObjectForm Schema → Except SchemaError (ObjectForm Schema)} {added : List Schema}
    (hf : ∀ form g, f form = .ok g → ∀ c ∈ (Form.object g).schemas,
      c ∈ (Form.object form).schemas ∨ c ∈ added)
    (h : s.updateObject? f = .ok t) (hchild : child ∈ t.inner) :
    child ∈ s.inner ∨ child ∈ added := by
  rcases updateObject?_ok h with rfl | ⟨form, g, hform, hstep, rfl⟩
  · exact .inl hchild
  · rcases List.mem_append.mp hchild with hbefore | hin
    · exact .inl (List.mem_append_left _ hbefore)
    · rcases hf form g hstep child hin with hold | hnew
      · exact .inl (List.mem_append_right _ (hform ▸ hold))
      · exact .inr hnew

/-- An assertion is a rule like others, of a subject in the context or at least two steps away. -/
theorem assert_ok {s t schema : Schema} {subject : Reference} {message : String}
    (h : s.assert subject schema message = .ok t) :
    (subject.isContext = true ∨ 2 ≤ subject.path.length) ∧
      s.withRule "assert" [.reference subject, .schema schema, .literal (.string message)] =
        .ok t := by
  unfold Schema.assert at h
  split at h
  next => exact absurd h (by simp)
  next hdeep =>
    refine ⟨?_, h⟩
    cases hcontext : subject.isContext with
    | true => exact .inl rfl
    | false =>
      rw [hcontext] at hdeep
      refine .inr (Nat.le_of_not_lt fun hlt => hdeep ?_)
      simpa using hlt

/-- The call of a rule adds it, and the schemas among its arguments were handed over. -/
theorem withRule_of_ruleCall {s t : Schema} {call : RuleCall} (h : call.apply s = .ok t) :
    ∃ name args, s.withRule name args = .ok t ∧
      ∀ child ∈ args.filterMap Argument.schema?, child ∈ call.schemas := by
  cases call with
  | limit name _ bound =>
    refine ⟨_, _, h, fun child hin => ?_⟩
    cases bound <;> exact absurd hin (by simp [SetItem.argument, Argument.schema?])
  | plain | switch | case | unique | custom | has => exact ⟨_, _, h, fun _ hin => hin⟩
  | pattern source name invert =>
    obtain ⟨regex, -, h⟩ := Attempt.bind_ok h
    exact ⟨_, _, h, fun _ hin => hin⟩
  | assert subject schema message => exact ⟨_, _, (assert_ok h).2, fun _ hin => hin⟩

/-- What the call of a rule puts inside was handed over. -/
theorem inner_ruleCall {s t : Schema} {call : RuleCall} (h : call.apply s = .ok t) {child : Schema}
    (hchild : child ∈ t.inner) : child ∈ s.inner ∨ child ∈ call.schemas := by
  obtain ⟨name, args, hadd, hargs⟩ := withRule_of_ruleCall h
  exact (inner_withRule hadd hchild).imp_right (hargs child)

theorem inner_keyPattern {s child inner : Schema} {matcher : KeyMatcher Schema}
    (hchild : child ∈ (s.keyPattern matcher inner).inner) :
    child ∈ s.inner ∨ child ∈ matcher.schema?.toList ++ [inner] := by
  refine inner_updateForm (fun form c hc => ?_) hchild
  cases form with
  | object f =>
    have hc : c ∈ f.childSchemas ++
        (f.patterns ++ [(⟨matcher, inner⟩ : KeyPattern Schema)]).flatMap KeyPattern.schemas := hc
    rw [List.flatMap_append, ← List.append_assoc, List.flatMap_singleton] at hc
    exact List.mem_append.mp hc
  | _ => exact .inl hc

theorem inner_addEntry {s child : Schema} {entry : Match Schema}
    (hchild : child ∈ (s.addEntry entry).inner) : child ∈ s.inner ∨ child ∈ entry.schemas := by
  refine inner_updateForm (fun form c hc => ?_) hchild
  cases form with
  | alternatives f =>
    have hc : c ∈ (f.entries ++ [entry]).flatMap Match.schemas ++ f.base.toList := hc
    rw [List.flatMap_append, List.flatMap_singleton] at hc
    rcases List.mem_append.mp hc with hentries | hbase
    · exact (List.mem_append.mp hentries).imp_left (List.mem_append_left _)
    · exact .inl (List.mem_append_right _ hbase)
  | _ => exact .inl hc

theorem inner_items {s child : Schema} {inner : List Schema}
    (hchild : child ∈ (s.items inner).inner) : child ∈ s.inner ∨ child ∈ inner := by
  refine inner_updateForm (fun form c hc => ?_) hchild
  cases form with
  | array f =>
    have hc : c ∈ (f.items ++ inner) ++ f.ordered := hc
    rcases List.mem_append.mp hc with hitems | hordered
    · exact (List.mem_append.mp hitems).imp_left (List.mem_append_left _)
    · exact .inl (List.mem_append_right _ hordered)
  | _ => exact .inl hc

theorem inner_ordered {s child : Schema} {inner : List Schema}
    (hchild : child ∈ (s.ordered inner).inner) : child ∈ s.inner ∨ child ∈ inner := by
  refine inner_updateForm (fun form c hc => ?_) hchild
  cases form with
  | array f =>
    have hc : c ∈ f.items ++ (f.ordered ++ inner) := hc
    rw [← List.append_assoc] at hc
    exact List.mem_append.mp hc
  | _ => exact .inl hc

/-- What a call on one node puts inside was handed over. -/
theorem inner_apply {s t : Schema} {call : Call} (hsimple : call.isSimple = true)
    (h : call.apply s = .ok t) {child : Schema} (hchild : child ∈ t.inner) :
    child ∈ s.inner ∨ child ∈ call.schemas := by
  -- calls with conditions make more than one node
  cases call with
  | addWhen condition w => exact absurd hsimple (by simp [Call.isSimple])
  | under condition w => exact absurd hsimple (by simp [Call.isSimple])
  | concat source => exact absurd hsimple (by simp [Call.isSimple])
  | rule added => exact inner_ruleCall h hchild
  | replace source template =>
    obtain ⟨pattern, -, h⟩ := Attempt.bind_ok h
    obtain rfl := Except.ok.inj h
    exact .inl (inner_updateForm_same (fun form => by cases form <;> rfl) hchild)
  | encoding name =>
    obtain ⟨-, rfl⟩ := withEncoding_ok h
    exact .inl (inner_updateForm_same (fun form => by cases form <;> rfl) hchild)
  | keys children =>
    exact inner_updateObject? (fun _ _ hstep _ => schemas_setChildren hstep) h hchild
  | rename added =>
    refine inner_updateObject? (fun form g hstep c hc => .inl ?_) h hchild
    obtain ⟨-, rfl⟩ := ObjectForm.addRename_ok hstep
    exact hc
  | keyPattern source inner =>
    obtain ⟨pattern, -, h⟩ := Attempt.bind_ok h
    obtain rfl := Except.ok.inj h
    exact inner_keyPattern hchild
  | allow given | valid given =>
    obtain rfl := Except.ok.inj h
    exact .inl (inner_allow s given ▸ hchild)
  | deny given =>
    obtain rfl := Except.ok.inj h
    exact .inl (inner_deny s given ▸ hchild)
  -- what was handed over takes the place of the schema of missing values
  | empty matched =>
    obtain rfl := Except.ok.inj h
    rcases List.mem_append.mp hchild with hbefore | hform
    · rcases List.mem_append.mp hbefore with hempty | hrules
      · exact .inr hempty
      · exact .inl (List.mem_append_left _ (List.mem_append_right _ hrules))
    · exact .inl (List.mem_append_right _ hform)
  | items inner =>
    obtain rfl := Except.ok.inj h
    exact inner_items hchild
  | ordered inner =>
    obtain rfl := Except.ok.inj h
    exact inner_ordered hchild
  | keySchema key inner =>
    obtain rfl := Except.ok.inj h
    exact inner_keyPattern hchild
  | attempt inner =>
    obtain rfl := Except.ok.inj h
    exact inner_addEntry hchild
  -- these change the form, but none of the schemas in it
  | truncate | allowUnsafe | format | truthy | falsy | sensitive | sparse | single | dependency
  | unknown | once =>
    obtain rfl := Except.ok.inj h
    exact .inl (inner_updateForm_same (fun form => by cases form <;> rfl) hchild)
  -- and these leave the form as it is
  | _ =>
    obtain rfl := Except.ok.inj h
    exact .inl hchild

end Schema

end Conform
