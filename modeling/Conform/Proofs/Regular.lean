import Conform.Proofs.MadeOrder
import Conform.Proofs.Sets

/-!
# Regular schemas

What calls establish of a single node, apart from what they are told: its sets are canonical and
have nothing in common, every rule is one that its type has, with arguments that pass, and stands as
often as it may; a key is renamed once; and the order of children is the one that sorting them gives
(`Schema.Regular`). A description leaves all of this unsaid, and building relies on it.

The property is put together from those of the parts: `Kind.Admits` for the rules of a type,
`ValueSet.Apart` for the two sets, `ObjectForm.Regular` for children and renames and `Flags.Regular`
for defaults. Each of them is shown to be kept by the step that could break it (`Admits.append` by
one more rule, `Regular.setChildren` by more children), and not to depend on marks and on what
stands inside, so that it may be asked of a copy (`regular_bare`).

Then it follows the calls. A call on one node changes one part of it, so there is a lemma for each
kind of change (`Regular.updateForm` and those beside it, `Regular.withRule`, `Regular.allow`,
`Regular.withDefault`), and `Regular.apply` picks the one that a call comes to. The three calls that
bring in other schemas, a conditional among the entries, a condition around the whole and merging,
are dealt with in `regular_kept`, which says that no call leaves the regular schemas.

Main statement: `Schema.regular_kept`.
-/

namespace Conform

variable {σ τ : Type}

/-! ### Rules -/

/-- Whether arguments of the kind are values. -/
def ArgumentKind.isLiteral : ArgumentKind → Bool
  | .pattern => false
  | .schema => false
  | .function => false
  | .subject => false
  | _ => true

/-- The reference goes into the context, or at least two steps into a value. -/
def Reference.Deep (r : Reference) : Prop := r.isContext = true ∨ 2 ≤ r.path.length

/-- What kind of arguments a parameter takes. What is no value may be
missing; a boolean never is. -/
def ArgumentKind.Takes (kind : ArgumentKind) : Argument σ → Prop
  | .literal v =>
    (kind ∈ [.pattern, .schema, .function] → v = .undefined) ∧ (kind = .bool → v.isDefined = true)
  | .reference r => r.Restorable
  | .pattern _ => kind = .pattern
  | .schema _ => kind = .schema
  | .function _ => kind = .function

def RuleSpec.kinds (spec : RuleSpec) : List ArgumentKind := spec.parameters.map (·.kind)

/-- The rule is one that the type has, and its arguments pass. -/
def Rule.Fits (kind : Kind) (rule : Rule σ) : Prop :=
  ∃ spec, kind.rule? rule.name = some spec ∧ spec.check rule.args = .ok () ∧
    List.Forall₂ ArgumentKind.Takes spec.kinds rule.args

namespace Kind

/-- Whether rules of that name add up. -/
def repeats (kind : Kind) (name : String) : Bool := ((kind.rule? name).map (·.repeats)).getD true

/-- A rule is found under its own name. -/
theorem rule?_name {kind : Kind} {name : String} {spec : RuleSpec}
    (h : kind.rule? name = some spec) : spec.name = name := by
  have hfound :=
    List.find?_some (show (kind.ownRules ++ [customRule]).find? (·.name == name) = some spec from h)
  exact beq_iff_eq.mp hfound

/-- Whether a rule adds up is said by the table. -/
theorem repeats_eq {kind : Kind} {name : String} {spec : RuleSpec}
    (h : kind.rule? name = some spec) : kind.repeats name = spec.repeats := by
  unfold repeats
  rw [h]
  rfl

/-- The rules fit, and only those whose names add up stand more than once. -/
structure Admits (kind : Kind) (rules : List (Rule σ)) : Prop where
  fit : ∀ rule ∈ rules, rule.Fits kind
  single : rules.Pairwise fun a b => a.name = b.name → kind.repeats a.name = true

/-- A type admits no rules. -/
theorem admits_nil (kind : Kind) : kind.Admits ([] : List (Rule σ)) :=
  ⟨fun _ h => absurd h List.not_mem_nil, .nil⟩

variable {kind : Kind} {rules : List (Rule σ)}

/-- One more rule that fits is admitted, as an earlier one of its name is
dropped unless they add up. -/
theorem Admits.append (h : kind.Admits rules) {rule : Rule σ} (hrule : rule.Fits kind) :
    kind.Admits (Node.appendRule rules rule (kind.repeats rule.name)) where
  fit := by
    intro r hr
    rcases Schema.mem_appendRule hr with hold | rfl
    · exact h.fit r hold
    · exact hrule
  single := by
    unfold Node.appendRule
    refine List.pairwise_append.mpr ⟨?_, List.pairwise_singleton _ _, fun a ha b hb hname => ?_⟩
    · split
      next => exact h.single
      next => exact h.single.filter _
    · obtain rfl := List.mem_singleton.mp hb
      cases hrepeats : kind.repeats b.name with
      | true => rw [hname, hrepeats]
      | false =>
        rw [hrepeats] at ha
        have hne := (List.mem_filter.mp ha).2
        exact absurd hname (by simpa using hne)

/-- The rules of a schema and of one that extends it are admitted together. -/
theorem Admits.merge (h : kind.Admits rules) {added : List (Rule σ)} (hadded : kind.Admits added) :
    kind.Admits (mergeRules kind rules added) := by
  have hfit := hadded.fit
  unfold mergeRules
  clear hadded
  induction added generalizing rules with
  | nil => exact h
  | cons rule rest ih =>
    exact ih (h.append (hfit rule (List.mem_cons_self ..)))
      fun r hr => hfit r (List.mem_cons_of_mem _ hr)

/-- Every type has the rules of schemas without a type. -/
theorem rule?_of_any {name : String} {spec : RuleSpec} (h : Kind.any.rule? name = some spec)
    (kind : Kind) : kind.rule? name = some spec := by
  have hname : name = "custom" := by
    have hin := List.mem_of_find?_eq_some h
    have hspec : spec = customRule := List.mem_singleton.mp hin
    rw [← rule?_name h, hspec]
    rfl
  subst hname
  obtain rfl : customRule = spec := Option.some.inj h
  cases kind <;> rfl

/-- The rules that every type has are admitted by each type. -/
theorem Admits.of_any (h : Kind.any.Admits rules) (kind : Kind) : kind.Admits rules where
  fit := by
    intro rule hrule
    obtain ⟨spec, hspec, hrest⟩ := h.fit rule hrule
    exact ⟨spec, rule?_of_any hspec kind, hrest⟩
  single := by
    refine h.single.imp_of_mem fun ha _ hrepeats hname => ?_
    obtain ⟨spec, hspec, -⟩ := h.fit _ ha
    rw [repeats_eq (rule?_of_any hspec kind), ← repeats_eq hspec]
    exact hrepeats hname

end Kind

/-- A literal, which may not be missing, is judged by its kind alone. -/
theorem RuleSpec.check_literal {spec : RuleSpec} {p : Parameter}
    (hparameters : spec.parameters = [p]) (hoptional : p.optional = false) (v : Value) :
    spec.check [(.literal v : Argument Schema)] = .ok () ↔ p.kind.rejection? v = none := by
  have hrejection : p.rejection? (.literal v : Argument Schema) = p.kind.rejection? v := by
    unfold Parameter.rejection?
    exact if_neg fun h => Bool.false_ne_true (hoptional.symm.trans h.1)
  unfold RuleSpec.check
  rw [hparameters, if_neg (by simp), checkArguments, hrejection]
  cases p.kind.rejection? v with
  | none => exact iff_of_true rfl rfl
  | some reason =>
    refine iff_of_false ?_ (Option.some_ne_none reason)
    intro h
    cases h

/-! ### Rules over changed schemas -/

/-- What kind an argument is of does not depend on the schema it holds. -/
theorem ArgumentKind.takes_map (f : σ → τ) (kind : ArgumentKind) (arg : Argument σ) :
    kind.Takes (arg.map f) ↔ kind.Takes arg := by
  cases arg <;> rfl

/-- Arguments are accepted by their kinds, whatever the schemas among them. -/
theorem checkArguments_map (f : σ → τ) (rule : String) (parameters : List Parameter)
    (args : List (Argument σ)) :
    checkArguments rule parameters (args.map (Argument.map f)) =
      checkArguments rule parameters args := by
  induction parameters generalizing args with
  | nil => rfl
  | cons p rest ih =>
    cases args with
    | nil => rfl
    | cons arg args =>
      have hsame : p.rejection? (arg.map f) = p.rejection? arg := by cases arg <;> rfl
      rw [List.map_cons, checkArguments, checkArguments, hsame, ih]

/-- The table accepts changed arguments just if it accepts the arguments. -/
theorem RuleSpec.check_map (f : σ → τ) (spec : RuleSpec) (args : List (Argument σ)) :
    spec.check (args.map (Argument.map f)) = spec.check args := by
  unfold check
  rw [List.length_map, checkArguments_map]

/-- A changed rule fits a type just if the rule does. -/
theorem Rule.fits_map (f : σ → τ) (kind : Kind) (rule : Rule σ) :
    (rule.map f).Fits kind ↔ rule.Fits kind := by
  have htakes (spec : RuleSpec) :
      List.Forall₂ ArgumentKind.Takes spec.kinds (rule.args.map (Argument.map f)) ↔
      List.Forall₂ ArgumentKind.Takes spec.kinds rule.args := by
    rw [List.forall₂_map_right_iff]
    constructor
    · exact List.Forall₂.imp fun k arg => (k.takes_map f arg).mp
    · exact List.Forall₂.imp fun k arg => (k.takes_map f arg).mpr
  unfold Fits
  simp only [Rule.map, RuleSpec.check_map, htakes]

/-- A type admits changed rules just if it admits the rules. -/
theorem Kind.admits_map (f : σ → τ) (kind : Kind) (rules : List (Rule σ)) :
    kind.Admits (rules.map (Rule.map f)) ↔ kind.Admits rules := by
  constructor
  · intro h
    refine ⟨fun rule hrule => (rule.fits_map f kind).mp (h.fit _ (List.mem_map_of_mem hrule)), ?_⟩
    exact List.pairwise_map.mp h.single
  · intro h
    refine ⟨fun rule hrule => ?_, List.pairwise_map.mpr h.single⟩
    obtain ⟨r, hr, rfl⟩ := List.mem_map.mp hrule
    exact (r.fits_map f kind).mpr (h.fit r hr)

/-! ### Forms -/

/-- A key is renamed once, and the order of the children is the one that sorting them gives. -/
structure ObjectForm.Regular (f : ObjectForm Schema) : Prop where
  renames : (f.renames.map (·.source)).Nodup
  distinct : Members.Distinct f.children
  order : (graph f.children).sort = .ok f.order

namespace ObjectForm

/-- An object without settings is regular. -/
theorem regular_empty : Regular {} := ⟨.nil, Members.distinct_nil, rfl⟩

/-- Declaring children sorts them, and leaves the renames. -/
theorem Regular.setChildren {f g : ObjectForm Schema} (hf : f.Regular)
    {added : List (String × Schema)} (h : f.setChildren added = .ok g) : g.Regular := by
  obtain ⟨order, horder, rfl⟩ := ObjectForm.setChildren_eq_ok.mp h
  exact ⟨hf.renames, hf.distinct.insertAll added, horder⟩

/-- A key that is renamed already is refused, so each is renamed once. -/
theorem Regular.addRename {f g : ObjectForm Schema} (hf : f.Regular) {rename : Rename}
    (h : f.addRename rename = .ok g) : g.Regular := by
  obtain ⟨hnew, rfl⟩ := ObjectForm.addRename_ok h
  refine ⟨?_, hf.distinct, hf.order⟩
  show ((f.renames ++ [rename]).map (·.source)).Nodup
  rw [List.map_append]
  refine List.nodup_append.mpr ⟨hf.renames, List.nodup_singleton _, fun a ha b hb hab => ?_⟩
  obtain ⟨old, hold, rfl⟩ := List.mem_map.mp ha
  obtain rfl := List.mem_singleton.mp hb
  exact hnew old hold hab

/-- The graph is that of any children under the same keys that read the same siblings. -/
theorem graph_mapChildren {f : Schema → Schema} {children : List (String × Schema)}
    (h : ∀ child ∈ children, (f child.2).siblingRefs 1 = child.2.siblingRefs 1) :
    graph (mapChildren f children) = graph children := by
  have hedges (g : KeyGraph) : children.foldl (fun g child =>
      ((f child.2).siblingRefs 1).foldl (fun g peer => g.addAfter child.1 peer) g) g =
      children.foldl (fun g child =>
        (child.2.siblingRefs 1).foldl (fun g peer => g.addAfter child.1 peer) g) g :=
    List.foldl_ext _ _ _ fun g child hchild => by rw [h child hchild]
  unfold graph mapChildren
  rw [List.foldl_map, List.foldl_map]
  exact hedges _

/-- A child that reads the same siblings, if in another order, runs after the same children. -/
theorem peers_mapChildren {f : Schema → Schema} {children : List (String × Schema)}
    (hdistinct : Members.Distinct children)
    (h : ∀ child ∈ children, ∀ peer, peer ∈ (f child.2).siblingRefs 1 ↔
      peer ∈ child.2.siblingRefs 1) :
    (graph (mapChildren f children)).keys = (graph children).keys ∧
      ∀ key peer, peer ∈ (graph (mapChildren f children)).peers key ↔
        peer ∈ (graph children).peers key := by
  have hmapped : Members.Distinct (mapChildren f children) := by
    unfold Members.Distinct
    rw [keys_mapChildren]
    exact hdistinct
  obtain ⟨hkeys, hpeers⟩ := graph_spec hdistinct
  obtain ⟨hkeys', hpeers'⟩ := graph_spec hmapped
  rw [keys_mapChildren] at hkeys' hpeers'
  refine ⟨hkeys'.trans hkeys.symm, fun key peer => ?_⟩
  rw [hpeers, hpeers']
  constructor
  · rintro ⟨schema, hschema, hread, hrest⟩
    obtain ⟨⟨name, old⟩, hold, heq⟩ := List.mem_map.mp hschema
    obtain ⟨rfl, rfl⟩ := Prod.mk.inj heq
    exact ⟨old, hold, (h _ hold peer).mp hread, hrest⟩
  · rintro ⟨old, hold, hread, hrest⟩
    exact ⟨f old, List.mem_map_of_mem (f := fun child => (child.1, f child.2)) hold,
      (h _ hold peer).mpr hread, hrest⟩

/-- Which siblings children read does not depend on marks. -/
theorem graph_mapChildren_erase (children : List (String × Schema)) :
    graph (mapChildren (Schema.erase false) children) = graph children :=
  graph_mapChildren fun child _ => child.2.siblingRefs_erase 1

/-- An object without marks is regular just if the object is. -/
theorem regular_erase (f : ObjectForm Schema) :
    (f.map (Schema.erase false)).Regular ↔ f.Regular := by
  have hdistinct : Members.Distinct (f.map (Schema.erase false)).children ↔
      Members.Distinct f.children := by
    unfold Members.Distinct
    rw [children_map, keys_mapChildren]
  have horder : (graph (f.map (Schema.erase false)).children).sort = .ok f.order ↔
      (graph f.children).sort = .ok f.order := by
    rw [children_map, graph_mapChildren_erase]
  constructor
  · exact fun h => ⟨h.renames, hdistinct.mp h.distinct, horder.mp h.order⟩
  · exact fun h => ⟨h.renames, hdistinct.mpr h.distinct, horder.mpr h.order⟩

end ObjectForm

namespace Form

/-- What calls establish of a form. -/
def Regular : Form Schema → Prop
  | .alternatives f => ∀ r ∈ f.references, r.Restorable
  | .boolean f => f.truthy.Canonical ∧ f.falsy.Canonical
  | .object f => f.Regular
  | _ => True

/-- A form without marks is regular just if the form is. -/
theorem regular_erase (form : Form Schema) :
    (form.map (Schema.erase false)).withoutCell.Regular ↔ form.Regular := by
  cases form with
  | alternatives f =>
    show (∀ r ∈ (f.map (Schema.erase false)).references, r.Restorable) ↔
      ∀ r ∈ f.references, r.Restorable
    rw [Schema.references_map]
  | object f => exact f.regular_erase
  | _ => rfl

/-- A change inside and the loss of a cell leave the type. -/
theorem kind_map_withoutCell (f : Schema → Schema) (form : Form Schema) :
    (form.map f).withoutCell.kind = form.kind := by
  cases form <;> rfl

/-- A merged form has the type of both sides, or that of one if the other has none. -/
theorem Regular.merge {merge : Schema → Schema → Except SchemaError Schema} {a b form : Form Schema}
    (ha : a.Regular) (hb : b.Regular) (h : a.merge merge b = .ok form) :
    form.Regular ∧ (a.kind = .any ∨ a.kind = form.kind) ∧ (b.kind = .any ∨ b.kind = form.kind) := by
  cases Schema.formsMerged_of_ok h with
  | target => exact ⟨ha, .inr rfl, .inl rfl⟩
  | source => exact ⟨hb, .inl rfl, .inr rfl⟩
  | alternatives f g =>
    refine ⟨fun r hr => ?_, .inr rfl, .inr rfl⟩
    have hr : r ∈ (f.entries ++ g.entries).filterMap Match.reference? := hr
    rw [List.filterMap_append] at hr
    rcases List.mem_append.mp hr with hold | hnew
    · exact ha r hold
    · exact hb r hnew
  | boolean f g =>
    exact ⟨⟨ha.1.addAll hb.1.restorable, ha.2.addAll hb.2.restorable⟩, .inr rfl, .inr rfl⟩
  -- the source declares its children and makes its renames over those of the target
  | object hresult =>
    obtain ⟨base, renamed, hbase, hrenamed, rfl⟩ := Schema.mergeObject_ok hresult
    have hregular : base.Regular := by
      rcases hbase with ⟨-, rfl⟩ | ⟨others, merged, -, -, hset⟩
      · exact ha
      · exact ObjectForm.Regular.setChildren ha hset
    have hrenamed : renamed.Regular :=
      Attempt.foldlM_ok
        (fun o rename o' _ ho hstep => ObjectForm.Regular.addRename ho hstep) hregular
        hrenamed
    exact ⟨⟨hrenamed.renames, hrenamed.distinct, hrenamed.order⟩, .inr rfl, .inr rfl⟩
  | _ => exact ⟨trivial, .inr rfl, .inr rfl⟩

end Form

/-! ### Nodes -/

/-- The references among the defaults can be restored. -/
def Flags.Regular (flags : Flags) : Prop :=
  ∀ d ∈ flags.default.toList ++ flags.failover.toList, ∀ r ∈ d.reference?, r.Restorable

/-- The default of merged flags is one of the two, and so is the failover. -/
theorem Flags.Regular.merge {a b : Flags} (ha : a.Regular) (hb : b.Regular) :
    (a.merge b).Regular := by
  have hin {x y : Option Default} {d : Default} (hd : d ∈ (y <|> x).toList) :
      d ∈ x.toList ∨ d ∈ y.toList := by
    cases y with
    | none => exact .inl hd
    | some _ => exact .inr hd
  intro d hd
  rcases List.mem_append.mp hd with hd | hd
  · rcases hin hd with hd | hd
    · exact ha d (List.mem_append_left _ hd)
    · exact hb d (List.mem_append_left _ hd)
  · rcases hin hd with hd | hd
    · exact ha d (List.mem_append_right _ hd)
    · exact hb d (List.mem_append_right _ hd)

namespace Schema

/-- What calls establish of a node. -/
structure Regular (s : Schema) : Prop where
  sets : s.node.allowed.Apart s.node.denied
  flags : s.node.flags.Regular
  rules : s.kind.Admits s.node.rules
  form : s.node.form.Regular

/-- A schema without marks is regular just if the schema is. -/
theorem regular_bare (s : Schema) : s.bare.Regular ↔ s.Regular := by
  have hnode : s.bare.node = (s.node.map (erase false)).withoutCell := node_erase false s
  have hrules : s.bare.kind.Admits s.bare.node.rules ↔ s.kind.Admits s.node.rules := by
    unfold kind
    rw [hnode]
    show (Form.kind _).Admits (s.node.rules.map (Rule.map (erase false))) ↔ _
    rw [Kind.admits_map]
    show ((s.node.form.map (erase false)).withoutCell.kind).Admits _ ↔ _
    rw [Form.kind_map_withoutCell]
  have hform : s.bare.node.form.Regular ↔ s.node.form.Regular := by
    rw [hnode]
    exact s.node.form.regular_erase
  constructor
  · intro h
    have hsets := h.sets
    have hflags := h.flags
    rw [hnode] at hsets hflags
    exact ⟨hsets, hflags, hrules.mp h.rules, hform.mp h.form⟩
  · intro h
    refine ⟨?_, ?_, hrules.mpr h.rules, hform.mpr h.form⟩
    · rw [hnode]
      exact h.sets
    · rw [hnode]
      exact h.flags

/-! ### What calls keep -/

/-- A schema with one more rule, if its type has the rule and the arguments fit. -/
theorem withRule_ok {s t : Schema} {spec : RuleSpec} {name : String} {args : List (Argument Schema)}
    (hspec : s.kind.rule? name = some spec) : s.withRule name args = .ok t ↔
      spec.check args = .ok () ∧
        t = { node := { s.node with
          rules := Node.appendRule s.node.rules ⟨name, args⟩ spec.repeats } } := by
  have hname := Kind.rule?_name hspec
  have hspec : s.node.kind.rule? name = some spec := hspec
  unfold withRule Node.addRule
  rw [hspec]
  dsimp only
  rw [hname]
  cases spec.check args with
  | error e => exact iff_of_false (fun h => nomatch h) (fun h => nomatch h.1)
  | ok _ => exact ⟨fun h => ⟨rfl, (Except.ok.inj h).symm⟩, fun h => congrArg Except.ok h.2.symm⟩

/-- What can be said of a rule by its name alone is looked up in the tables. -/
theorem spec_of_name {kind : Kind} {name : String} {spec : RuleSpec} {P : RuleSpec → Prop}
    (h : kind.rule? name = some spec)
    (hall : ∀ kind ∈ Kind.all, ∀ spec ∈ (kind.rule? name).toList, P spec) : P spec := by
  have hkind : kind ∈ Kind.all := by cases kind <;> decide
  exact hall kind hkind spec (Option.mem_toList.mpr h)

/-- What the tables say of a name in each type is known of the rule that is found. -/
theorem kinds_of_name {kind : Kind} {name : String} {spec : RuleSpec} {kinds : List ArgumentKind}
    (h : kind.rule? name = some spec)
    (hall : ∀ kind ∈ Kind.all, ∀ spec ∈ (kind.rule? name).toList, spec.kinds = kinds) :
    spec.kinds = kinds :=
  spec_of_name h hall

/-- The rules that compare with a limit take a number or a date. -/
theorem kinds_of_limit {kind : Kind} {name : String} {spec : RuleSpec} (hname : name ∈ limitNames)
    (h : kind.rule? name = some spec) :
    ∃ k ∈ [ArgumentKind.limit, .number, .positive, .date], spec.kinds = [k] := by
  have hall : ∀ name ∈ limitNames, ∀ kind ∈ Kind.all, ∀ spec ∈ (kind.rule? name).toList,
      ∃ k ∈ [ArgumentKind.limit, .number, .positive, .date], spec.kinds = [k] := by decide
  exact spec_of_name h (hall name hname)

/-- The rules that one boolean refines have it as their only parameter. -/
theorem kinds_of_switch {kind : Kind} {name : String} {spec : RuleSpec} (hname : name ∈ switchNames)
    (h : kind.rule? name = some spec) : spec.kinds = [.bool] := by
  have hall : ∀ name ∈ switchNames, ∀ kind ∈ Kind.all, ∀ spec ∈ (kind.rule? name).toList,
      spec.kinds = [.bool] := by decide
  exact spec_of_name h (hall name hname)

/-- What the call of a rule hands over for a kind of argument. -/
def Gives (call : RuleCall) (kind : ArgumentKind) : Argument Schema → Prop
  | .literal v => kind.isLiteral = true ∧ (kind = .bool → v.isDefined = true)
  | .reference r => r ∈ call.references ∧ (kind = .subject → r.Deep)
  | .pattern _ => kind = .pattern
  | .schema _ => kind = .schema
  | .function _ => kind = .function

/-- A text is given outright, and is no switch. -/
theorem gives_text (call : RuleCall) (v : Value) : Gives call .text (.literal v) :=
  ⟨rfl, fun hbool => absurd hbool (by decide)⟩

/-- A switch is given as a boolean. -/
theorem gives_switch (call : RuleCall) (on : Bool) : Gives call .bool (.literal (.bool on)) :=
  ⟨rfl, fun _ => rfl⟩

/-- A bound is given outright or by reference. -/
theorem gives_bound {name : String} {known : name ∈ limitNames} (bound : SetItem)
    {k : ArgumentKind} (hk : k ∈ [ArgumentKind.limit, .number, .positive, .date]) :
    Gives (.limit name known bound) k bound.argument := by
  have hall : ∀ k ∈ [ArgumentKind.limit, .number, .positive, .date],
      k.isLiteral = true ∧ k ≠ .bool ∧ k ≠ .subject := by decide
  obtain ⟨hliteral, hnobool, hnosubject⟩ := hall k hk
  cases bound with
  | reference r => exact ⟨List.mem_singleton_self _, fun heq => absurd heq hnosubject⟩
  | literal v => exact ⟨hliteral, fun heq => absurd heq hnobool⟩

/-- A rule without arguments passes its own check only if it takes none. -/
theorem kinds_of_check_nil {spec : RuleSpec}
    (h : spec.check ([] : List (Argument Schema)) = .ok ()) : spec.kinds = [] := by
  unfold RuleSpec.check at h
  split at h
  next => exact absurd h (by simp)
  next hlength =>
    refine List.eq_nil_of_length_eq_zero ?_
    unfold RuleSpec.kinds
    rw [List.length_map]
    exact (Decidable.not_not.mp hlength).symm

/-- The call of a rule adds it with arguments of the kinds that its table asks for. -/
theorem ruleCall_ok {s t : Schema} {call : RuleCall} (h : call.apply s = .ok t) :
    ∃ name args, s.withRule name args = .ok t ∧ ∀ spec, s.kind.rule? name = some spec →
      spec.check args = .ok () → List.Forall₂ (Gives call) spec.kinds args := by
  cases call with
  | limit name known bound =>
    refine ⟨_, _, h, fun spec hspec _ => ?_⟩
    obtain ⟨k, hk, hkinds⟩ := kinds_of_limit known hspec
    rw [hkinds]
    exact .cons (gives_bound bound hk) .nil
  | plain name =>
    refine ⟨_, _, h, fun spec _ hcheck => ?_⟩
    rw [kinds_of_check_nil hcheck]
    exact .nil
  | switch name known on =>
    refine ⟨_, _, h, fun spec hspec _ => ?_⟩
    rw [kinds_of_switch known hspec]
    exact .cons (gives_switch _ on) .nil
  | case direction =>
    refine ⟨_, _, h, fun spec hspec _ => ?_⟩
    have hkinds : spec.kinds = [.text] := kinds_of_name hspec (by decide)
    rw [hkinds]
    exact .cons (gives_text _ _) .nil
  | pattern source name invert =>
    obtain ⟨regex, -, h⟩ := Attempt.bind_ok h
    refine ⟨_, _, h, fun spec hspec _ => ?_⟩
    have hkinds : spec.kinds = [.pattern, .text, .bool] := kinds_of_name hspec (by decide)
    rw [hkinds]
    exact .cons rfl (.cons (gives_text _ _) (.cons (gives_switch _ invert) .nil))
  | unique path ignoreUndefined =>
    refine ⟨_, _, h, fun spec hspec _ => ?_⟩
    have hkinds : spec.kinds = [.text, .bool] := kinds_of_name hspec (by decide)
    rw [hkinds]
    exact .cons (gives_text _ _) (.cons (gives_switch _ ignoreUndefined) .nil)
  | custom name =>
    refine ⟨_, _, h, fun spec hspec _ => ?_⟩
    have hkinds : spec.kinds = [.function] := kinds_of_name hspec (by decide)
    rw [hkinds]
    exact .cons rfl .nil
  | has schema =>
    refine ⟨_, _, h, fun spec hspec _ => ?_⟩
    have hkinds : spec.kinds = [.schema] := kinds_of_name hspec (by decide)
    rw [hkinds]
    exact .cons rfl .nil
  | assert subject schema message =>
    obtain ⟨hdeep, hadd⟩ := assert_ok h
    refine ⟨_, _, hadd, fun spec hspec _ => ?_⟩
    have hkinds : spec.kinds = [.subject, .schema, .text] := kinds_of_name hspec (by decide)
    rw [hkinds]
    exact .cons ⟨List.mem_singleton_self _, fun _ => hdeep⟩
      (.cons rfl (.cons (gives_text _ _) .nil))

/-- What a call gives for a parameter is of the kind that the parameter takes. -/
theorem takes_of_gives {call : RuleCall} (hrefs : ∀ r ∈ call.references, r.Restorable)
    (k : ArgumentKind) (arg : Argument Schema) (h : Gives call k arg) : k.Takes arg := by
  cases arg with
  | literal v =>
    refine ⟨fun hin => ?_, h.2⟩
    have hall : ∀ k ∈ [ArgumentKind.pattern, .schema, .function], k.isLiteral = false := by decide
    exact absurd h.1 (by rw [hall k hin]; exact Bool.false_ne_true)
  | reference r => exact hrefs r h.1
  | pattern p => exact h
  | schema t => exact h
  | function name => exact h

namespace Regular

variable {s t : Schema}

/-- A rule whose arguments are of the declared kinds keeps a schema regular. -/
theorem withRule (hs : s.Regular) {name : String} {args : List (Argument Schema)}
    (hargs : ∀ spec, s.kind.rule? name = some spec → spec.check args = .ok () →
      List.Forall₂ ArgumentKind.Takes spec.kinds args)
    (h : s.withRule name args = .ok t) : t.Regular := by
  obtain ⟨n, hn, rfl⟩ := Attempt.map_ok h
  obtain ⟨spec, hspec, hcheck, rfl⟩ := addRule_ok hn
  have hspec : s.kind.rule? name = some spec := hspec
  have hname : s.kind.rule? spec.name = some spec := by
    rw [Kind.rule?_name hspec]
    exact hspec
  have hfits : (Rule.mk spec.name args).Fits s.kind :=
    ⟨spec, hname, hcheck, hargs spec hspec hcheck⟩
  have hrules := hs.rules.append hfits
  rw [show s.kind.repeats (Rule.mk spec.name args).name = spec.repeats from
    Kind.repeats_eq hname] at hrules
  exact ⟨hs.sets, hs.flags, hrules, hs.form⟩

/-- A call that adds a rule keeps a schema regular. -/
theorem ruleCall (hs : s.Regular) {call : RuleCall} (hrefs : ∀ r ∈ call.references, r.Restorable)
    (h : call.apply s = .ok t) : t.Regular := by
  obtain ⟨name, args, hadd, hargs⟩ := ruleCall_ok h
  exact hs.withRule
    (fun spec hspec hcheck => (hargs spec hspec hcheck).imp (takes_of_gives hrefs)) hadd

/-- A change of the form alone. -/
theorem updateForm (hs : s.Regular) {f : Form Schema → Form Schema}
    (hkind : ∀ form, (f form).kind = form.kind) (hform : ∀ form, form.Regular → (f form).Regular) :
    (s.updateForm f).Regular := by
  refine ⟨hs.sets, hs.flags, ?_, hform _ hs.form⟩
  show ((f s.node.form).kind).Admits s.node.rules
  rw [hkind]
  exact hs.rules

/-- A change of an object's form keeps a schema regular if it keeps the form so. -/
theorem updateObject (hs : s.Regular) {f : ObjectForm Schema → ObjectForm Schema}
    (hf : ∀ o, o.Regular → (f o).Regular) : (s.updateObject f).Regular := by
  unfold Schema.updateObject
  apply hs.updateForm
  · intro form
    cases form <;> rfl
  · intro form hform
    cases form with
    | object o => exact hf o hform
    | _ => exact hform

/-- A change of the two sets of truth values keeps a schema regular if the sets stay canonical. -/
theorem updateBoolean (hs : s.Regular) {f : BooleanForm → BooleanForm}
    (hf : ∀ b, b.truthy.Canonical ∧ b.falsy.Canonical →
      (f b).truthy.Canonical ∧ (f b).falsy.Canonical) :
    (s.updateBoolean f).Regular := by
  unfold Schema.updateBoolean
  apply hs.updateForm
  · intro form
    cases form <;> rfl
  · intro form hform
    cases form with
    | boolean b => exact hf b hform
    | _ => exact hform

/-- The settings of texts are free. -/
theorem updateString (hs : s.Regular) (f : StringForm → StringForm) :
    (s.updateString f).Regular := by
  unfold Schema.updateString
  apply hs.updateForm
  · intro form
    cases form <;> rfl
  · intro form hform
    cases form <;> exact hform

/-- The settings of arrays are free. -/
theorem updateArray (hs : s.Regular) (f : ArrayForm Schema → ArrayForm Schema) :
    (s.updateArray f).Regular := by
  unfold Schema.updateArray
  apply hs.updateForm
  · intro form
    cases form <;> rfl
  · intro form hform
    cases form <;> exact hform

/-- An entry of alternatives keeps a schema regular if its reference can be restored. -/
theorem addEntry (hs : s.Regular) {entry : Match Schema}
    (hentry : ∀ r ∈ entry.reference?, r.Restorable) : (s.addEntry entry).Regular := by
  unfold Schema.addEntry
  apply hs.updateForm
  · intro form
    cases form <;> rfl
  · intro form hform
    cases form with
    | alternatives f =>
      intro r hr
      have hr : r ∈ (f.entries ++ [entry]).filterMap Match.reference? := hr
      rw [List.filterMap_append] at hr
      rcases List.mem_append.mp hr with hold | hnew
      · exact hform r hold
      · obtain ⟨m, hm, hmr⟩ := List.mem_filterMap.mp hnew
        obtain rfl := List.mem_singleton.mp hm
        exact hentry r hmr
    | _ => exact hform

/-- A change of an object's form that may be refused. -/
theorem updateObject? (hs : s.Regular)
    {f : ObjectForm Schema → Except SchemaError (ObjectForm Schema)}
    (hf : ∀ o g, o.Regular → f o = .ok g → g.Regular)
    (h : s.updateObject? f = .ok t) : t.Regular := by
  rcases updateObject?_ok h with rfl | ⟨o, g, ho, hstep, rfl⟩
  · exact hs
  · have hrules := hs.rules
    have hform := hs.form
    unfold kind at hrules
    rw [ho] at hrules hform
    exact ⟨hs.sets, hs.flags, hrules, hf o g hform hstep⟩

/-- A change of what is allowed and denied. -/
theorem updateSets (hs : s.Regular) {f : Node Schema → SetItem → Node Schema}
    (hf : ∀ n a, (f n a).form = n.form ∧ (f n a).flags = n.flags ∧ (f n a).rules = n.rules)
    {given : List SetItem}
    (hsets : (given.foldl f s.node).allowed.Apart (given.foldl f s.node).denied) :
    (s.update fun n => given.foldl f n).Regular := by
  -- the sets are all that changes
  have hsame : ∀ n : Node Schema, (given.foldl f n).form = n.form ∧
      (given.foldl f n).flags = n.flags ∧ (given.foldl f n).rules = n.rules := by
    clear hsets
    induction given with
    | nil => exact fun n => ⟨rfl, rfl, rfl⟩
    | cons a rest ih =>
      intro n
      obtain ⟨hform, hflags, hrules⟩ := ih (f n a)
      obtain ⟨hform', hflags', hrules'⟩ := hf n a
      exact ⟨hform.trans hform', hflags.trans hflags', hrules.trans hrules'⟩
  obtain ⟨hform, hflags, hrules⟩ := hsame s.node
  refine ⟨hsets, ?_, ?_, ?_⟩
  · show (given.foldl f s.node).flags.Regular
    rw [hflags]
    exact hs.flags
  · show (given.foldl f s.node).form.kind.Admits (given.foldl f s.node).rules
    rw [hform, hrules]
    exact hs.rules
  · show (given.foldl f s.node).form.Regular
    rw [hform]
    exact hs.form

/-- Allowing values takes them from the denied ones, so the sets stay apart. -/
theorem allow (hs : s.Regular) {given : List SetItem}
    (hrefs : ∀ r ∈ given.filterMap SetItem.reference?, r.Restorable) : (s.allow given).Regular := by
  refine hs.updateSets (f := Node.allow) (fun _ _ => ⟨rfl, rfl, rfl⟩)
    (Node.apart_foldl_allow hs.sets ?_)
  exact fun item hitem r hr => hrefs r (List.mem_filterMap.mpr ⟨item, hitem, hr⟩)

/-- Denying values takes them from the allowed ones, so the sets stay apart. -/
theorem deny (hs : s.Regular) {given : List SetItem}
    (hrefs : ∀ r ∈ given.filterMap SetItem.reference?, r.Restorable) : (s.deny given).Regular := by
  refine hs.updateSets (f := Node.deny) (fun _ _ => ⟨rfl, rfl, rfl⟩)
    (Node.apart_foldl_deny hs.sets ?_)
  exact fun item hitem r hr => hrefs r (List.mem_filterMap.mpr ⟨item, hitem, hr⟩)

/-- A change of the defaults. -/
theorem updateFlags (hs : s.Regular) {f : Flags → Flags} (hf : (f s.node.flags).Regular) :
    (s.updateFlags f).Regular :=
  ⟨hs.sets, hf, hs.rules, hs.form⟩

/-- Allowing values and no others keeps a schema regular. -/
theorem valid (hs : s.Regular) {given : List SetItem}
    (hrefs : ∀ r ∈ given.filterMap SetItem.reference?, r.Restorable) : (s.valid given).Regular := by
  have hallowed : (s.allow given).Regular := hs.allow hrefs
  exact ⟨hallowed.sets, hallowed.flags, hallowed.rules, hallowed.form⟩

/-- A default that can be restored. -/
theorem withDefault (hs : s.Regular) {source : Default}
    (hrefs : ∀ r ∈ source.reference?, r.Restorable) :
    (s.updateFlags fun flags => { flags with default := some source }).Regular := by
  refine hs.updateFlags fun d hd => ?_
  rcases List.mem_cons.mp hd with rfl | hd
  · exact hrefs
  · exact hs.flags d (List.mem_append_right _ hd)

/-- A value to fall back on is no reference. -/
theorem withFailover (hs : s.Regular) (value : Value) :
    (s.updateFlags fun flags => { flags with failover := some (.value value) }).Regular := by
  refine hs.updateFlags fun d hd => ?_
  rcases List.mem_append.mp hd with hd | hd
  · exact hs.flags d (List.mem_append_left _ hd)
  · obtain rfl := List.mem_singleton.mp hd
    exact fun r hr => absurd hr (Option.not_mem_none r)

/-- Values that count as true. -/
theorem withTruthy (hs : s.Regular) {given : List SetItem}
    (hrefs : ∀ r ∈ given.filterMap SetItem.reference?, r.Restorable) :
    (s.updateBoolean fun b => { b with truthy := b.truthy.addAll given }).Regular := by
  refine hs.updateBoolean fun b hb => ⟨hb.1.addAll fun item hitem r hr => ?_, hb.2⟩
  exact hrefs r (List.mem_filterMap.mpr ⟨item, hitem, hr⟩)

/-- Values that count as false. -/
theorem withFalsy (hs : s.Regular) {given : List SetItem}
    (hrefs : ∀ r ∈ given.filterMap SetItem.reference?, r.Restorable) :
    (s.updateBoolean fun b => { b with falsy := b.falsy.addAll given }).Regular := by
  refine hs.updateBoolean fun b hb => ⟨hb.1, hb.2.addAll fun item hitem r hr => ?_⟩
  exact hrefs r (List.mem_filterMap.mpr ⟨item, hitem, hr⟩)

/-- The encoding that texts are read by. -/
theorem withEncoding (hs : s.Regular) {name : String} (h : s.withEncoding name = .ok t) :
    t.Regular := by
  obtain ⟨-, rfl⟩ := Schema.withEncoding_ok h
  exact hs.updateForm (fun form => by cases form <;> rfl) fun form hform => by
    cases form <;> exact hform

/-- A replacement made when a text is converted. -/
theorem replace (hs : s.Regular) {source template : String}
    (h : s.replace source template = .ok t) : t.Regular := by
  obtain ⟨pattern, -, h⟩ := Attempt.bind_ok h
  obtain rfl := Except.ok.inj h
  exact hs.updateString _

/-- A schema for the undeclared keys that match. -/
theorem keyPattern (hs : s.Regular) (matcher : KeyMatcher Schema) (inner : Schema) :
    (s.keyPattern matcher inner).Regular :=
  hs.updateObject fun _ ho => ⟨ho.renames, ho.distinct, ho.order⟩

/-- The reference handed over with a default is the one it has. -/
theorem references_default (source : Default) :
    (Call.default source).references = source.reference?.toList := by
  cases source <;> rfl

/-- A call on one node keeps it regular. -/
theorem apply (hs : s.Regular) {call : Call} (hsimple : call.isSimple = true)
    (hrefs : ∀ r ∈ call.references, r.Restorable) (h : call.apply s = .ok t) : t.Regular := by
  cases call with
  | addWhen | under | concat => exact absurd hsimple (by simp [Call.isSimple])
  | rule added => exact hs.ruleCall hrefs h
  | keys children => exact hs.updateObject? (fun o g ho hstep => ho.setChildren hstep) h
  | rename added => exact hs.updateObject? (fun o g ho hstep => ho.addRename hstep) h
  | replace source template => exact hs.replace h
  | encoding name => exact hs.withEncoding h
  | keyPattern source inner =>
    obtain ⟨pattern, -, h⟩ := Attempt.bind_ok h
    obtain rfl := Except.ok.inj h
    exact hs.keyPattern _ inner
  -- the calls that are left are never refused
  | allow given =>
    obtain rfl := Except.ok.inj h
    exact hs.allow hrefs
  | valid given =>
    obtain rfl := Except.ok.inj h
    exact hs.valid hrefs
  | deny given =>
    obtain rfl := Except.ok.inj h
    exact hs.deny hrefs
  | default source =>
    obtain rfl := Except.ok.inj h
    rw [references_default] at hrefs
    exact hs.withDefault fun r hr => hrefs r (Option.mem_toList.mpr hr)
  | failover value =>
    obtain rfl := Except.ok.inj h
    exact hs.withFailover value
  | truthy given =>
    obtain rfl := Except.ok.inj h
    exact hs.withTruthy hrefs
  | falsy given =>
    obtain rfl := Except.ok.inj h
    exact hs.withFalsy hrefs
  | attempt inner =>
    obtain rfl := Except.ok.inj h
    exact hs.addEntry fun r hr => absurd hr (Option.not_mem_none r)
  | keySchema key inner =>
    obtain rfl := Except.ok.inj h
    exact hs.keyPattern _ inner
  | dependency | unknown =>
    obtain rfl := Except.ok.inj h
    exact hs.updateObject fun o ho => ⟨ho.renames, ho.distinct, ho.order⟩
  | sensitive =>
    obtain rfl := Except.ok.inj h
    exact hs.updateBoolean fun _ hb => hb
  | truncate =>
    obtain rfl := Except.ok.inj h
    exact hs.updateString _
  | items | ordered | sparse | single =>
    obtain rfl := Except.ok.inj h
    exact hs.updateArray _
  | allowUnsafe | format | once =>
    obtain rfl := Except.ok.inj h
    exact hs.updateForm (fun form => by cases form <;> rfl) fun form hform => by
      cases form <;> exact hform
  | _ =>
    obtain rfl := Except.ok.inj h
    exact ⟨hs.sets, hs.flags, hs.rules, hs.form⟩

end Regular

/-- A schema of a regular form without further settings is regular. -/
theorem regular_ofForm {form : Form Schema} (h : form.Regular) : (ofForm form).Regular :=
  ⟨.empty, fun _ h => absurd h List.not_mem_nil, Kind.admits_nil _, h⟩

/-- The schemas that calls start from are regular. -/
theorem regular_plain {s : Schema} (h : s ∈ plain) : s.Regular := by
  have hstring : string.Regular := by
    have hform : (ofForm (.string {})).Regular := regular_ofForm trivial
    have hrefs : ∀ r ∈ [SetItem.literal (.string "")].filterMap SetItem.reference?, r.Restorable :=
      fun r hr => absurd hr List.not_mem_nil
    exact hform.deny hrefs
  have hboolean : boolean.Regular :=
    regular_ofForm ⟨ValueSet.canonical_empty, ValueSet.canonical_empty⟩
  have hobject : object.Regular := regular_ofForm ObjectForm.regular_empty
  have halternatives : alternatives.Regular := regular_ofForm fun r hr => absurd hr List.not_mem_nil
  simp only [plain, List.mem_cons, List.not_mem_nil, or_false] at h
  rcases h with rfl | rfl | rfl | rfl | rfl | rfl | rfl | rfl | rfl
  · exact regular_ofForm trivial
  · exact hboolean
  · exact regular_ofForm trivial
  · exact regular_ofForm trivial
  · exact regular_ofForm trivial
  · exact regular_ofForm trivial
  · exact hobject
  · exact halternatives
  · exact hstring

/-- Calls keep schemas regular. -/
theorem regular_kept : Kept Regular where
  plain := fun _ h => regular_plain h
  lazily := fun _ => regular_ofForm trivial
  simple := fun hsimple hs hwritten h => hs.apply hsimple (fun r hr => (hwritten r hr).restorable) h
  entry := fun hs hwritten _ => hs.addEntry fun r hr => (hwritten r hr).restorable
  under := by
    intro condition cases otherwise base hwritten _
    refine ⟨.empty, fun _ h => absurd h List.not_mem_nil, Kind.admits_nil _, fun r hr => ?_⟩
    obtain ⟨m, hm, hmr⟩ := List.mem_filterMap.mp hr
    obtain rfl := List.mem_singleton.mp hm
    exact (hwritten r hmr).restorable
  merged := by
    intro merge form a b ha hb h
    obtain ⟨hform, hkind, hkind'⟩ := ha.form.merge hb.form h
    have hrules {c : Schema} (hc : c.Regular) (hkind : c.kind = .any ∨ c.kind = form.kind) :
        form.kind.Admits c.node.rules := by
      have hadmits := hc.rules
      rcases hkind with hany | hsame
      · rw [hany] at hadmits
        exact hadmits.of_any form.kind
      · rw [← hsame]
        exact hadmits
    exact ⟨ha.sets.merge hb.sets, ha.flags.merge hb.flags,
      (hrules ha hkind).merge (hrules hb hkind'), hform⟩
  marked := fun hs h => (regular_bare _).mp (h ▸ (regular_bare _).mpr hs)

end Schema

end Conform
