import Conform.Proofs.Indifferent
import Conform.Proofs.Regular

/-!
# Describing a schema and building it again

A schema that is made by calls, described and built from the description is the same but for marks,
whatever the calls: every node is built from its sheet part by part, in the order of building, given
that what is inside comes out of its own description.

The proof follows the builder. First the readers of settings are undone one by one (`isOn_of_get?`
and those beside it): a setting is written under a name of its own, only where it differs from what
a missing one means, so reading it gives it back. Then the sheet of a node is told of by its parts
(`node_kind` to `node_string`), so that no later step opens the description. Rules, entries,
conditions, key patterns and children are each built from what was written of them, given that
whatever is built for a schema inside is as it should be (`Remade`); the lemmas of this kind end in
`_describe`, one for each type. The one step that is no copy is `declare_describe`: the order of
children is not written but computed anew, and it comes out the same because it depends on keys and
on the siblings that are read.

What stands inside a description is the description of what stands inside (`Describe.node_map` and
the lemmas before it), so the whole follows by induction on the schema, the height of the
description being fuel enough for the builder.

Main statement: `Schema.build_describe`.
-/

namespace Conform

open Json Manifest

namespace Build

variable {registry : Registry} {inner : Schema → Manifest} {make : Manifest → Attempt Schema}

/-! ### Rules -/

/-- A pattern is written as its source, which is read as the pattern. -/
theorem readPattern_source (p : Pattern) : Schema.readPattern p.source = .ok p := by
  unfold Schema.readPattern Pattern.ofSource?
  split
  next q hq =>
    split at hq
    next expr groups names h =>
      obtain rfl := Option.some.inj hq
      exact congrArg Except.ok (Pattern.eq_of_source_eq rfl)
    next => exact absurd hq (by simp)
  next hnone =>
    split at hnone
    next => exact absurd hnone (by simp)
    next h => exact absurd (h.symm.trans p.parsed) (by simp)

/-- What describes the schema, written as data and read again, is built to be `t`. -/
def ComesBack (inner : Schema → Manifest) (make : Manifest → Attempt Schema)
    (s t : Schema) : Prop :=
  ∃ m, Manifest.read? (inner s).toJson.sorted.toSource = some m ∧ make m = .ok t

/-- A described argument is the argument, for a parameter that takes it, provided that
its schema comes back. -/
theorem argument_describe {p : Parameter} {arg : Argument Schema} {json : Json}
    (hjson : Describe.argument? inner arg = some json) (htakes : p.kind.Takes arg)
    (hd : arg.Describable registry) {f : Schema → Schema}
    (hback : ∀ s ∈ arg.schema?, ComesBack inner make s (f s)) :
    argument registry make p json = .ok (arg.map f) := by
  unfold argument
  cases arg with
  | literal v =>
    have hjson : json = Literal.encode v ∧ v ≠ .undefined := by
      cases v <;> first
        | exact ⟨(Option.some.inj hjson).symm, by simp⟩
        | exact absurd hjson (by simp [Describe.argument?])
    obtain ⟨rfl, hdefined⟩ := hjson
    -- only a missing argument takes the place of what is no value
    have hvalue : p.kind ∉ [ArgumentKind.pattern, .schema, .function] :=
      fun hin => hdefined (htakes.1 hin)
    rw [taggedReference?_encode]
    rw [Attempt.ok_bind]
    cases hp : p.kind with
    | pattern | schema | function =>
      rw [hp] at hvalue
      exact absurd (by decide) hvalue
    | _ =>
      show (Literal.decode (Literal.encode v) >>= _) = _
      rw [show Literal.decode (Literal.encode v) = .ok v from hd]
      rfl
  | reference r =>
    obtain rfl := Option.some.inj hjson
    rw [taggedReference?_describe htakes hd]
    rfl
  | pattern regex =>
    obtain rfl := Option.some.inj hjson
    have hkind : p.kind = .pattern := htakes
    rw [taggedReference?_of_untagged (Literal.untagged?_tagged (by decide) _), hkind]
    show (Schema.readPattern regex.source >>= _) = _
    rw [readPattern_source]
    rfl
  | schema s =>
    obtain rfl := Option.some.inj hjson
    obtain ⟨m, hread, hmake⟩ := hback s rfl
    have hkind : p.kind = .schema := htakes
    rw [taggedReference?_of_untagged (Literal.untagged?_tagged (by decide) _), hkind]
    rw [Attempt.ok_bind]
    dsimp only
    rw [Literal.untagged?_tagged_self]
    dsimp only
    rw [hread]
    show (make m >>= _) = _
    rw [hmake]
    rfl
  | function name =>
    obtain rfl := Option.some.inj hjson
    have hkind : p.kind = .function := htakes
    rw [Describe.function,
      taggedReference?_of_untagged (Literal.untagged?_tagged (by decide) _), hkind]
    show (registered registry.customs name >>= _) = _
    rw [registered_ok hd]
    rfl

/-- An argument that is described under its parameter's name is found there. One that is missing is
not described. -/
theorem argumentOf_describe {entry : RuleEntry} {p : Parameter} {arg : Argument Schema}
    (hget : Members.get? entry.args p.name = Describe.argument? inner arg)
    (htakes : p.kind.Takes arg) (hd : arg.Describable registry) {f : Schema → Schema}
    (hback : ∀ s ∈ arg.schema?, ComesBack inner make s (f s)) :
    argumentOf registry make entry p = .ok (arg.map f) := by
  unfold argumentOf
  rw [hget]
  cases hjson : Describe.argument? inner arg with
  | some json => exact argument_describe hjson htakes hd hback
  | none =>
    have hmissing : arg = .literal .undefined := by
      cases arg with
      | literal v => cases v <;> first | rfl | exact absurd hjson (by simp [Describe.argument?])
      | _ => exact absurd hjson (by simp [Describe.argument?])
    subst hmissing
    obtain ⟨-, hbool⟩ := htakes
    split
    next hsome => exact absurd hsome (by simp)
    next hp => exact absurd (hbool hp) (by simp [Value.isDefined])
    next => rfl

/-- What is described under a parameter's name among others, none of which has that name too. -/
theorem get?_arguments {pairs : List (Parameter × Argument Schema)}
    (hnames : (pairs.map (·.1.name)).Nodup)
    {p : Parameter} {arg : Argument Schema} (h : (p, arg) ∈ pairs) :
    Members.get? (pairs.filterMap fun pair =>
      (Describe.argument? inner pair.2).map fun json => (pair.1.name, json)) p.name =
        Describe.argument? inner arg := by
  induction pairs with
  | nil => exact absurd h List.not_mem_nil
  | cons pair rest ih =>
    obtain ⟨q, other⟩ := pair
    obtain ⟨hnew, hrest⟩ : q.name ∉ rest.map (·.1.name) ∧ (rest.map (·.1.name)).Nodup :=
      List.nodup_cons.mp hnames
    have hgone : Members.get? (rest.filterMap fun pair =>
        (Describe.argument? inner pair.2).map fun json => (pair.1.name, json)) q.name = none := by
      refine (Members.get?_eq_none_iff _ _).mpr fun hin => hnew ?_
      obtain ⟨entry, hentry, hname⟩ := List.mem_map.mp hin
      obtain ⟨pair, hpair, hsome⟩ := List.mem_filterMap.mp hentry
      obtain ⟨json, -, rfl⟩ := Option.map_eq_some_iff.mp hsome
      exact hname ▸ List.mem_map_of_mem (f := (·.1.name)) hpair
    rw [List.filterMap_cons]
    rcases List.mem_cons.mp h with heq | hin
    · obtain ⟨rfl, rfl⟩ := Prod.mk.inj heq
      dsimp only
      cases Describe.argument? inner arg with
      | none => exact hgone
      | some json => exact if_pos rfl
    · -- another name: the rest holds it
      have hne : q.name ≠ p.name :=
        fun heq => hnew (heq ▸ List.mem_map_of_mem (f := (·.1.name)) hin)
      dsimp only
      cases Describe.argument? inner other with
      | none => exact ih hrest hin
      | some json =>
        show (if q.name = p.name then _ else _) = _
        rw [if_neg hne]
        exact ih hrest hin

/-- The tables: parameters have names of their own, and schemas are arguments of two rules alone. -/
theorem spec_parameters {kind : Kind} {name : String} {spec : RuleSpec}
    (h : kind.rule? name = some spec) : (spec.parameters.map (·.name)).Nodup ∧
      (name ∉ ["has", "assert"] → ∀ p ∈ spec.parameters, p.kind ≠ .schema) := by
  have hall : ∀ kind ∈ Kind.all, ∀ spec ∈ kind.ownRules ++ [Kind.customRule],
      (spec.parameters.map (·.name)).Nodup ∧
        (spec.name ∉ ["has", "assert"] → ∀ p ∈ spec.parameters, p.kind ≠ .schema) := by decide
  have hkind : kind ∈ Kind.all := by cases kind <;> decide
  have hspec := hall kind hkind spec (List.mem_of_find?_eq_some h)
  rw [Kind.rule?_name h] at hspec
  exact hspec

/-- A described rule is added like the rule itself, its schemas changed. -/
theorem addRule_describe {kind : Kind} {n : Node Schema} (hn : n.kind = kind) {rule : Rule Schema}
    (hfits : rule.Fits kind) (hd : ∀ arg ∈ rule.args, arg.Describable registry)
    {f : Schema → Schema} (hback : ∀ s ∈ rule.schemas, ComesBack inner make s (f s)) :
    addRule registry make n (Describe.rule inner kind rule) =
      .ok { n with rules := Node.appendRule n.rules (rule.map f) (kind.repeats rule.name) } := by
  obtain ⟨spec, hspec, hcheck, htakes⟩ := hfits
  obtain ⟨hnames, -⟩ := spec_parameters hspec
  have hparameters : Describe.parameters kind rule.name = spec.parameters := by
    unfold Describe.parameters
    rw [hspec]
    rfl
  have htakes : List.Forall₂
      (fun p arg => ArgumentKind.Takes (Parameter.kind p) arg) spec.parameters rule.args :=
    List.forall₂_map_left_iff.mp htakes
  have hlength := htakes.length_eq
  have hpairs : ((spec.parameters.zip rule.args).map (·.1.name)).Nodup := by
    have hmap : (spec.parameters.zip rule.args).map (·.1.name) = spec.parameters.map (·.name) := by
      have hfst := List.map_fst_zip (Nat.le_of_eq hlength)
      have hmap := congrArg (List.map Parameter.name) hfst
      rw [List.map_map] at hmap
      exact hmap
    rw [hmap]
    exact hnames
  have hargs : spec.parameters.mapM (argumentOf registry make (Describe.rule inner kind rule)) =
      .ok (rule.args.map (Argument.map f)) := by
    rw [Attempt.mapM_ok_iff, List.forall₂_map_right_iff, List.forall₂_iff_zip]
    refine ⟨hlength, fun {p arg} hzip => ?_⟩
    have hget : Members.get? (Describe.rule inner kind rule).args p.name =
        Describe.argument? inner arg := by
      unfold Describe.rule
      rw [hparameters]
      exact get?_arguments hpairs hzip
    have harg : arg ∈ rule.args := (List.of_mem_zip hzip).2
    refine argumentOf_describe hget ((List.forall₂_iff_zip.mp htakes).2 hzip)
      (hd arg harg) fun s hs => ?_
    exact hback s (List.mem_filterMap.mpr ⟨arg, harg, hs⟩)
  -- arguments are checked by their number, which has not changed
  have hcheck : spec.check (rule.args.map (Argument.map f)) = .ok () := by
    rw [RuleSpec.check_map, hcheck]
  have hrepeats := Kind.repeats_eq hspec
  have hspec : n.kind.rule? rule.name = some spec := hn ▸ hspec
  unfold addRule
  rw [Describe.rule, hspec]
  show (spec.parameters.mapM (argumentOf registry make (Describe.rule inner kind rule)) >>= _) = _
  rw [hargs]
  show n.addRule rule.name (rule.args.map (Argument.map f)) = _
  unfold Node.addRule
  rw [hspec]
  show (spec.check (rule.args.map (Argument.map f)) >>= _) = _
  rw [hcheck, hrepeats, Rule.map, ← Kind.rule?_name hspec]
  rfl

/-- Adding a rule that stands after others drops none of them. -/
theorem appendRule_admitted {kind : Kind} {before after : List (Rule Schema)} {rule : Rule Schema}
    (h : kind.Admits (before ++ rule :: after)) (f : Schema → Schema) :
    Node.appendRule (before.map (Rule.map f)) (rule.map f) (kind.repeats rule.name) =
      (before ++ [rule]).map (Rule.map f) := by
  have hkeep : (if kind.repeats rule.name then before.map (Rule.map f)
      else (before.map (Rule.map f)).filter fun r => r.name != (rule.map f).name) =
        before.map (Rule.map f) := by
    split
    next => rfl
    next hsingle =>
      refine List.filter_eq_self.mpr fun r hr => ?_
      obtain ⟨old, hold, rfl⟩ := List.mem_map.mp hr
      have hrepeats := (List.pairwise_append.mp h.single).2.2 old hold rule (List.mem_cons_self ..)
      rw [bne_iff_ne]
      intro hname
      have hname : old.name = rule.name := hname
      exact hsingle (hname ▸ hrepeats hname)
  unfold Node.appendRule
  rw [hkeep, List.map_append]
  rfl

/-- The described rules are the rules, their schemas changed. -/
theorem addRules_describe {kind : Kind} {rules : List (Rule Schema)} (hadmits : kind.Admits rules)
    (hd : ∀ rule ∈ rules, ∀ arg ∈ rule.args, arg.Describable registry) {f : Schema → Schema}
    (hback : ∀ s ∈ rules.flatMap Rule.schemas, ComesBack inner make s (f s))
    {n : Node Schema} (hn : n.kind = kind) (hnone : n.rules = []) :
    (rules.map (Describe.rule inner kind)).foldlM (addRule registry make) n =
      .ok { n with rules := rules.map (Rule.map f) } := by
  -- the rules before are those of the node already, the rules after are still to be added
  have hfold (before after : List (Rule Schema)) (hall : rules = before ++ after) (n : Node Schema)
      (hn : n.kind = kind) (hbefore : n.rules = before.map (Rule.map f)) :
      (after.map (Describe.rule inner kind)).foldlM (addRule registry make) n =
        .ok { n with rules := rules.map (Rule.map f) } := by
    induction after generalizing before n with
    | nil =>
      rw [hall, List.append_nil, ← hbefore]
      rfl
    | cons rule rest ih =>
      have hin : rule ∈ rules := hall ▸ List.mem_append_right _ (List.mem_cons_self ..)
      have hstep : addRule registry make n (Describe.rule inner kind rule) = _ :=
        addRule_describe hn (hadmits.fit rule hin) (hd rule hin) fun s hs =>
          hback s (List.mem_flatMap.mpr ⟨rule, hin, hs⟩)
      rw [hbefore, appendRule_admitted (hall ▸ hadmits) f] at hstep
      rw [List.map_cons, List.foldlM_cons, hstep]
      -- the rule just added is the last of those before
      refine ih (before ++ [rule]) ?_ { n with rules := (before ++ [rule]).map (Rule.map f) } hn rfl
      rw [hall, List.append_assoc]
      rfl
  exact hfold [] rules rfl n hn hnone

/-! ### Flags -/

section Flags

variable {flags : List (String × Json)} {name : String}

/-- A switch is written only where it is on, and what is not written is off. -/
theorem isOn_of_get? {on : Bool}
    (h : Members.get? flags name = if on then some (.bool true) else none) :
    isOn flags name = on := by
  unfold isOn switch?
  rw [h]
  cases on <;> rfl

/-- A switch with a third state is written only where it was set. -/
theorem switch?_of_get? {on : Option Bool} (h : Members.get? flags name = on.map Json.bool) :
    switch? flags name = on := by
  unfold switch?
  rw [h]
  cases on <;> rfl

/-- A text is written as it is. -/
theorem textFlag_of_get? {text : Option String}
    (h : Members.get? flags name = text.map Json.string) : textFlag flags name = .ok text := by
  unfold textFlag
  rw [h]
  cases text <;> rfl

/-- A choice is written by its name, and names lead back to choices. -/
theorem choiceFlag_of_get? {α : Type} {nameOf : α → String} {ofName? : String → Option α}
    (hname : ∀ a, ofName? (nameOf a) = some a) {choice : Option α}
    (h : Members.get? flags name = choice.map fun a => .string (nameOf a)) :
    choiceFlag flags name ofName? = .ok choice := by
  unfold choiceFlag
  rw [h]
  cases choice with
  | none => rfl
  | some a =>
    have hchoice : (Json.string (nameOf a)).toSource.choice? = some (nameOf a) := rfl
    rw [Option.map_some]
    dsimp only
    rw [hchoice, Option.bind_some, hname]

end Flags

/-- The flags that every type may have. -/
def commonNames : List String :=
  ["presence", "only", "insensitive", "default", "failover", "label", "strip", "raw", "message",
    "description", "unit"]

/-- The settings of all types go by names of their own, in a fixed order. -/
theorem keys_commonFlags (flags : Flags) (notes : Annotations) :
    (Members.keys (Describe.commonFlags flags notes)).Sublist commonNames := by
  unfold Describe.commonFlags
  simp only [Members.keys_append]
  exact ((((((((((keys_optionalMember "presence" _ _).append (keys_switchMember "only" _)).append
    (keys_switchMember "insensitive" _)).append (keys_optionalMember "default" _ _)).append
    (keys_optionalMember "failover" _ _)).append (keys_optionalMember "label" _ _)).append
    (keys_switchMember "strip" _)).append (keys_switchMember "raw" _)).append
    (keys_optionalMember "message" _ _)).append (keys_optionalMember "description" _ _)).append
    (keys_optionalMember "unit" _ _)

/-- The flags of a type's own have names that no common flag has. -/
theorem keys_formFlags (form : Form Schema) :
    ∀ name ∈ Members.keys (Describe.formFlags form), name ∉ commonNames := by
  have hone {name : String} {members : List (String × Json)}
      (hkeys : (Members.keys members).Sublist [name])
      (hname : name ∉ commonNames) : ∀ k ∈ Members.keys members, k ∉ commonNames := by
    intro k hk
    obtain rfl := List.mem_singleton.mp (hkeys.subset hk)
    exact hname
  cases form with
  | any => exact fun _ h => absurd h List.not_mem_nil
  | alternatives f => exact fun _ h => absurd h List.not_mem_nil
  | array f =>
    intro name hname
    rw [Describe.formFlags, Members.keys_append] at hname
    rcases List.mem_append.mp hname with h | h
    · exact hone (keys_switchMember "sparse" _) (by decide) name h
    · exact hone (keys_switchMember "single" _) (by decide) name h
  | binary encoding => exact hone (keys_optionalMember "encoding" _ _) (by decide)
  | boolean f => exact hone (keys_switchMember "sensitive" _) (by decide)
  | date format => exact hone (keys_optionalMember "format" _ _) (by decide)
  | lazy f => exact hone (List.Sublist.refl ["once"]) (by decide)
  | number allowUnsafe => exact hone (keys_switchMember "unsafe" _) (by decide)
  | object f => exact hone (keys_optionalMember "unknown" _ _) (by decide)
  | string f => exact hone (keys_switchMember "truncate" _) (by decide)

section Lookup

variable (flags : Flags) (notes : Annotations) (form : Form Schema)

/-- A setting of all types is not hidden by one of the form. -/
theorem get?_common {name : String} (h : name ∈ commonNames) :
    Members.get? (Describe.commonFlags flags notes ++ Describe.formFlags form) name =
      Members.get? (Describe.commonFlags flags notes) name := by
  have hnone : Members.get? (Describe.formFlags form) name = none :=
    (Members.get?_eq_none_iff _ _).mpr fun hin => keys_formFlags form name hin h
  rw [Members.get?_append, hnone]
  cases Members.get? (Describe.commonFlags flags notes) name <;> rfl

/-- A setting of the form is not hidden by one that all types have. -/
theorem get?_own {name : String} (h : name ∉ commonNames) :
    Members.get? (Describe.commonFlags flags notes ++ Describe.formFlags form) name =
      Members.get? (Describe.formFlags form) name := by
  have hnone : Members.get? (Describe.commonFlags flags notes) name = none :=
    (Members.get?_eq_none_iff _ _).mpr fun hin => h ((keys_commonFlags flags notes).subset hin)
  rw [Members.get?_append, hnone]
  rfl

end Lookup

/-! ### Sheets -/

section Sheet

variable (inner) (n : Node Schema)

/-- The sheet has the name of the type. -/
theorem node_kind : (Describe.node inner n).kind = n.kind.name := by
  unfold Describe.node
  cases n.form <;> rfl

/-- The settings are those of all types, then those of the form. -/
theorem node_flags :
    (Describe.node inner n).flags = Describe.commonFlags n.flags n.notes ++
      Describe.formFlags n.form := by
  unfold Describe.node
  cases n.form <;> rfl

theorem node_empty : (Describe.node inner n).empty = n.empty.map inner := by
  unfold Describe.node
  cases n.form <;> rfl

theorem node_preferences : (Describe.node inner n).preferences = n.prefs := by
  unfold Describe.node
  cases n.form <;> rfl

/-- What is allowed and what is denied stand apart on the sheet. -/
theorem node_sets : (Describe.node inner n).allow = Describe.set n.allowed ∧
    (Describe.node inner n).invalid = Describe.set n.denied := by
  unfold Describe.node
  cases n.form <;> exact ⟨rfl, rfl⟩

/-- The rules are written in their order. -/
theorem node_rules : (Describe.node inner n).rules = n.rules.map (Describe.rule inner n.kind) := by
  unfold Describe.node
  cases n.form <;> rfl

/-- Notes and tags are texts; examples and metas are values, written as literals. -/
theorem node_remarks : (Describe.node inner n).notes = n.notes.notes ∧
    (Describe.node inner n).tags = n.notes.tags ∧
    (Describe.node inner n).examples = n.notes.examples.map Literal.encode ∧
    (Describe.node inner n).metas = n.notes.metas.map Literal.encode := by
  unfold Describe.node
  cases n.form <;> exact ⟨rfl, rfl, rfl, rfl⟩

variable {n} in
/-- Alternatives write their entries and their base. -/
theorem node_alternatives {f : AlternativesForm Schema} (hform : n.form = .alternatives f) :
    (Describe.node inner n).entries = f.entries.map (Describe.entry inner) ∧
      (Describe.node inner n).base = f.base.map inner := by
  unfold Describe.node
  rw [hform]
  exact ⟨rfl, rfl⟩

variable {n} in
/-- Arrays write their items and their places. -/
theorem node_array {f : ArrayForm Schema} (hform : n.form = .array f) :
    (Describe.node inner n).items = f.items.map inner ∧
    (Describe.node inner n).ordered = f.ordered.map inner := by
  unfold Describe.node
  rw [hform]
  exact ⟨rfl, rfl⟩

variable {n} in
/-- Truth values write what counts as true and as false. -/
theorem node_boolean {f : BooleanForm} (hform : n.form = .boolean f) :
    (Describe.node inner n).truthy = Describe.set f.truthy ∧
      (Describe.node inner n).falsy = Describe.set f.falsy := by
  unfold Describe.node
  rw [hform]
  exact ⟨rfl, rfl⟩

variable {n} in
/-- A lazy node writes the name of its generator, and not what was made of it. -/
theorem node_lazy {f : LazyForm} (hform : n.form = .lazy f) :
    (Describe.node inner n).generator = some f.generator := by
  unfold Describe.node
  rw [hform]
  rfl

variable {n} in
/-- Objects write children, renames, dependencies and key patterns. -/
theorem node_object {f : ObjectForm Schema} (hform : n.form = .object f) :
    (Describe.node inner n).keys = f.keys.map (mapChildren inner) ∧
    (Describe.node inner n).renames = f.renames ∧
      (Describe.node inner n).dependencies = f.dependencies ∧
      (Describe.node inner n).patterns = f.patterns.map (Describe.pattern inner) := by
  unfold Describe.node
  rw [hform]
  exact ⟨rfl, rfl, rfl, rfl⟩

variable {n} in
/-- Texts write replacements by the sources of their patterns. -/
theorem node_string {f : StringForm} (hform : n.form = .string f) :
    (Describe.node inner n).replacements = f.replacements.map fun entry =>
    (entry.1.source, entry.2) := by
  unfold Describe.node
  rw [hform]
  rfl

end Sheet

/-- A presence is found by its name. -/
theorem presence_ofName?_name (presence : Presence) :
    Presence.ofName? presence.name = some presence := by
  cases presence <;> rfl

/-- The flags of a sheet are the flags of the node. -/
theorem setFlags_describe {s : Schema} (hregular : s.node.flags.Regular)
    (hd : ∀ d ∈ s.node.flags.default.toList ++ s.node.flags.failover.toList, d.Describable registry)
    {f : Schema → Schema} (hempty : ∀ child ∈ s.node.empty, make (inner child) = .ok (f child))
    (n : Node Schema) :
    setFlags registry make (Describe.node inner s.node) n = .ok { n with
      flags := s.node.flags
      empty := s.node.empty.map f
      notes := { n.notes with
          description := s.node.notes.description, unit := s.node.notes.unit } } := by
  have hempty : (Describe.node inner s.node).empty.mapM make = .ok (s.node.empty.map f) := by
    rw [node_empty]
    exact Attempt.option_mapM_map_pure hempty
  have hget {name : String} (h : name ∈ commonNames) :
      Members.get? (Describe.node inner s.node).flags name =
        Members.get? (Describe.commonFlags s.node.flags s.node.notes) name := by
    rw [node_flags]
    exact get?_common _ _ _ h
  generalize Describe.node inner s.node = sheet at hget hempty ⊢
  generalize s.node.flags = flags at hregular hd hget ⊢
  generalize s.node.notes = notes at hget ⊢
  -- both defaults are described and read alike
  have hdefault (d : Default) (hin : d ∈ flags.default.toList ++ flags.failover.toList) :
      default registry (Describe.default d) = .ok d :=
    default_describe (hregular d hin) (hd d hin)
  have htext {name : String} (h : name ∈ commonNames) {text : Option String}
      (hnamed : Members.get? (Describe.commonFlags flags notes) name = text.map Json.string) :
      textFlag sheet.flags name = .ok text := textFlag_of_get? ((hget h).trans hnamed)
  have hon {name : String} (h : name ∈ commonNames) {on : Bool}
      (hnamed : Members.get? (Describe.commonFlags flags notes) name =
        if on then some (.bool true) else none) :
      isOn sheet.flags name = on := isOn_of_get? ((hget h).trans hnamed)
  have hmade {name : String} (h : name ∈ commonNames) {d : Option Default}
      (hnamed : Members.get? (Describe.commonFlags flags notes) name = d.map Describe.default)
      (hin : ∀ x ∈ d, x ∈ flags.default.toList ++ flags.failover.toList) :
      (Members.get? sheet.flags name).mapM (default registry) = .ok d := by
    rw [hget h, hnamed]
    exact Attempt.option_mapM_map_self fun x hx => hdefault x (hin x hx)
  have hpresence : choiceFlag sheet.flags "presence" Presence.ofName? = .ok flags.presence := by
    refine choiceFlag_of_get? presence_ofName?_name ((hget (by decide)).trans ?_)
    simp [Describe.commonFlags]
  have hlabel : textFlag sheet.flags "label" = .ok flags.label :=
    htext (by decide) (by simp [Describe.commonFlags])
  have hmessage : textFlag sheet.flags "message" = .ok flags.message :=
    htext (by decide) (by simp [Describe.commonFlags])
  have hdescription : textFlag sheet.flags "description" = .ok notes.description :=
    htext (by decide) (by simp [Describe.commonFlags])
  have hunit : textFlag sheet.flags "unit" = .ok notes.unit :=
    htext (by decide) (by simp [Describe.commonFlags])
  have hinitial : (Members.get? sheet.flags "default").mapM (default registry) =
      .ok flags.default :=
    hmade (by decide) (by simp [Describe.commonFlags]) fun x hx =>
      List.mem_append_left _ (Option.mem_toList.mpr hx)
  have hfailover : (Members.get? sheet.flags "failover").mapM (default registry) =
      .ok flags.failover :=
    hmade (by decide) (by simp [Describe.commonFlags]) fun x hx =>
      List.mem_append_right _ (Option.mem_toList.mpr hx)
  have honly : isOn sheet.flags "only" = flags.only :=
    hon (by decide) (by simp [Describe.commonFlags])
  have hinsensitive : isOn sheet.flags "insensitive" = flags.insensitive :=
    hon (by decide) (by simp [Describe.commonFlags])
  have hstrip : isOn sheet.flags "strip" = flags.strip :=
    hon (by decide) (by simp [Describe.commonFlags])
  have hraw : isOn sheet.flags "raw" = flags.raw := hon (by decide) (by simp [Describe.commonFlags])
  unfold setFlags
  dsimp only
  rw [hpresence, hlabel, hmessage, hdescription, hunit, hinitial, hfailover, hempty,
    honly, hinsensitive, hstrip, hraw]
  rfl

/-! ### Forms -/

/-- The described set is the set. -/
theorem set_describe {given : ValueSet} (hcanonical : given.Canonical)
    (hd : ∀ i ∈ given.items, i.Describable registry) :
    set registry (Describe.set given) = .ok given := by
  have hitems : (given.items.map Describe.item).mapM (item registry) = Except.ok given.items :=
    Attempt.mapM_map_self fun i hi => item_describe (hcanonical.restorable i hi) (hd i hi)
  unfold set
  show ((given.items.map Describe.item).mapM (item registry) >>= _) = _
  rw [hitems]
  exact congrArg Except.ok hcanonical.addAll_items

section Inner

variable {f : Schema → Schema}

/-- A key pattern is built from its description. -/
theorem keyPattern_describe {p : KeyPattern Schema}
    (h : ∀ child ∈ p.schemas, make (inner child) = .ok (f child)) :
    keyPattern make (Describe.pattern inner p) = .ok (p.map f) := by
  obtain ⟨matcher, schema⟩ := p
  have hschema : make (inner schema) = .ok (f schema) :=
    h schema (List.mem_append_right _ (List.mem_singleton_self _))
  cases matcher with
  | pattern regex =>
    unfold keyPattern
    show (Schema.readPattern regex.source >>= _) = _
    rw [readPattern_source]
    show (make (inner schema) >>= _) = _
    rw [hschema]
    rfl
  | schema key =>
    have hkey : make (inner key) = .ok (f key) :=
      h key (List.mem_append_left _ (List.mem_cons_self ..))
    unfold keyPattern
    show (make (inner key) >>= _) = _
    rw [hkey]
    show (make (inner schema) >>= _) = _
    rw [hschema]
    rfl

/-- A schema that may be missing is built if there is one. -/
theorem option_describe {o : Option Schema}
    (h : ∀ child ∈ o.toList, make (inner child) = .ok (f child)) :
    (o.map inner).mapM make = .ok (o.map f) :=
  Attempt.option_mapM_map_pure fun child hchild => h child (Option.mem_toList.mpr hchild)

/-- A condition is a reference or a schema, and the entry says which. -/
theorem condition_describe {condition : Condition Schema} {entry : MatchEntry Manifest}
    (hreference : entry.reference = condition.reference?.map Reference.describe)
    (hschema : entry.condition = condition.schema?.map inner)
    (hrefs : ∀ r ∈ condition.reference?, r.Restorable ∧ r.Describable registry)
    (h : ∀ child ∈ condition.schema?.toList, make (inner child) = .ok (f child)) :
    Build.condition registry make entry = .ok (condition.map f) := by
  unfold Build.condition
  rw [hreference, hschema]
  cases condition with
  | reference r =>
    obtain ⟨hr, hd⟩ := hrefs r rfl
    show (reference registry r.describe).map Condition.reference = _
    rw [reference_describe hr hd]
    rfl
  | schema s =>
    show (make (inner s)).map Condition.schema = _
    rw [h s (List.mem_singleton_self _)]
    rfl

/-- An entry of alternatives is built from its description, cases and all. -/
theorem matchEntry_describe {m : Match Schema}
    (hrefs : ∀ r ∈ m.reference?, r.Restorable ∧ r.Describable registry)
    (h : ∀ child ∈ m.schemas, make (inner child) = .ok (f child)) :
    matchEntry registry make (Describe.entry inner m) = .ok (m.map f) := by
  cases m with
  | attempt s =>
    unfold matchEntry
    show (make (inner s) >>= _) = _
    rw [h s (List.mem_singleton_self _)]
    rfl
  | conditional condition cases otherwise =>
    have hcondition : Build.condition registry make
        (Describe.entry inner (.conditional condition cases otherwise)) =
        .ok (condition.map f) :=
      condition_describe rfl rfl hrefs fun child hchild =>
        h child (List.mem_append_left _ (List.mem_append_left _ hchild))
    have hcases : ((cases.map fun c =>
        (⟨c.test.map inner, c.branch.map inner⟩ : Case Manifest)).mapM fun c => do
          let test ← c.test.mapM make
          let branch ← c.branch.mapM make
          return (⟨test, branch⟩ : Case Schema)) = Except.ok (cases.map (Case.map f)) := by
      refine Attempt.mapM_map_pure fun c hc => ?_
      have hin {child : Schema} (hchild : child ∈ c.schemas) : make (inner child) = .ok (f child) :=
        h child
          (List.mem_append_left _ (List.mem_append_right _ (List.mem_flatMap.mpr ⟨c, hc, hchild⟩)))
      show ((c.test.map inner).mapM make >>= _) = _
      rw [option_describe fun child hchild => hin (List.mem_append_left _ hchild)]
      show ((c.branch.map inner).mapM make >>= _) = _
      rw [option_describe fun child hchild => hin (List.mem_append_right _ hchild)]
      rfl
    have hotherwise : (otherwise.map inner).mapM make = .ok (otherwise.map f) :=
      option_describe fun child hchild => h child (List.mem_append_right _ hchild)
    unfold matchEntry
    show (Build.condition registry make
      (Describe.entry inner (.conditional condition cases otherwise)) >>= _) = _
    rw [hcondition]
    show (List.mapM (m := Attempt) _ (List.map _ cases) >>= _) = _
    rw [hcases]
    show ((otherwise.map inner).mapM make >>= _) = _
    rw [hotherwise]
    rfl

/-- Renames of distinct keys are made one after another. -/
theorem addRenames {renames : List Rename} (hnodup : (renames.map (·.source)).Nodup)
    {form : ObjectForm Schema} (hnone : form.renames = []) :
    renames.foldlM ObjectForm.addRename form = .ok { form with renames } := by
  -- the same for renames made before and still to be made
  have hfold (before after : List Rename) (hall : renames = before ++ after)
      (form : ObjectForm Schema) (hbefore : form.renames = before) :
      after.foldlM ObjectForm.addRename form = .ok { form with renames } := by
    induction after generalizing before form with
    | nil =>
      obtain rfl : renames = before := hall.trans (List.append_nil before)
      rw [← hbefore]
      rfl
    | cons rename rest ih =>
      have hnew : ¬(form.renames.any fun r => r.source == rename.source) = true := by
        rw [hall, List.map_append] at hnodup
        rw [hbefore, List.any_eq_true]
        rintro ⟨old, hold, hsame⟩
        exact (List.nodup_append.mp hnodup).2.2 _ (List.mem_map_of_mem hold) _
          (List.mem_cons_self ..) (beq_iff_eq.mp hsame)
      have hstep : form.addRename rename = .ok { form with renames := form.renames ++ [rename] } :=
        if_neg hnew
      rw [List.foldlM_cons, hstep]
      refine ih (before ++ [rename]) ?_ { form with renames := form.renames ++ [rename] } ?_
      · rw [hall, List.append_assoc]
        rfl
      · rw [← hbefore]
  exact hfold [] renames rfl form hnone

end Inner

/-- What describes the schema is built to be `t`, which reads the same siblings. -/
structure Remade (inner : Schema → Manifest) (make : Manifest → Attempt Schema)
    (s t : Schema) : Prop where
  make : make (inner s) = .ok t
  siblings : ∀ peer, peer ∈ t.siblingRefs 1 ↔ peer ∈ s.siblingRefs 1

/-- The children are declared and sorted as they were, if they read the siblings
that they read before. -/
theorem setChildren_describe {o : ObjectForm Schema} (hregular : o.Regular)
    {children : List (String × Schema)} (hkeys : o.keys = some children) {f : Schema → Schema}
    (h : ∀ child ∈ children, ∀ peer, peer ∈ (f child.2).siblingRefs 1 ↔
      peer ∈ child.2.siblingRefs 1) :
    ObjectForm.setChildren { unknown := o.unknown } (mapChildren f children) =
      .ok { keys := some (mapChildren f children), order := o.order, unknown := o.unknown } := by
  have hchildren : o.children = children := by
    unfold ObjectForm.children
    rw [hkeys]
    rfl
  have hdistinct : Members.Distinct (mapChildren f children) := by
    unfold Members.Distinct
    rw [keys_mapChildren, ← hchildren]
    exact hregular.distinct
  have hnew : Members.insertAll [] (mapChildren f children) = [] ++ mapChildren f children :=
    Members.insertAll_of_distinct hdistinct
  have hall : Members.insertAll (ObjectForm.children { unknown := o.unknown })
      (mapChildren f children) = mapChildren f children := hnew
  have horder : (ObjectForm.graph (mapChildren f children)).sort = .ok o.order := by
    obtain ⟨hlisted, hpeers⟩ := ObjectForm.peers_mapChildren (hchildren ▸ hregular.distinct) h
    exact KeyGraph.sort_congr hlisted hpeers (hchildren ▸ hregular.order)
  unfold ObjectForm.setChildren
  dsimp only
  rw [hall, horder]

/-- Declaring the children of an object again gives the order it had: the order depends on keys and
on the siblings that are read, and those come back. -/
theorem declare_describe {o : ObjectForm Schema} (hregular : o.Regular) {f : Schema → Schema}
    (h : ∀ child ∈ o.childSchemas, Remade inner make child (f child)) :
    declare make { unknown := o.unknown } (o.keys.map (mapChildren inner)) =
      .ok { keys := o.keys.map (mapChildren f), order := o.order, unknown := o.unknown } := by
  cases hchildren : o.keys with
  | none =>
    -- an object that declares no children has an order of none
    have horder : o.order = [] := by
      have hsorted := hregular.order
      unfold ObjectForm.children at hsorted
      rw [hchildren] at hsorted
      exact (Except.ok.inj hsorted).symm
    rw [horder]
    rfl
  | some children =>
    have hmade :
        ((mapChildren inner children).mapM fun child => do return (child.1, ← make child.2)) =
        Except.ok (mapChildren f children) := by
      refine Attempt.mapM_map_pure fun child hchild => ?_
      have hin : child.2 ∈ o.childSchemas := by
        unfold ObjectForm.childSchemas ObjectForm.children
        rw [hchildren]
        exact List.mem_map_of_mem hchild
      show (make (inner child.2) >>= _) = _
      rw [(h child.2 hin).make]
      rfl
    show ((mapChildren inner children).mapM
      (fun child => do return (child.1, ← make child.2)) >>= _) = _
    rw [hmade]
    refine setChildren_describe hregular hchildren fun child hchild => (h child.2 ?_).siblings
    unfold ObjectForm.childSchemas ObjectForm.children
    rw [hchildren]
    exact List.mem_map_of_mem hchild

/-- An object is built from its sheet: children, renames one after another,
dependencies and patterns. -/
theorem object_describe {n : Node Schema} {o : ObjectForm Schema} (hform : n.form = .object o)
    (hregular : o.Regular) {f : Schema → Schema}
    (h : ∀ child ∈ (Form.object o).schemas, Remade inner make child (f child)) :
    object make (Describe.node inner n) = .ok (o.map f) := by
  have hunknown : switch? (Describe.node inner n).flags "unknown" = o.unknown := by
    apply switch?_of_get?
    rw [node_flags, get?_own _ _ _ (by decide), hform]
    simp [Describe.formFlags]
  obtain ⟨hkeys, hrenames, hdependencies, hdescribed⟩ := node_object inner hform
  have hpatterns : (Describe.node inner n).patterns.mapM (keyPattern make) =
      .ok (o.patterns.map (KeyPattern.map f)) := by
    rw [hdescribed]
    exact Attempt.mapM_map_pure fun p hp => keyPattern_describe fun child hchild =>
      (h child (List.mem_append_right _ (List.mem_flatMap.mpr ⟨p, hp, hchild⟩))).make
  have hchildren : declare make { unknown := o.unknown } (o.keys.map (mapChildren inner)) = _ :=
    declare_describe hregular fun child hchild => h child (List.mem_append_left _ hchild)
  unfold object
  rw [hunknown, hkeys, hrenames, hdependencies, hpatterns, hchildren]
  show (o.renames.foldlM ObjectForm.addRename _ >>= _) = _
  rw [addRenames hregular.renames rfl]
  rfl

/-- A date format is found by its name. -/
theorem format_ofName?_name (format : DateFormat) :
    DateFormat.ofName? format.name = some format := by
  cases format <;> rfl

section FormParts

variable {n : Node Schema}

/-- On the sheet of a node, a setting of the form is read as the form wrote it. -/
theorem get?_own_flag {name : String} (hname : name ∉ commonNames) :
    Members.get? (Describe.node inner n).flags name =
      Members.get? (Describe.formFlags n.form) name := by
  rw [node_flags, get?_own _ _ _ hname]

/-- A switch of the form is read as the form wrote it. -/
theorem isOn_own {name : String} (hname : name ∉ commonNames) {on : Bool}
    (hget : Members.get? (Describe.formFlags n.form) name =
      if on then some (.bool true) else none) :
    isOn (Describe.node inner n).flags name = on :=
  isOn_of_get? ((get?_own_flag hname).trans hget)

/-- Alternatives are built from their sheet. -/
theorem alternatives_describe {f : AlternativesForm Schema} (hform : n.form = .alternatives f)
    (hregular : (Form.alternatives f).Regular) (hd : (Form.alternatives f).Describable registry)
    {g : Schema → Schema}
    (h : ∀ child ∈ (Form.alternatives f).schemas, Remade inner make child (g child)) :
    form registry make .alternatives (Describe.node inner n) =
      .ok ((Form.alternatives f).map g).withoutCell := by
  obtain ⟨hdescribed, hdescribedBase⟩ := node_alternatives inner hform
  have hentries : (Describe.node inner n).entries.mapM (matchEntry registry make) =
      .ok (f.entries.map (Match.map g)) := by
    rw [hdescribed]
    refine Attempt.mapM_map_pure fun m hm =>
      matchEntry_describe (fun r hr => ?_) fun child hchild => ?_
    · have hin : r ∈ f.references := List.mem_filterMap.mpr ⟨m, hm, hr⟩
      exact ⟨hregular r hin, hd r hin⟩
    · exact (h child (List.mem_append_left _ (List.mem_flatMap.mpr ⟨m, hm, hchild⟩))).make
  have hbase : (Describe.node inner n).base.mapM make = .ok (f.base.map g) := by
    rw [hdescribedBase]
    exact option_describe fun child hchild => (h child (List.mem_append_right _ hchild)).make
  show ((Describe.node inner n).entries.mapM (matchEntry registry make) >>= _) = _
  rw [hentries]
  show ((Describe.node inner n).base.mapM make >>= _) = _
  rw [hbase]
  rfl

/-- Arrays are built from their sheet. -/
theorem array_describe {f : ArrayForm Schema} (hform : n.form = .array f) {g : Schema → Schema}
    (h : ∀ child ∈ (Form.array f).schemas, Remade inner make child (g child)) :
    form registry make .array (Describe.node inner n) = .ok ((Form.array f).map g).withoutCell := by
  obtain ⟨hdescribedItems, hdescribedOrdered⟩ := node_array inner hform
  have hitems : (Describe.node inner n).items.mapM make = .ok (f.items.map g) := by
    rw [hdescribedItems]
    exact Attempt.mapM_map_pure fun child hchild => (h child (List.mem_append_left _ hchild)).make
  have hordered : (Describe.node inner n).ordered.mapM make = .ok (f.ordered.map g) := by
    rw [hdescribedOrdered]
    exact Attempt.mapM_map_pure fun child hchild => (h child (List.mem_append_right _ hchild)).make
  have hsparse : isOn (Describe.node inner n).flags "sparse" = f.sparse :=
    isOn_own (by decide) (by rw [hform]; simp [Describe.formFlags])
  have hsingle : isOn (Describe.node inner n).flags "single" = f.single :=
    isOn_own (by decide) (by rw [hform]; simp [Describe.formFlags])
  show ((Describe.node inner n).items.mapM make >>= _) = _
  rw [hitems]
  show ((Describe.node inner n).ordered.mapM make >>= _) = _
  rw [hordered]
  show Except.ok (Form.array ⟨_, _, isOn (Describe.node inner n).flags "sparse",
    isOn (Describe.node inner n).flags "single"⟩) = _
  rw [hsparse, hsingle]
  rfl

/-- Truth values are built from their sheet. -/
theorem boolean_describe {f : BooleanForm} (hform : n.form = .boolean f)
    (hregular : (Form.boolean f : Form Schema).Regular)
    (hd : (Form.boolean f : Form Schema).Describable registry) :
    form registry make .boolean (Describe.node inner n) = .ok (.boolean f) := by
  obtain ⟨hdescribedTruthy, hdescribedFalsy⟩ := node_boolean inner hform
  have htruthy : set registry (Describe.node inner n).truthy = .ok f.truthy := by
    rw [hdescribedTruthy]
    exact set_describe hregular.1 fun i hi => hd i (List.mem_append_left _ hi)
  have hfalsy : set registry (Describe.node inner n).falsy = .ok f.falsy := by
    rw [hdescribedFalsy]
    exact set_describe hregular.2 fun i hi => hd i (List.mem_append_right _ hi)
  have hsensitive : isOn (Describe.node inner n).flags "sensitive" = f.sensitive :=
    isOn_own (by decide) (by rw [hform]; simp [Describe.formFlags])
  show (set registry (Describe.node inner n).truthy >>= _) = _
  rw [htruthy]
  show (set registry (Describe.node inner n).falsy >>= _) = _
  rw [hfalsy]
  show Except.ok (Form.boolean ⟨_, _, isOn (Describe.node inner n).flags "sensitive"⟩) = _
  rw [hsensitive]

/-- A lazy node is built from its sheet, without what was made of it. -/
theorem lazy_describe {f : LazyForm} (hform : n.form = .lazy f)
    (hd : (Form.lazy f : Form Schema).Describable registry) :
    form registry make .lazy (Describe.node inner n) = .ok (.lazy { f with cell := none }) := by
  have hgenerator := node_lazy inner hform
  have honce : switch? (Describe.node inner n).flags "once" = some f.once := by
    refine switch?_of_get? ?_
    rw [get?_own_flag (by decide), hform]
    rfl
  have hlazy : lazyForm registry (Describe.node inner n) = .ok { f with cell := none } := by
    unfold lazyForm
    rw [hgenerator]
    show (registered registry.generators f.generator >>= _) = _
    rw [registered_ok hd, honce]
    rfl
  show (lazyForm registry (Describe.node inner n) >>= _) = _
  rw [hlazy]
  rfl

/-- Texts are built from their sheet. -/
theorem string_describe {f : StringForm} (hform : n.form = .string f) :
    form registry make .string (Describe.node inner n) = .ok (.string f) := by
  have hreplacements : (Describe.node inner n).replacements.mapM replacement =
      .ok f.replacements := by
    rw [node_string inner hform]
    refine Attempt.mapM_map_self fun entry _ => ?_
    show (Schema.readPattern entry.1.source >>= _) = _
    rw [readPattern_source]
    rfl
  have htruncate : isOn (Describe.node inner n).flags "truncate" = f.truncate :=
    isOn_own (by decide) (by rw [hform]; simp [Describe.formFlags])
  show ((Describe.node inner n).replacements.mapM replacement >>= _) = _
  rw [hreplacements]
  show Except.ok (Form.string ⟨isOn (Describe.node inner n).flags "truncate", _⟩) = _
  rw [htruncate]

end FormParts

/-- The form of a sheet is the form of the node, its inner schemas remade. -/
theorem form_describe {n : Node Schema} (hregular : n.form.Regular)
    (hd : n.form.Describable registry)
    {g : Schema → Schema} (h : ∀ child ∈ n.form.schemas, Remade inner make child (g child)) :
    form registry make n.kind (Describe.node inner n) = .ok (n.form.map g).withoutCell := by
  unfold Node.kind
  cases hform : n.form with
  | any => rfl
  | alternatives f =>
    rw [hform] at hregular hd h
    exact alternatives_describe hform hregular hd h
  | array f =>
    rw [hform] at h
    exact array_describe hform h
  | binary encoding =>
    have hencoding : Members.get? (Describe.node inner n).flags "encoding" =
        encoding.map Json.string := by
      rw [get?_own_flag (by decide), hform]
      simp [Describe.formFlags]
    show Except.ok
      (Form.binary ((Members.get? (Describe.node inner n).flags "encoding").bind text?)) = _
    rw [hencoding]
    cases encoding <;> rfl
  | boolean f =>
    rw [hform] at hregular hd
    exact boolean_describe hform hregular hd
  | date format =>
    have hformat : choiceFlag (Describe.node inner n).flags "format" DateFormat.ofName? =
        .ok format := by
      refine choiceFlag_of_get? format_ofName?_name ?_
      rw [get?_own_flag (by decide), hform]
      simp [Describe.formFlags]
    show (choiceFlag (Describe.node inner n).flags "format" DateFormat.ofName? >>= _) = _
    rw [hformat]
    rfl
  | lazy f =>
    rw [hform] at hd
    exact lazy_describe hform hd
  | number allowUnsafe =>
    have hallowed : isOn (Describe.node inner n).flags "unsafe" = allowUnsafe :=
      isOn_own (by decide) (by rw [hform]; simp [Describe.formFlags])
    show Except.ok (Form.number (isOn (Describe.node inner n).flags "unsafe")) = _
    rw [hallowed]
    rfl
  | object f =>
    rw [hform] at hregular h
    show (object make (Describe.node inner n) >>= _) = _
    rw [object_describe hform hregular h]
    rfl
  | string f => exact string_describe hform

section Lookups

variable {sheet : Sheet Manifest} {flags : List (String × Json)}
  (hflags : ∀ name, Members.get? flags name = Members.get? sheet.flags name)
  (rules : List RuleEntry) (preferences : Option PreferencesPatch)
include hflags

/-- Of the flags, the form depends on what is found under their names. -/
theorem form_congr (kind : Kind) :
    form registry make kind { sheet with flags, rules, preferences } =
      form registry make kind sheet := by
  have hswitch (name : String) : switch? flags name = switch? sheet.flags name := by
    unfold switch?
    rw [hflags]
  have hon (name : String) : isOn flags name = isOn sheet.flags name := by
    unfold isOn
    rw [hswitch]
  cases kind with
  | any | alternatives => rfl
  | array =>
    unfold form
    dsimp only
    rw [hon, hon]
  | binary =>
    unfold form
    dsimp only
    rw [hflags]
  | boolean | number | string =>
    unfold form
    dsimp only
    rw [hon]
  | date =>
    unfold form choiceFlag
    dsimp only
    rw [hflags]
  | lazy =>
    unfold form lazyForm
    dsimp only
    rw [hswitch]
  | object =>
    unfold form object
    dsimp only
    rw [hswitch]

/-- Setting what all types have looks at neither the form's settings nor rules nor preferences. -/
theorem setFlags_congr (n : Node Schema) :
    setFlags registry make { sheet with flags, rules, preferences } n =
      setFlags registry make sheet n := by
  have hon (name : String) : isOn flags name = isOn sheet.flags name := by
    unfold isOn switch?
    rw [hflags]
  have htext (name : String) : textFlag flags name = textFlag sheet.flags name := by
    unfold textFlag
    rw [hflags]
  unfold setFlags choiceFlag
  dsimp only
  simp only [hon, htext, hflags]

end Lookups

/-- Of the arguments, a rule depends on what is found under their names. -/
theorem addRule_congr {entry other : RuleEntry} (hname : other.name = entry.name)
    (hargs : ∀ name, Members.get? other.args name = Members.get? entry.args name)
    (n : Node Schema) : addRule registry make n other = addRule registry make n entry := by
  have hargument : argumentOf registry make other = argumentOf registry make entry := by
    funext p
    unfold argumentOf
    rw [hargs]
  unfold addRule
  rw [hname, hargument]

/-- The members of both sets are described and read back. -/
theorem items_describe (kids : Schema → Manifest) {s : Schema} (hregular : s.Regular)
    (hd : s.Sayable registry) :
    (Describe.node kids s.node).allow.mapM (item registry) = .ok s.node.allowed.items ∧
      (Describe.node kids s.node).invalid.mapM (item registry) = .ok s.node.denied.items := by
  obtain ⟨hallow, hdeny⟩ := node_sets kids s.node
  rw [hallow, hdeny]
  constructor
  · exact Attempt.mapM_map_self fun i hi =>
      item_describe (hregular.sets.left.restorable i hi) (hd.items i (List.mem_append_left _ hi))
  · exact Attempt.mapM_map_self fun i hi =>
      item_describe (hregular.sets.right.restorable i hi) (hd.items i (List.mem_append_right _ hi))

/-- The values that are said in passing are described and read back. -/
theorem remarks_describe (kids : Schema → Manifest) {s : Schema} (hd : s.Sayable registry) :
    (Describe.node kids s.node).examples.mapM Literal.decode = .ok s.node.notes.examples ∧
      (Describe.node kids s.node).metas.mapM Literal.decode = .ok s.node.notes.metas := by
  obtain ⟨-, -, hexamples, hmetas⟩ := node_remarks kids s.node
  rw [hexamples, hmetas]
  constructor
  · exact Attempt.mapM_map_self fun v hv => hd.remarks v (List.mem_append_left _ hv)
  · exact Attempt.mapM_map_self fun v hv => hd.remarks v (List.mem_append_right _ hv)

/-- A node is built from its sheet, given that what is inside is built from what describes it, and
what is an argument of a rule from what is read of it. -/
theorem schema_remade {s : Schema} (hregular : s.Regular) (hd : s.Sayable registry)
    {kids : Schema → Manifest} {f g : Schema → Schema}
    (hkids : ∀ child ∈ s.node.empty.toList ++ s.node.form.schemas, Remade kids make child (f child))
    (hback : ∀ child ∈ s.node.rules.flatMap Rule.schemas, ComesBack inner make child (g child)) :
    schema registry make { Describe.node kids s.node with
      rules := s.node.rules.map (Describe.rule inner s.kind) } =
      .ok { node := s.node.remade f g } := by
  have hform : form registry make s.node.kind
      { Describe.node kids s.node with rules := s.node.rules.map (Describe.rule inner s.kind) } =
        .ok (s.node.form.map f).withoutCell := by
    rw [form_congr (fun _ => rfl)]
    exact form_describe hregular.form hd.form fun child hchild =>
      hkids child (List.mem_append_right _ hchild)
  have hflags (form : Form Schema) := setFlags_describe hregular.flags hd.defaults
    (fun child hchild => (hkids child (List.mem_append_left _ (Option.mem_toList.mpr hchild))).make)
    { form }
  obtain ⟨hallow, hdeny⟩ := items_describe kids hregular hd
  obtain ⟨hexamples, hmetas⟩ := remarks_describe kids hd
  obtain ⟨hnotes, htags, -, -⟩ := node_remarks kids s.node
  let base : Node Schema := {
    form := (s.node.form.map f).withoutCell
    flags := s.node.flags
    empty := s.node.empty.map f
    allowed := s.node.allowed
    denied := s.node.denied
    notes := { description := s.node.notes.description, unit := s.node.notes.unit } }
  have hrules : (s.node.rules.map (Describe.rule inner s.kind)).foldlM
      (addRule registry make) base = .ok { base with rules := s.node.rules.map (Rule.map g) } := by
    have hkind : base.kind = s.kind := s.node.form.kind_map_withoutCell f
    exact addRules_describe hregular.rules hd.arguments hback hkind rfl
  unfold schema
  dsimp only
  rw [node_kind, Kind.ofName?_name]
  show (form registry make s.node.kind
    { Describe.node kids s.node with
        rules := s.node.rules.map (Describe.rule inner s.kind) } >>= _) = _
  rw [hform]
  show (setFlags registry make (Describe.node kids s.node) _ >>= _) = _
  rw [hflags]
  show ((Describe.node kids s.node).allow.mapM (item registry) >>= _) = _
  rw [hallow]
  show ((Describe.node kids s.node).invalid.mapM (item registry) >>= _) = _
  rw [hdeny]
  show ((s.node.rules.map (Describe.rule inner s.kind)).foldlM (addRule registry make)
    (s.node.denied.items.foldl Node.deny (s.node.allowed.items.foldl Node.allow _)) >>= _) = _
  -- allowing and denying in turn gives back both sets
  rw [Node.foldl_allow_deny hregular.sets _ rfl rfl]
  show (List.foldlM (addRule registry make) base
    (s.node.rules.map (Describe.rule inner s.kind)) >>= _) = _
  rw [hrules]
  show ((Describe.node kids s.node).examples.mapM Literal.decode >>= _) = _
  rw [hexamples]
  show ((Describe.node kids s.node).metas.mapM Literal.decode >>= _) = _
  rw [hmetas]
  show Except.ok _ = _
  rw [node_preferences, hnotes, htags]
  rfl

/-- Each member of the second of two lists of one length has a partner in the first. -/
theorem mem_zip_of_right {α β : Type} {as : List α} {bs : List β}
    (hlength : as.length = bs.length) {b : β} (hb : b ∈ bs) : ∃ a, (a, b) ∈ as.zip bs := by
  rw [← List.map_snd_zip (Nat.le_of_eq hlength.symm)] at hb
  obtain ⟨⟨a, _⟩, hpair, rfl⟩ := List.mem_map.mp hb
  exact ⟨a, hpair⟩

/-- Rules without schemas among their parameters have none among their arguments. -/
theorem schemas_of_free {kind : Kind} {rule : Rule Schema} (hfits : rule.Fits kind)
    (hfree : rule.name ∉ ["has", "assert"]) : rule.schemas = [] := by
  obtain ⟨spec, hspec, -, htakes⟩ := hfits
  obtain ⟨-, hkinds⟩ := spec_parameters hspec
  have htakes : List.Forall₂
      (fun p arg => ArgumentKind.Takes (Parameter.kind p) arg) spec.parameters rule.args :=
    List.forall₂_map_left_iff.mp htakes
  refine List.filterMap_eq_nil_iff.mpr fun arg harg => ?_
  obtain ⟨p, hpair⟩ := mem_zip_of_right htakes.length_eq harg
  have htaken : p.kind.Takes arg := (List.forall₂_iff_zip.mp htakes).2 hpair
  have hkind : p.kind ≠ .schema := hkinds hfree p (List.of_mem_zip hpair).1
  cases arg with
  | schema s => exact absurd htaken hkind
  | _ => rfl

/-- A node is built from its sheet, given that what is inside is built from its descriptions. -/
theorem schema_describe {s : Schema} (hregular : s.Regular) (hd : s.Describable registry)
    (h : ∀ child ∈ s.node.empty.toList ++ s.node.form.schemas,
      make (inner child) = .ok child.bare) :
    schema registry make (Describe.node inner s.node) = .ok s.bare := by
  have hsheet : Describe.node inner s.node =
      { Describe.node inner s.node with rules := s.node.rules.map (Describe.rule inner s.kind) } :=
    congrArg (fun rules => { Describe.node inner s.node with rules }) (node_rules inner s.node)
  have hnone : ∀ child ∈ s.node.rules.flatMap Rule.schemas,
      ComesBack inner make child child.bare := by
    intro child hchild
    obtain ⟨rule, hrule, hin⟩ := List.mem_flatMap.mp hchild
    rw [schemas_of_free (hregular.rules.fit rule hrule) (hd.rules rule hrule)] at hin
    exact absurd hin List.not_mem_nil
  rw [hsheet, schema_remade hregular hd.sayable (f := Schema.bare) (fun child hchild =>
    ⟨h child hchild, fun _ => by rw [Schema.bare, child.siblingRefs_erase]⟩) hnone,
      Schema.bare, Schema.erase_eq]
  rfl

end Build

/-! ### What stands inside descriptions -/

namespace Describe

theorem argument?_map {σ τ : Type} (f : σ → τ) (inner : τ → Manifest) (arg : Argument σ) :
    argument? inner (arg.map f) = argument? (inner ∘ f) arg := by
  cases arg with
  | literal v => cases v <;> rfl
  | _ => rfl

/-- Describing a changed rule is describing the rule with the change made on the way. -/
theorem rule_map {σ τ : Type} (f : σ → τ) (inner : τ → Manifest) (kind : Kind) (r : Rule σ) :
    rule inner kind (r.map f) = rule (inner ∘ f) kind r := by
  unfold rule Rule.map
  congr 1
  rw [List.zip_map_right, List.filterMap_map]
  congr 1
  funext pair
  show (argument? inner (pair.2.map f)).map _ = _
  rw [argument?_map]
  rfl

theorem pattern_map {σ τ : Type} (f : σ → τ) (inner : τ → Manifest) (p : KeyPattern σ) :
    pattern inner (p.map f) = pattern (inner ∘ f) p := by
  obtain ⟨matcher, schema⟩ := p
  cases matcher <;> rfl

theorem entry_map {σ τ : Type} (f : σ → τ) (inner : τ → Manifest) (m : Match σ) :
    entry inner (m.map f) = entry (inner ∘ f) m := by
  cases m with
  | attempt s => rfl
  | conditional condition cases otherwise =>
    unfold entry
    dsimp only [Match.map]
    rw [List.map_map, Option.map_map]
    have hcase :
        ((fun c => ⟨c.test.map inner, c.branch.map inner⟩) ∘ Case.map f : Case σ → Case Manifest) =
        fun c => ⟨c.test.map (inner ∘ f), c.branch.map (inner ∘ f)⟩ := by
      funext c
      show (⟨(c.test.map f).map inner, (c.branch.map f).map inner⟩ : Case Manifest) = _
      rw [Option.map_map, Option.map_map]
    rw [hcase]
    cases condition <;> rfl

/-- Describing a changed form is describing the form with the change made on the way. -/
theorem form_map {σ τ : Type} (f : σ → τ) (inner : τ → Manifest) (given : Form σ)
    (sheet : Sheet Manifest) : form inner (given.map f) sheet = form (inner ∘ f) given sheet := by
  cases given with
  | alternatives g =>
    unfold form
    dsimp only [Form.map, AlternativesForm.map]
    rw [List.map_map, Option.map_map, show entry inner ∘ Match.map f = entry (inner ∘ f) from
      funext (entry_map f inner)]
  | array g =>
    unfold form
    dsimp only [Form.map, ArrayForm.map]
    rw [List.map_map, List.map_map]
  | object g =>
    unfold form
    dsimp only [Form.map, ObjectForm.map]
    rw [List.map_map, Option.map_map, show pattern inner ∘ KeyPattern.map f =
      pattern (inner ∘ f) from funext (pattern_map f inner)]
    congr 2
    funext children
    exact List.map_map
  | _ => rfl

/-- What is inside a node may be changed first and described then. -/
theorem node_map {σ τ : Type} (f : σ → τ) (inner : τ → Manifest) (n : Node σ) :
    node inner (n.map f) = node (inner ∘ f) n := by
  have hkind : (n.map f).kind = n.kind := by
    obtain ⟨form, _⟩ := n
    cases form <;> rfl
  have hflags : formFlags (n.map f).form = formFlags n.form := by
    obtain ⟨form, _⟩ := n
    cases form <;> rfl
  have hrules : (n.map f).rules.map (rule inner n.kind) =
      n.rules.map (rule (inner ∘ f) n.kind) := by
    show (n.rules.map (Rule.map f)).map _ = _
    rw [List.map_map]
    exact List.map_congr_left fun r _ => rule_map f inner n.kind r
  have hempty : (n.map f).empty.map inner = n.empty.map (inner ∘ f) := Option.map_map _ _ _
  unfold node
  rw [hkind, hflags, hrules, hempty]
  exact form_map f inner n.form _

/-- Descriptions that agree on what is inside a node describe it alike. -/
theorem node_congr {f g : Schema → Manifest} {n : Node Schema}
    (h : ∀ child ∈ n.inner, f child = g child) : node f n = node g n := by
  have hsame (f : Schema → Manifest) : node f n = node id (n.map f) := (node_map f id n).symm
  rw [hsame f, hsame g, Node.map_congr h]

/-- Inside the description of a key pattern stand those of its schemas. -/
theorem inner_pattern (inner : Schema → Manifest) (p : KeyPattern Schema) :
    (pattern inner p).inner = p.schemas.map inner := by
  obtain ⟨matcher, schema⟩ := p
  cases matcher <;> rfl

/-- Inside the description of an entry stand those of its schemas. -/
theorem inner_entry (inner : Schema → Manifest) (m : Match Schema) :
    (entry inner m).inner = m.schemas.map inner := by
  cases m with
  | attempt s => rfl
  | conditional condition cases otherwise =>
    have hcases :
        (cases.map fun c => (⟨c.test.map inner, c.branch.map inner⟩ : Case Manifest)).flatMap
        Case.schemas = (cases.flatMap Case.schemas).map inner :=
      flatMap_map_schemas (Case.map inner) Case.schemas Case.schemas (Case.schemas_map inner) cases
    show [] ++ (condition.schema?.map inner).toList ++ (cases.map _).flatMap Case.schemas ++
      (otherwise.map inner).toList = _
    rw [hcases, Option.toList_map, Option.toList_map, Match.schemas,
      List.map_append, List.map_append]
    rfl

/-- What stands inside a sheet describes what stands inside the node, rules apart. -/
theorem inner_node (inner : Schema → Manifest) (n : Node Schema) :
    (node inner n).inner = (n.empty.toList ++ n.form.schemas).map inner := by
  obtain ⟨form, flags, empty, allowed, denied, rules, prefs, notes⟩ := n
  rw [List.map_append, ← Option.toList_map]
  -- forms without schemas inside leave what counts as empty
  have hplain (h : Form.schemas form = []) :
      (empty.map inner).toList ++ [] ++ [] ++ [] ++ [] ++ [] ++ [] =
      (empty.map inner).toList ++ form.schemas.map inner := by
    rw [h]
    simp
  cases form with
  | alternatives f =>
    have hentries : (f.entries.map (entry inner)).flatMap MatchEntry.inner =
        (f.entries.flatMap Match.schemas).map inner := by
      rw [List.flatMap_map, List.map_flatMap]
      exact List.flatMap_congr fun m _ => inner_entry inner m
    show (empty.map inner).toList ++ [] ++ [] ++ [] ++ [] ++
      (f.entries.map (entry inner)).flatMap MatchEntry.inner ++ (f.base.map inner).toList = _
    rw [hentries, Option.toList_map inner f.base]
    simp [Form.schemas, AlternativesForm.schemas]
  | array f =>
    show (empty.map inner).toList ++ [] ++ [] ++ f.items.map inner ++
      f.ordered.map inner ++ [] ++ [] = _
    simp [Form.schemas]
  | object f =>
    have hkeys : ((f.keys.map (mapChildren inner)).getD []).map (·.2) =
        f.childSchemas.map inner := by
      unfold ObjectForm.childSchemas ObjectForm.children mapChildren
      cases f.keys with
      | none => rfl
      | some children =>
        show (children.map _).map _ = (children.map _).map inner
        rw [List.map_map, List.map_map]
        rfl
    have hpatterns : (f.patterns.map (pattern inner)).flatMap PatternEntry.inner =
        (f.patterns.flatMap KeyPattern.schemas).map inner := by
      rw [List.flatMap_map, List.map_flatMap]
      exact List.flatMap_congr fun p _ => inner_pattern inner p
    show (empty.map inner).toList ++ ((f.keys.map (mapChildren inner)).getD []).map (·.2) ++
      (f.patterns.map (pattern inner)).flatMap PatternEntry.inner ++ [] ++ [] ++ [] ++ [] = _
    rw [hkeys, hpatterns]
    simp [Form.schemas]
  | _ => exact hplain rfl

end Describe

namespace Schema

/-- A description is a sheet of descriptions. -/
theorem describe_eq (s : Schema) : s.describe = ⟨Describe.node describe s.node⟩ := by
  have hmade (fuel : Nat) (s : Schema) :
      s.describeWithin (fuel + 1) = ⟨Describe.node (describeWithin fuel) s.node⟩ := rfl
  have hstep (f g : Schema → Manifest) (s : Schema) (h : ∀ child ∈ s.inner, f child = g child) :
      (⟨Describe.node f s.node⟩ : Manifest) = ⟨Describe.node g s.node⟩ :=
    congrArg Manifest.mk (Describe.node_congr h)
  exact made_eq hmade hstep s

/-- The sheet of a description is that of the node, with the descriptions of what is inside. -/
theorem sheet_describe (s : Schema) : s.describe.sheet = Describe.node describe s.node :=
  congrArg Manifest.sheet s.describe_eq

end Schema

/-- A description is higher than what stands inside. -/
theorem Manifest.height_lt {m child : Manifest} (h : child ∈ m.inner) :
    child.height < m.height := by
  rw [height.eq_def m]
  refine Nat.lt_succ_of_le (Nat.le_trans ((le_foldl_max _ 0).2 _ ?_) (Nat.le_max_right _ _))
  exact List.mem_map.mpr ⟨⟨child, h⟩, List.mem_attach _ _, rfl⟩

namespace Schema

/-- What is described on its own, rather than in the arguments of a rule, stands inside. -/
theorem mem_inner_of_described {s child : Schema}
    (h : child ∈ s.node.empty.toList ++ s.node.form.schemas) : child ∈ s.inner := by
  rcases List.mem_append.mp h with hempty | hform
  · exact List.mem_append_left _ (List.mem_append_left _ hempty)
  · exact List.mem_append_right _ hform

/-- Schemas among the arguments of rules are inside. -/
theorem mem_inner_of_rules {s child : Schema}
    (h : child ∈ s.node.rules.flatMap Rule.schemas) : child ∈ s.inner :=
  List.mem_append_left _ (List.mem_append_right _ h)

/-- The description of a schema is higher than those of the schemas described on their own. -/
theorem height_describe_lt {s child : Schema}
    (h : child ∈ s.node.empty.toList ++ s.node.form.schemas) :
    child.describe.height < s.describe.height := by
  refine Manifest.height_lt ?_
  unfold Manifest.inner
  rw [sheet_describe, Describe.inner_node]
  exact List.mem_map_of_mem h

/-- A schema whose parts can be described, and that is such as calls make, is built from its
description, but for marks. -/
theorem build_describe {registry : Registry} {s : Schema} (hregular : s.Everywhere Regular)
    (hd : s.Everywhere (Describable registry)) : s.describe.build registry = .ok s.bare := by
  have hall (fuel : Nat) (hfuel : s.describe.height ≤ fuel) :
      Build.schemaWithin registry fuel s.describe = .ok s.bare := by
    induction s using inner_induction generalizing fuel with
    | h s ih =>
      have hpos : 0 < s.describe.height := by
        rw [Manifest.height.eq_def]
        exact Nat.succ_pos _
      obtain ⟨k, rfl⟩ : ∃ k, fuel = k + 1 := ⟨fuel - 1, by omega⟩
      show Build.schema registry (Build.schemaWithin registry k) s.describe.sheet = _
      rw [sheet_describe]
      refine Build.schema_describe hregular.self hd.self fun child hchild => ?_
      have hin : child ∈ s.inner := mem_inner_of_described hchild
      have hlt := height_describe_lt hchild
      exact ih child hin (hregular.inner hin) (hd.inner hin) k (by omega)
  exact hall _ (Nat.le_refl _)

end Schema

end Conform
