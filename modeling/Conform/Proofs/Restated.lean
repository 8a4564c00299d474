import Conform.Proofs.Tidy

/-!
# Nodes that say the same

A node that was described and built again has settled values, other schemas inside and maybe other
preferences. It says what the node said, if the schemas inside do: its description is written as the
same data once members are sorted, and it reads the same siblings (`Schema.Restates`).

A description is compared as data with sorted members, because that is what an argument of a
rule is compared as, and a schema may stand in one. Two ways of writing what is inside that
agree up to sorting give sheets that agree up to sorting; this goes through the blocks of a
sheet with one lemma for each shape of block (`sortedMembers_optionalMember`,
`sortedMembers_listMember`) and one for each kind of entry.

What is remade differs from the node in three respects, and they are taken one after another. The
values that it mentions are settled, which changes neither what is written nor which siblings are
read (`siblingRefs_settled`). The schemas inside are others that say the same. And the preferences
may be others that are written alike (`Sheet.toJson_preferences`). The schemas among the arguments
of rules need the relation itself, since they are written as data at once.

Main statement: `Schema.Restates.remade`.
-/

namespace Conform

open Json Manifest

/-! ### What is written alike -/

namespace Json

theorem sortedMembers_append (a b : List (String × Json)) :
    sortedMembers (a ++ b) = sortedMembers a ++ sortedMembers b := by
  rw [sortedMembers_eq, sortedMembers_eq, sortedMembers_eq, List.map_append]

theorem sorted_object {a b : List (String × Json)} (h : sortedMembers a = sortedMembers b) :
    (Json.object a).sorted = (Json.object b).sorted := by
  rw [sorted, sorted, h]

section Member

variable {α : Type} {f g : α → Json} (name : String)

theorem sortedMembers_optionalMember {o : Option α}
    (h : ∀ a ∈ o.toList, (f a).sorted = (g a).sorted) :
    sortedMembers (optionalMember name o f) = sortedMembers (optionalMember name o g) := by
  cases o with
  | none => rfl
  | some a =>
    show [(name, (f a).sorted)] = [(name, (g a).sorted)]
    rw [h a (List.mem_singleton_self _)]

theorem sortedMembers_listMember {items : List α} (h : ∀ a ∈ items, (f a).sorted = (g a).sorted) :
    sortedMembers (listMember name items f) = sortedMembers (listMember name items g) := by
  unfold listMember
  split
  next => rfl
  next =>
    show [(name, (Json.array (items.map f)).sorted)] = [(name, (Json.array (items.map g)).sorted)]
    rw [sorted, sorted, sortedItems_eq, sortedItems_eq, List.map_map, List.map_map]
    exact congrArg (fun items => [(name, Json.array items)]) (List.map_congr_left h)

end Member

end Json

namespace Manifest

variable {δ : Type} {f g : δ → Json}

theorem PatternEntry.sorted_toJson {p : PatternEntry δ}
    (h : ∀ d ∈ p.inner, (f d).sorted = (g d).sorted) :
    (p.toJson f).sorted = (p.toJson g).sorted := by
  refine sorted_object ?_
  have hschema := sortedMembers_optionalMember "schema" (o := p.schema) fun d hd =>
    h d (List.mem_append_left _ hd)
  have hrule : (f p.rule).sorted = (g p.rule).sorted :=
    h _ (List.mem_append_right _ (List.mem_singleton_self _))
  rw [sortedMembers_append, sortedMembers_append, sortedMembers_append,
    sortedMembers_append, hschema]
  show _ ++ _ ++ [("rule", (f p.rule).sorted)] = _ ++ _ ++ [("rule", (g p.rule).sorted)]
  rw [hrule]

theorem sorted_caseToJson {c : Case δ} (h : ∀ d ∈ c.schemas, (f d).sorted = (g d).sorted) :
    (caseToJson f c).sorted = (caseToJson g c).sorted := by
  refine sorted_object ?_
  rw [sortedMembers_append, sortedMembers_append,
    sortedMembers_optionalMember "is" fun d hd => h d (List.mem_append_left _ hd),
    sortedMembers_optionalMember "then" fun d hd => h d (List.mem_append_right _ hd)]

theorem MatchEntry.sorted_toJson {m : MatchEntry δ}
    (h : ∀ d ∈ m.inner, (f d).sorted = (g d).sorted) :
    (m.toJson f).sorted = (m.toJson g).sorted := by
  have hcases : ∀ c ∈ m.cases, (caseToJson f c).sorted = (caseToJson g c).sorted := fun c hc =>
    sorted_caseToJson fun d hd => h d (m.mem_inner (.case hc hd))
  refine sorted_object ?_
  simp only [sortedMembers_append]
  rw [sortedMembers_optionalMember "schema" fun d hd => h d (m.mem_inner (.schema hd)),
    sortedMembers_optionalMember "condition" fun d hd => h d (m.mem_inner (.condition hd)),
    sortedMembers_listMember "switch" hcases,
    sortedMembers_optionalMember "otherwise" fun d hd => h d (m.mem_inner (.otherwise hd))]

/-- A sheet is written alike by writers that write alike what is inside. -/
theorem Sheet.sorted_toJson {s : Sheet δ} (h : ∀ d ∈ s.inner, (f d).sorted = (g d).sorted) :
    (s.toJson f).sorted = (s.toJson g).sorted := by
  -- the three parts that hold what is inside at a depth: children, patterns and entries
  have hkeys : ∀ children ∈ s.keys.toList,
      (Json.object (children.map fun entry => (entry.1, f entry.2))).sorted =
        (Json.object (children.map fun entry => (entry.1, g entry.2))).sorted := by
    intro children hchildren
    refine sorted_object ?_
    rw [sortedMembers_eq, sortedMembers_eq, List.map_map, List.map_map]
    refine List.map_congr_left fun entry hentry => Prod.ext rfl (h entry.2 (s.mem_inner ?_))
    exact .child (Option.mem_toList.mp hchildren) hentry
  have hpatterns : ∀ p ∈ s.patterns, (p.toJson f).sorted = (p.toJson g).sorted := fun p hp =>
    p.sorted_toJson fun d hd => h d (s.mem_inner (.pattern hp hd))
  have hentries : ∀ m ∈ s.entries, (m.toJson f).sorted = (m.toJson g).sorted := fun m hm =>
    m.sorted_toJson fun d hd => h d (s.mem_inner (.entry hm hd))
  refine sorted_object ?_
  simp only [sortedMembers_append]
  rw [sortedMembers_optionalMember "empty" fun d hd => h d (s.mem_inner (.empty hd)),
    sortedMembers_optionalMember "keys" hkeys,
    sortedMembers_listMember "patterns" hpatterns,
    sortedMembers_listMember "items" fun d hd => h d (s.mem_inner (.item hd)),
    sortedMembers_listMember "ordered" fun d hd => h d (s.mem_inner (.ordered hd)),
    sortedMembers_listMember "matches" hentries,
    sortedMembers_optionalMember "base" fun d hd => h d (s.mem_inner (.base hd))]

/-- Of the preferences it matters how they are written. -/
theorem Sheet.toJson_preferences (inner : δ → Json) {s : Sheet δ} {p : Option PreferencesPatch}
    (h : p.map PreferencesPatch.toJson = s.preferences.map PreferencesPatch.toJson) :
    { s with preferences := p }.toJson inner = s.toJson inner := by
  have hmember (o : Option PreferencesPatch) :
      optionalMember "preferences" o PreferencesPatch.toJson =
      optionalMember "preferences" (o.map PreferencesPatch.toJson) id :=
    (optionalMember_map PreferencesPatch.toJson "preferences" o id).symm
  unfold toJson
  dsimp only
  rw [hmember, hmember, h]

end Manifest

/-! ### What describes a remade node -/

namespace Describe

variable {σ τ : Type}

theorem node_withoutCell (inner : σ → Manifest) (n : Node σ) :
    node inner n.withoutCell = node inner n := by
  obtain ⟨form, _⟩ := n
  cases form <;> rfl

theorem node_update (inner : σ → Manifest) (n : Node σ) (rules : List (Rule σ))
    (prefs : Option PreferencesPatch) : node inner { n with rules, prefs } =
      { node inner n with rules := rules.map (rule inner n.kind), preferences := prefs } := by
  obtain ⟨form, _⟩ := n
  cases form <;> rfl

/-- What a remade node says, with the schemas of its rules described apart. -/
theorem node_remade (inner : τ → Manifest) (f g : σ → τ) (n : Node σ)
    (prefs : Option PreferencesPatch) : node inner { n.remade f g with prefs } =
      { node (inner ∘ f) n with
        rules := n.rules.map (rule (inner ∘ g) n.kind), preferences := prefs } := by
  have hkind : (n.map f).withoutCell.kind = n.kind := by
    obtain ⟨form, _⟩ := n
    cases form <;> rfl
  have hrules : (n.rules.map (Rule.map g)).map (rule inner n.kind) =
      n.rules.map (rule (inner ∘ g) n.kind) := by
    rw [List.map_map]
    exact List.map_congr_left fun r _ => rule_map g inner n.kind r
  show node inner { (n.map f).withoutCell with rules := n.rules.map (Rule.map g), prefs } = _
  rw [node_update, hkind, hrules, node_withoutCell, node_map]

/-- A rule depends on how the schemas among its arguments are written. -/
theorem rule_congr {inner inner' : σ → Manifest} (kind : Kind) {r : Rule σ}
    (h : ∀ s ∈ r.schemas, (inner s).toJson.sorted = (inner' s).toJson.sorted) :
    rule inner kind r = rule inner' kind r := by
  have hargument : ∀ arg ∈ r.args, argument? inner arg = argument? inner' arg := by
    intro arg harg
    cases arg with
    | schema s =>
      have hs := h s (List.mem_filterMap.mpr ⟨_, harg, rfl⟩)
      exact congrArg (fun json => some (Literal.tagged "schema" json)) hs
    | literal v => cases v <;> rfl
    | _ => rfl
  unfold rule
  refine congrArg (RuleEntry.mk r.name) (List.filterMap_congr fun pair hpair => ?_)
  show (argument? inner pair.2).map _ = (argument? inner' pair.2).map _
  rw [hargument pair.2 (List.of_mem_zip hpair).2]

/-- Sheets of one node are written alike if what is inside is. -/
theorem node_written {kids kids' : Schema → Manifest} {n : Node Schema} (rules : List RuleEntry)
    (h : ∀ child ∈ n.empty.toList ++ n.form.schemas,
      (kids child).toJson.sorted = (kids' child).toJson.sorted) :
    ({ node kids n with rules }.toJson toJson).sorted =
      ({ node kids' n with rules }.toJson toJson).sorted := by
  let data (d : Manifest) : Json := d.toJson.sorted
  have hdata (sheet : Sheet Manifest) : (sheet.toJson toJson).sorted =
      ((sheet.map data).toJson id).sorted := by
    rw [Sheet.toJson_map]
    exact Sheet.sorted_toJson fun d _ => (sorted_sorted d.toJson).symm
  have hagree : { (node kids n).map data with rules } = { (node kids' n).map data with rules } :=
    node_agree rules h
  rw [hdata, hdata]
  exact congrArg (fun sheet : Sheet Json => (sheet.toJson id).sorted) hagree

end Describe

/-! ### Settled nodes -/

namespace Schema

variable {s : Schema}

theorem rules_settled (s : Schema) :
    s.settled.node.rules.flatMap Rule.schemas = s.node.rules.flatMap Rule.schemas := by
  show (s.node.rules.map (Rule.mapValues Literal.settled)).flatMap Rule.schemas = _
  rw [List.flatMap_map]
  refine List.flatMap_congr fun rule _ => ?_
  show (rule.args.map (Argument.mapValues Literal.settled)).filterMap Argument.schema? = _
  rw [List.filterMap_map]
  refine List.filterMap_congr fun arg _ => ?_
  cases arg <;> rfl

theorem form_settled (s : Schema) : s.settled.node.form.schemas = s.node.form.schemas := by
  show (s.node.form.mapValues Literal.settled).schemas = _
  cases s.node.form with
  | alternatives f =>
    show (f.entries.map (Match.mapValues Literal.settled)).flatMap Match.schemas ++
      f.base.toList = _
    rw [List.flatMap_map]
    refine congrArg (· ++ f.base.toList) (List.flatMap_congr fun m _ => ?_)
    cases m with
    | attempt t => rfl
    | conditional condition cases otherwise => cases condition <;> rfl
  | _ => rfl

theorem ownReferences_settled (s : Schema) :
    s.settled.ownReferences = s.ownReferences.map (Reference.mapValues Literal.settled) := by
  -- settling changes references where they stand
  have hfilter {α : Type} (change : α → α) (find : α → Option Reference)
      (h : ∀ a, find (change a) = (find a).map (Reference.mapValues Literal.settled))
      (items : List α) :
      (items.map change).filterMap find =
      (items.filterMap find).map (Reference.mapValues Literal.settled) := by
    rw [List.filterMap_map, List.map_filterMap]
    exact List.filterMap_congr fun a _ => h a
  have hset (given : ValueSet) : (given.mapValues Literal.settled).referenceItems =
      given.referenceItems.map (Reference.mapValues Literal.settled) := by
    unfold ValueSet.referenceItems
    rw [ValueSet.items_mapValues]
    exact hfilter _ _ (fun i => by cases i <;> rfl) given.items
  have hrules : (s.node.rules.map (Rule.mapValues Literal.settled)).flatMap Rule.references =
      (s.node.rules.flatMap Rule.references).map (Reference.mapValues Literal.settled) := by
    rw [List.flatMap_map, List.map_flatMap]
    exact List.flatMap_congr fun rule _ => hfilter _ _ (fun arg => by cases arg <;> rfl) rule.args
  have hdefaults := hfilter (Default.mapValues Literal.settled) Default.reference?
    Default.reference?_mapValues (s.node.flags.default.toList ++ s.node.flags.failover.toList)
  rw [← Flags.defaults_mapValues] at hdefaults
  unfold ownReferences settled Node.mapValues
  dsimp only
  rw [hrules, hset, hset, hdefaults, List.map_append, List.map_append,
    List.map_append, List.map_append]
  congr 1
  cases s.node.form with
  | alternatives f => exact f.references_mapValues Literal.settled
  | _ => rfl

theorem consulted_settled (s : Schema) : s.settled.consulted = s.consulted := by
  have hform := s.form_settled
  unfold consulted
  rw [rules_settled]
  congr 1
  unfold settled Node.mapValues at hform ⊢
  dsimp only at hform ⊢
  cases hs : s.node.form with
  | alternatives f =>
    rw [hs] at hform
    exact congrArg (List.map (0, ·)) hform
  | _ => rfl

/-- The node reads the same siblings with other values. -/
theorem siblingRefs_settled (s : Schema) (levels : Nat) :
    s.settled.siblingRefs levels = s.siblingRefs levels := by
  rw [siblingRefs_eq, siblingRefs_eq s, ownReferences_settled,
    consulted_settled, List.filterMap_map]
  rfl

/-! ### Remade nodes -/

/-- The schema says what the other one says: it reads the same siblings, and what describes it is
written as the same data once members are sorted. -/
structure Restates (t s : Schema) : Prop where
  siblings : ∀ levels, t.siblingRefs levels = s.siblingRefs levels
  written : t.describe.toJson.sorted = s.describe.toJson.sorted

variable {f g : Schema → Schema} {prefs : Option PreferencesPatch}
  (hsettles : Mention.Settles Literal.settled s.node.mentions)
  (hg : ∀ child ∈ s.node.rules.flatMap Rule.schemas, Restates (g child) child)

include hg in
theorem siblingRefs_settled_remade (prefs : Option PreferencesPatch)
    (hf : ∀ child ∈ s.node.form.schemas, ∀ levels,
      (f child).siblingRefs levels = child.siblingRefs levels)
    (levels : Nat) :
    ({ node := { s.settled.node.remade f g with prefs } } : Schema).siblingRefs levels =
      s.siblingRefs levels := by
  have hprefs : ({ node := { s.settled.node.remade f g with prefs } } : Schema).siblingRefs levels =
      ({ node := s.settled.node.remade f g } : Schema).siblingRefs levels := by
    rw [siblingRefs_eq, siblingRefs_eq { node := s.settled.node.remade f g }]
    rfl
  rw [hprefs, siblingRefs_remade none, siblingRefs_settled]
  · rw [form_settled]
    exact hf
  · rw [rules_settled]
    exact fun child hchild => (hg child hchild).siblings

include hsettles hg in
/-- What describes the remade node is what described the node, with the
descriptions of what is inside. -/
theorem describe_remade (prefs : Option PreferencesPatch) :
    ({ node := { s.settled.node.remade f g with prefs } } : Schema).describe =
    ⟨{ Describe.node (describe ∘ f) s.node with
      rules := (Describe.node describe s.node).rules, preferences := prefs }⟩ := by
  have hrules : s.settled.node.rules.map (Describe.rule (describe ∘ g) s.settled.node.kind) =
      (Describe.node describe s.node).rules := by
    have hkind : s.settled.node.kind = s.node.kind := by
      show (s.node.form.mapValues Literal.settled).kind = s.node.form.kind
      cases s.node.form <;> rfl
    rw [hkind, Build.node_rules]
    show (s.node.rules.map (Rule.mapValues Literal.settled)).map _ = _
    rw [List.map_map]
    refine List.map_congr_left fun rule hrule => ?_
    show Describe.rule (describe ∘ g) s.node.kind (rule.mapValues Literal.settled) = _
    rw [Describe.rule_mapValues _ _ (hsettles.left.left.right.part hrule)]
    exact Describe.rule_congr _ fun child hchild =>
      (hg child (List.mem_flatMap.mpr ⟨rule, hrule, hchild⟩)).written
  rw [describe_eq, Describe.node_remade, hrules]
  show (⟨{ Describe.node (describe ∘ f) (s.node.mapValues Literal.settled) with
    rules := (Describe.node describe s.node).rules, preferences := prefs }⟩ : Manifest) = _
  rw [Describe.node_mapValues _ hsettles]

include hsettles hg in
/-- A node with settled values says what it said, if what is put inside says what was inside. -/
theorem Restates.remade
    (hprefs : prefs.map PreferencesPatch.toJson = s.node.prefs.map PreferencesPatch.toJson)
    (hf : ∀ child ∈ s.node.empty.toList ++ s.node.form.schemas, Restates (f child) child) :
    Restates { node := { s.settled.node.remade f g with prefs } } s where
  siblings := siblingRefs_settled_remade hg prefs fun child hchild =>
    (hf child (List.mem_append_right _ hchild)).siblings
  written := by
    let said : Sheet Manifest :=
      { Describe.node (describe ∘ f) s.node with rules := (Describe.node describe s.node).rules }
    have hprefs : prefs.map PreferencesPatch.toJson =
        said.preferences.map PreferencesPatch.toJson := by
      rw [show said.preferences = s.node.prefs from Build.node_preferences _ _, hprefs]
    rw [describe_remade hsettles hg prefs, describe_eq s, toJson_eq, toJson_eq]
    refine (congrArg Json.sorted (Sheet.toJson_preferences (s := said) toJson hprefs)).trans ?_
    exact Describe.node_written _ fun child hchild => (hf child hchild).written

end Schema

end Conform
