import Conform.Proofs.Restated

/-!
# Describing once more

What describes a schema is built to a schema that says the same. A description inside an argument of
a rule is written as data and read back on the way; it comes back in another order, and is built all
the same (`Schema.comes_back`). All else is built from the very descriptions, so that what is built
is described as before, to the letter (`Schema.redescribed`).

The induction is on what is inside a schema; that the heights of descriptions are fuel enough, for
what is read from arguments too, is `Manifest.height_of_argument`.

There are two kinds of places for a schema in a node, and two relations between a schema and what
comes back of it. In the form it is described in place, and what is built says the same. In an
argument of a rule its description is data, read by a reader in another order. One induction
covers both: what is known of schemas inside, that a description of theirs in either order is
built to one that stands in the relation (`InnerBack`), is what is shown of the schema
(`Builds.comes_back`). The relation is a parameter, as another development needs it with filed
copies in place of schemas that say the same.

Building goes down by fuel, the height of the description. A description that is read
from an argument is less high than the description with the argument, and that is a
matter of how deep data is.
-/

namespace Conform

open Json Manifest

/-! ### Fuel -/

namespace Json

mutual
theorem depth_toSource (json : Json) : json.toSource.depth = json.depth := by
  cases json with
  | array items =>
    rw [toSource, Source.depth, depth, depth_toSources items]
  | object members =>
    rw [toSource, Source.depth, depth, depth_toMembers members]
  | _ => rfl

theorem depth_toSources (items : List Json) :
    Source.depthItems (toSources items) = depthItems items := by
  cases items with
  | nil => rfl
  | cons item rest =>
    rw [toSources, Source.depthItems, depthItems, depth_toSource item, depth_toSources rest]

theorem depth_toMembers (members : List (String × Json)) :
    Source.depthMembers (toMembers members) = depthMembers members := by
  cases members with
  | nil => rfl
  | cons member rest =>
    obtain ⟨key, value⟩ := member
    rw [toMembers, Source.depthMembers, depthMembers, depth_toSource value, depth_toMembers rest]
end

end Json

namespace Manifest

theorem depth_lt_height {m : Manifest} {rule : RuleEntry} (hrule : rule ∈ m.sheet.rules)
    {arg : String × Json} (harg : arg ∈ rule.args) : arg.2.depth < m.height := by
  rw [height.eq_def]
  refine Nat.lt_succ_of_le (Nat.le_trans ((le_foldl_max _ 0).2 _ ?_) (Nat.le_max_left _ _))
  exact List.mem_flatMap.mpr
    ⟨rule, hrule, List.mem_map_of_mem (f := fun arg : String × Json => arg.2.depth) harg⟩

/-- What is read from an argument is less high than the description that has the argument. -/
theorem height_of_argument {m d : Manifest} {rule : RuleEntry}
    (hrule : rule ∈ m.sheet.rules) {name : String}
    {content : Json} (harg : (name, Literal.tagged "schema" content) ∈ rule.args)
    (hread : read? content.toSource = some d) : d.height < m.height := by
  have hdepth : (Literal.tagged "schema" content).depth = content.depth + 1 := by
    show max content.depth 0 + 1 = _
    rw [Nat.max_zero]
  have harg := depth_lt_height hrule harg
  have hheight := height_of_read? hread
  rw [depth_toSource] at hheight
  dsimp only at harg
  omega

end Manifest

/-! ### One node -/

/-- What a description says of the node can be said again: the node is regular, its functions are
registered, and its dates are read back to the millisecond. -/
structure Schema.Tellable (registry : Registry) (s : Schema) : Prop where
  regular : s.Regular
  known : s.Known registry
  dates : s.KeepsMilliseconds

namespace Build

open Schema (describe)

variable {registry : Registry} {make : Manifest → Attempt Schema} {s : Schema}

/-- A schema among the arguments of a rule is written as one of the described arguments. -/
theorem mem_described_args (inner : Schema → Manifest) (hs : s.Regular) {child : Schema}
    (h : child ∈ s.node.rules.flatMap Rule.schemas) :
    ∃ rule ∈ (Describe.node inner s.node).rules, ∃ name,
      (name, Literal.tagged "schema" (inner child).toJson.sorted) ∈ rule.args := by
  obtain ⟨rule, hrule, hchild⟩ := List.mem_flatMap.mp h
  obtain ⟨arg, harg, hschema⟩ := List.mem_filterMap.mp hchild
  obtain rfl : arg = .schema child := by
    cases arg with
    | schema t => exact congrArg Argument.schema (Option.some.inj hschema)
    | _ => exact absurd hschema (by simp [Argument.schema?])
  obtain ⟨spec, hspec, -, htakes⟩ := hs.rules.fit rule hrule
  have htakes : List.Forall₂
      (fun p arg => ArgumentKind.Takes (Parameter.kind p) arg) spec.parameters rule.args :=
    List.forall₂_map_left_iff.mp htakes
  obtain ⟨p, hpair⟩ := mem_zip_of_right htakes.length_eq harg
  refine ⟨Describe.rule inner s.node.kind rule, ?_, p.name,
    List.mem_filterMap.mpr ⟨(p, .schema child), ?_, rfl⟩⟩
  · rw [node_rules]
    exact List.mem_map_of_mem hrule
  · have hparameters : Describe.parameters s.node.kind rule.name = spec.parameters := by
      unfold Describe.parameters
      rw [show s.node.kind.rule? rule.name = some spec from hspec]
      rfl
    rw [hparameters]
    exact hpair

/-- A node is built from its sheet to one that says the same, if what is inside is
built to schemas that do. -/
theorem schema_restated (hs : s.Tellable registry) (kids : Schema → Manifest)
    (hkids : ∀ child ∈ s.node.empty.toList ++ s.node.form.schemas,
      ∃ t, make (kids child) = .ok t ∧ t.Restates child)
    (hargs : ∀ child ∈ s.node.rules.flatMap Rule.schemas, ∃ t,
      ComesBack describe make child t ∧ t.Restates child) :
    ∃ f g : Schema → Schema,
      schema registry make { Describe.node kids s.node with
        rules := (Describe.node describe s.node).rules } =
        .ok { node := s.settled.node.remade f g } ∧
      (∀ child ∈ s.node.empty.toList ++ s.node.form.schemas,
        make (kids child) = .ok (f child) ∧ (f child).Restates child) ∧
      ∀ child ∈ s.node.rules.flatMap Rule.schemas, (g child).Restates child := by
  choose! f hf using hkids
  choose! g hg using hargs
  have hsettles := hs.known.settles hs.dates
  -- the sheet is that of the settled node, whose values are read back as they are
  have hsheet : { Describe.node kids s.node with rules := (Describe.node describe s.node).rules } =
      { Describe.node kids s.settled.node with
        rules := s.settled.node.rules.map (Describe.rule describe s.settled.kind) } := by
    have hkids : Describe.node kids s.settled.node = Describe.node kids s.node :=
      Describe.node_mapValues kids hsettles
    have hrules : Describe.node describe s.settled.node = Describe.node describe s.node :=
      Describe.node_mapValues describe hsettles
    rw [hkids, ← hrules, node_rules]
    rfl
  refine ⟨f, g, ?_, hf, fun child hchild => (hg child hchild).2⟩
  rw [hsheet]
  refine schema_remade (hs.regular.mapValues hsettles) (hs.known.sayable_settled hs.dates)
    (fun child hchild => ?_) fun child hchild => ?_
  · have hchild : child ∈ s.node.empty.toList ++ s.settled.node.form.schemas := hchild
    rw [s.form_settled] at hchild
    obtain ⟨hmake, hrestates⟩ := hf child hchild
    exact ⟨hmake, fun _ => by rw [hrestates.siblings]⟩
  · have hchild : child ∈ s.settled.node.rules.flatMap Rule.schemas := hchild
    rw [s.rules_settled] at hchild
    exact (hg child hchild).1

end Build

/-! ### All the way down -/

namespace Schema

variable {registry : Registry} {s : Schema}

/-- What describes a node is read back, tables in the order in which they are found, and with what
is read back of the descriptions inside. -/
theorem Askable.reads_back (hs : s.Askable) (order : Order) {back : Manifest → Manifest}
    (hback : ∀ child ∈ s.node.empty.toList ++ s.node.form.schemas,
      Manifest.read? (order.source child.describe.toJson) = some (back child.describe)) :
    Manifest.read? (order.source s.describe.toJson) =
      some ⟨((Describe.node describe s.node).arranged order).map back⟩ := by
  have hsheet :=
    Sheet.read?_toJson (r := Manifest.read?) (f := back) (hs.tidy describe) fun d hd => by
    rw [Describe.inner_node] at hd
    obtain ⟨child, hchild, rfl⟩ := List.mem_map.mp hd
    exact ⟨by rw [toJson_eq, Sheet.toJson]; rfl, hback child hchild⟩
  rw [describe_eq, toJson_eq, Manifest.read?_eq, hsheet]
  rfl

/-- Of a neat node, flags and arguments are read back in another order. -/
theorem Neat.reads_back (hs : s.Neat) {back : Manifest → Manifest}
    (hback : ∀ child ∈ s.node.empty.toList ++ s.node.form.schemas,
      Manifest.read? child.describe.toJson.sorted.toSource = some (back child.describe)) :
    Manifest.read? s.describe.toJson.sorted.toSource = some ⟨Sheet.resorted
      { Describe.node (back ∘ describe) s.node with
        rules := (Describe.node describe s.node).rules }⟩ := by
  have hagree : { (Describe.node describe s.node).map back with
      rules := (Describe.node describe s.node).rules } =
      { (Describe.node (back ∘ describe) s.node).map id with
          rules := (Describe.node describe s.node).rules } :=
    Describe.node_agree _ fun _ _ => rfl
  rw [Sheet.map_id] at hagree
  have hread := hs.askable.reads_back .ascending hback
  rw [hs.resorted] at hread
  rw [← hagree]
  exact hread

/-- Nodes for which `P` holds are built, from their sheets, to nodes that stand in the relation `R`
to them, if what is inside is built to schemas that do. -/
def Builds (registry : Registry) (P : Schema → Prop) (R : Schema → Schema → Prop) : Prop :=
  ∀ (make : Manifest → Build.Attempt Schema) (kids : Schema → Manifest) (s : Schema), P s →
    (∀ child ∈ s.node.empty.toList ++ s.node.form.schemas, ∃ t,
      make (kids child) = .ok t ∧ R t child) →
    (∀ child ∈ s.node.rules.flatMap Rule.schemas, ∃ t,
      Build.ComesBack describe make child t ∧ R t child) →
    ∃ n : Node Schema,
      Build.schema registry make
        { Describe.node kids s.node with rules := (Describe.node describe s.node).rules } =
        .ok { node := n } ∧
      R { node := { n with prefs := s.node.prefs.map PreferencesPatch.settled } } s

/-- Every schema inside is read back as a description that is built to something
in the relation to it. -/
def InnerBack (registry : Registry) (R : Schema → Schema → Prop) (back : Manifest → Manifest)
    (s : Schema) : Prop :=
  ∀ child ∈ s.inner, Manifest.read? child.describe.toJson.sorted.toSource =
    some (back child.describe) ∧ ∀ fuel, (back child.describe).height ≤ fuel →
      ∃ t, Build.schemaWithin registry fuel (back child.describe) = .ok t ∧ R t child

/-- If what is inside comes back, the schema does. -/
theorem Builds.comes_back_of_inner {P : Schema → Prop} {R : Schema → Schema → Prop}
    (hbuilds : Builds registry P R)
    (hregular : s.Regular) (hs : P s) (hneat : s.Neat) {back : Manifest → Manifest}
    (hinner : InnerBack registry R back s) :
    ∃ m, Manifest.read? s.describe.toJson.sorted.toSource = some m ∧
      ∀ fuel, m.height ≤ fuel → ∃ t, Build.schemaWithin registry fuel m = .ok t ∧ R t s := by
  -- the sheet that is read: in another order, and with what is read of what is inside
  let said : Sheet Manifest :=
    { Describe.node (back ∘ describe) s.node with rules := (Describe.node describe s.node).rules }
  have hread : Manifest.read? s.describe.toJson.sorted.toSource = some ⟨said.resorted⟩ :=
    hneat.reads_back fun child hchild => (hinner child (mem_inner_of_described hchild)).1
  have hdistinct : ∀ rule ∈ said.rules, Members.Distinct rule.args := by
    intro rule hrule
    have hrule : rule ∈ (Describe.node describe s.node).rules := hrule
    rw [Build.node_rules] at hrule
    obtain ⟨r, -, rfl⟩ := List.mem_map.mp hrule
    exact Describe.distinct_args s.node.kind r
  refine ⟨⟨said.resorted⟩, hread, fun fuel hfuel => ?_⟩
  obtain ⟨k, rfl⟩ : ∃ k, fuel = k + 1 :=
    ⟨fuel - 1, by have := Manifest.height_pos ⟨said.resorted⟩; omega⟩
  have hkids : ∀ child ∈ s.node.empty.toList ++ s.node.form.schemas,
      ∃ t, Build.schemaWithin registry k ((back ∘ describe) child) = .ok t ∧ R t child := by
    intro child hchild
    have hlt : (back child.describe).height < Manifest.height ⟨said.resorted⟩ := by
      refine Manifest.height_lt ?_
      show _ ∈ (Describe.node (back ∘ describe) s.node).inner
      rw [Describe.inner_node]
      exact List.mem_map_of_mem (f := back ∘ describe) hchild
    exact (hinner child (mem_inner_of_described hchild)).2 k (by omega)
  have hargs : ∀ child ∈ s.node.rules.flatMap Rule.schemas,
      ∃ t, Build.ComesBack describe (Build.schemaWithin registry k) child t ∧ R t child := by
    intro child hchild
    obtain ⟨hback, hbuilt⟩ := hinner child (mem_inner_of_rules hchild)
    obtain ⟨rule, hrule, name, harg⟩ := Build.mem_described_args describe hregular hchild
    have hresorted :
        (name, Literal.tagged "schema" child.describe.toJson.sorted) ∈ rule.resorted.args :=
      Members.mem_of_get? ((get?_sortMembers (hdistinct rule hrule) name).trans
        ((hdistinct rule hrule).get?_of_mem harg))
    have hlt : (back child.describe).height < Manifest.height ⟨said.resorted⟩ :=
      height_of_argument (List.mem_map_of_mem hrule) hresorted hback
    obtain ⟨t, ht, hrelated⟩ := hbuilt k (by omega)
    exact ⟨t, ⟨_, hback, ht⟩, hrelated⟩
  obtain ⟨n, hmade, hrelated⟩ := hbuilds _ _ s hs hkids hargs
  have hflags : Members.Distinct said.flags := by
    rw [show said.flags = _ from Build.node_flags (back ∘ describe) s.node]
    exact Describe.distinct_flags _ _ _
  have hpreferences : said.resorted.preferences = s.node.prefs.map PreferencesPatch.settled :=
    congrArg (Option.map PreferencesPatch.settled) (Build.node_preferences (back ∘ describe) s.node)
  refine ⟨_, ?_, hrelated⟩
  show Build.schema registry (Build.schemaWithin registry k) said.resorted = _
  rw [Build.schema_resorted hflags hdistinct, hmade, hpreferences]
  rfl

/-- A description that is written as data and read again is built to a schema that stands in the
relation to the one described. -/
theorem Builds.comes_back {P : Schema → Prop} {R : Schema → Schema → Prop}
    (hbuilds : Builds registry P R)
    (hregular : ∀ t, P t → t.Regular) (hs : s.Everywhere P) (hneat : s.Everywhere Neat) :
    ∃ m, Manifest.read? s.describe.toJson.sorted.toSource = some m ∧
      ∀ fuel, m.height ≤ fuel → ∃ t, Build.schemaWithin registry fuel m = .ok t ∧ R t s := by
  induction s using inner_induction with
  | h s ih =>
    -- what is read does not depend on the schema, only on its description
    let back (d : Manifest) : Manifest := (Manifest.read? d.toJson.sorted.toSource).getD default
    have hinner : InnerBack registry R back s := by
      intro child hchild
      obtain ⟨d, hread, hbuilt⟩ := ih child hchild (hs.inner hchild) (hneat.inner hchild)
      obtain rfl : back child.describe = d := congrArg (Option.getD · default) hread
      exact ⟨hread, hbuilt⟩
    exact hbuilds.comes_back_of_inner (hregular s hs.self) hs.self hneat.self hinner

/-- A description that is written as data and read again is built to a schema that says the same. -/
theorem comes_back (htell : s.Everywhere (Tellable registry)) (hneat : s.Everywhere Neat) :
    ∃ m, Manifest.read? s.describe.toJson.sorted.toSource = some m ∧
      ∀ fuel, m.height ≤ fuel → ∃ t, Build.schemaWithin registry fuel m = .ok t ∧ t.Restates s := by
  have hbuilds : Builds registry (Tellable registry) Restates := by
    intro make kids s hs hkids hargs
    obtain ⟨f, g, hmade, hf, hg⟩ := Build.schema_restated hs kids hkids hargs
    refine ⟨_, hmade, Restates.remade (hs.known.settles hs.dates) hg ?_ fun child hchild =>
      (hf child hchild).2⟩
    rw [Option.map_map]
    exact Option.map_congr fun p _ => p.toJson_settled
  exact hbuilds.comes_back (fun _ ht => ht.regular) htell hneat

/-- What is read back of an argument is less high than the description of the schema. -/
theorem height_lt_of_read (hregular : s.Regular) {child : Schema}
    (hchild : child ∈ s.node.rules.flatMap Rule.schemas) {m : Manifest}
    (hread : Manifest.read? child.describe.toJson.sorted.toSource = some m) :
    m.height < s.describe.height := by
  obtain ⟨rule, hrule, name, harg⟩ := Build.mem_described_args describe hregular hchild
  exact height_of_argument (s.sheet_describe ▸ hrule) harg hread

/-- A schema among the arguments of rules comes back, and says the same. -/
theorem argument_comes_back (htell : s.Everywhere (Tellable registry)) {child : Schema}
    (hchild : child ∈ s.node.rules.flatMap Rule.schemas) (hneat : child.Everywhere Neat) {k : Nat}
    (hk : s.describe.height ≤ k + 1) :
    ∃ t, Build.ComesBack describe (Build.schemaWithin registry k) child t ∧ t.Restates child := by
  obtain ⟨m, hread, hbuilt⟩ := comes_back (htell.inner (mem_inner_of_rules hchild)) hneat
  have hlt := height_lt_of_read htell.self.regular hchild hread
  obtain ⟨t, ht, hrestates⟩ := hbuilt k (by omega)
  exact ⟨t, ⟨m, hread, ht⟩, hrestates⟩

/-- With schemas inside that are described alike, the remade node is described as the node was. -/
theorem describe_remade_same (hs : s.Tellable registry) {f g : Schema → Schema}
    (hf : ∀ child ∈ s.node.empty.toList ++ s.node.form.schemas,
      (f child).describe = child.describe)
    (hg : ∀ child ∈ s.node.rules.flatMap Rule.schemas, (g child).Restates child) :
    ({ node := s.settled.node.remade f g } : Schema).describe = s.describe := by
  have hagree : { (Describe.node (describe ∘ f) s.node).map id with
        rules := (Describe.node describe s.node).rules } =
      { (Describe.node describe s.node).map id with
          rules := (Describe.node describe s.node).rules } :=
    Describe.node_agree _ hf
  rw [Sheet.map_id, Sheet.map_id] at hagree
  refine (describe_remade (hs.known.settles hs.dates) hg s.node.prefs).trans ?_
  rw [describe_eq s]
  refine congrArg Manifest.mk ((congrArg (fun sheet : Sheet Manifest =>
    { sheet with preferences := s.node.prefs }) hagree).trans ?_)
  rw [← Build.node_preferences describe s.node]

/-- What describes a schema is built to one that is described alike. -/
theorem redescribed (htell : s.Everywhere (Tellable registry))
    (hneat : s.Everywhere fun t => ∀ child ∈ t.node.rules.flatMap Rule.schemas,
      child.Everywhere Neat) :
    ∃ t, s.describe.build registry = .ok t ∧ t.describe = s.describe := by
  have hall (fuel : Nat) (hfuel : s.describe.height ≤ fuel) : ∃ t,
      Build.schemaWithin registry fuel s.describe = .ok t ∧ t.describe = s.describe ∧
        ∀ levels, t.siblingRefs levels = s.siblingRefs levels := by
    induction s using inner_induction generalizing fuel with
    | h s ih =>
      obtain ⟨k, rfl⟩ : ∃ k, fuel = k + 1 := ⟨fuel - 1, by have := s.describe.height_pos; omega⟩
      have hkids : ∀ child ∈ s.node.empty.toList ++ s.node.form.schemas,
          ∃ t, Build.schemaWithin registry k child.describe = .ok t ∧ t.describe = child.describe ∧
            ∀ levels, t.siblingRefs levels = child.siblingRefs levels := by
        intro child hchild
        have hin := mem_inner_of_described hchild
        have hlt := height_describe_lt hchild
        exact ih child hin (htell.inner hin) (hneat.inner hin) k (by omega)
      have hargs := fun child hchild =>
        argument_comes_back htell hchild (hneat.self child hchild) hfuel
      obtain ⟨f, g, hmade, hf, hg⟩ :=
        Build.schema_restated htell.self describe (fun child hchild => by
        obtain ⟨t, ht, hdescribe, hsiblings⟩ := hkids child hchild
        exact ⟨t, ht, hsiblings, congrArg (fun d : Manifest => d.toJson.sorted) hdescribe⟩) hargs
      -- what is built of a description is one schema
      have hf : ∀ child ∈ s.node.empty.toList ++ s.node.form.schemas,
          (f child).describe = child.describe ∧
          ∀ levels, (f child).siblingRefs levels = child.siblingRefs levels := by
        intro child hchild
        obtain ⟨t, ht, hsame⟩ := hkids child hchild
        obtain rfl : t = f child := Except.ok.inj (ht.symm.trans (hf child hchild).1)
        exact hsame
      refine ⟨{ node := s.settled.node.remade f g }, ?_, ?_, ?_⟩
      · show Build.schema registry (Build.schemaWithin registry k) s.describe.sheet = _
        rw [sheet_describe]
        exact hmade
      · exact describe_remade_same htell.self (fun child hchild => (hf child hchild).1) hg
      · exact siblingRefs_settled_remade hg s.node.prefs fun child hchild =>
          (hf child (List.mem_append_right _ hchild)).2
  obtain ⟨t, ht, hdescribe, -⟩ := hall _ (Nat.le_refl _)
  exact ⟨t, ht, hdescribe⟩

end Schema

end Conform
