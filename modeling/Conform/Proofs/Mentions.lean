import Conform.Manifest.Describe
import Conform.Proofs.Regular

/-!
# What a node mentions

A node mentions values, in its sets, rules, defaults, tables of references and remarks, and
functions by name (`Node.mentions`). Whatever is written about a node in a description comes down to
these, apart from its settings and the schemas inside: a change of the values that keeps what is
written of each of them (`Settling`) keeps the description of the node (`Node.describe_mapValues`),
and what calls establish of it as well (`Schema.Regular.mapValues`).

The mentions of each part are listed beside the change of that part, so that there are three
families of lemmas, each going through the parts of a node in the same order: what a changed part
mentions (`mentions_mapValues`), how it is written (`Describe.*_mapValues`), and that it still is
such as calls make it (`*.mapValues`). What is asked of the change is asked of mentions alone
(`Mention.Settles`), so a part is settled as soon as the node is, by `Settles.left`,
`Settles.right` and `Settles.part`.

The one use of all this is a value that is read back from a document not as it was but as one that
is written alike, such as an instant of which only the milliseconds are written. The schema that
comes back then mentions other values, and passes for the first one in every description.
-/

namespace Conform

variable {σ τ : Type}

/-- What a node mentions besides schemas: a value, or a function by its name. -/
inductive Mention
  | value (v : Value)
  /-- Adjusts what a reference found. -/
  | adjuster (name : String)
  /-- Makes a default. -/
  | initial (name : String)
  /-- Is a rule of its own. -/
  | custom (name : String)
  /-- Makes a schema. -/
  | generator (name : String)

def Mention.map (f : Value → Value) : Mention → Mention
  | .value v => .value (f v)
  | m => m

/-! ### Where the mentions stand -/

def Reference.mentions (r : Reference) : List Mention :=
  r.table.flatMap (fun entry => [.value entry.1, .value entry.2]) ++ r.adjuster.toList.map .adjuster

def SetItem.mentions : SetItem → List Mention
  | .literal v => [.value v]
  | .reference r => r.mentions

def ValueSet.mentions (s : ValueSet) : List Mention := s.items.flatMap SetItem.mentions

def Default.mentions : Default → List Mention
  | .value v => [.value v]
  | .reference r => r.mentions
  | .function name => [.initial name]
  | .deep => []

def Argument.mentions : Argument σ → List Mention
  | .literal v => [.value v]
  | .reference r => r.mentions
  | .function name => [.custom name]
  | _ => []

def Rule.mentions (rule : Rule σ) : List Mention := rule.args.flatMap Argument.mentions

def Form.mentions : Form σ → List Mention
  | .alternatives f => f.references.flatMap Reference.mentions
  | .boolean f => f.truthy.mentions ++ f.falsy.mentions
  | .lazy f => [.generator f.generator]
  | _ => []

def Flags.mentions (flags : Flags) : List Mention :=
  (flags.default.toList ++ flags.failover.toList).flatMap Default.mentions

def Annotations.mentions (notes : Annotations) : List Mention :=
  (notes.examples ++ notes.metas).map .value

/-- The mentions of a node itself, those of the schemas inside apart. -/
def Node.mentions (n : Node σ) : List Mention :=
  n.allowed.mentions ++ n.denied.mentions ++ n.flags.mentions ++ n.rules.flatMap Rule.mentions ++
    n.form.mentions ++ n.notes.mentions

section Members

variable {P : Mention → Prop}

/-- What holds of all mentions of a node, part by part. -/
theorem Node.forall_mentions {n : Node σ} : (∀ m ∈ n.mentions, P m) ↔
    (∀ m ∈ n.allowed.mentions, P m) ∧ (∀ m ∈ n.denied.mentions, P m) ∧
    (∀ m ∈ n.flags.mentions, P m) ∧
      (∀ m ∈ n.rules.flatMap Rule.mentions, P m) ∧ (∀ m ∈ n.form.mentions, P m) ∧
      ∀ m ∈ n.notes.mentions, P m := by
  unfold mentions
  simp only [List.forall_mem_append, and_assoc]

/-- What holds of all mentions of a set, member by member. -/
theorem ValueSet.forall_mentions {s : ValueSet} :
    (∀ m ∈ s.mentions, P m) ↔ ∀ item ∈ s.items, ∀ m ∈ item.mentions, P m := by
  unfold mentions
  simp only [List.mem_flatMap]
  exact ⟨fun h item hitem m hm => h m ⟨item, hitem, hm⟩,
    fun h m ⟨item, hitem, hm⟩ => h item hitem m hm⟩

/-- A set mentions what its members do, also when a member is added or taken out. -/
theorem ValueSet.mentions_add {s : ValueSet} (hs : ∀ m ∈ s.mentions, P m) {item : SetItem}
    (hitem : ∀ m ∈ item.mentions, P m) : ∀ m ∈ (s.add item).mentions, P m := by
  rw [forall_mentions] at hs ⊢
  intro other hother
  obtain ⟨entry, hentry, rfl⟩ := List.mem_map.mp hother
  rcases Members.mem_of_mem_insert hentry with hold | rfl
  · exact hs entry.2 (List.mem_map_of_mem hold)
  · exact hitem

/-- Removing a member adds no mentions. -/
theorem ValueSet.mentions_remove {s : ValueSet} (hs : ∀ m ∈ s.mentions, P m) (item : SetItem) :
    ∀ m ∈ (s.remove item).mentions, P m := by
  unfold remove
  split
  next removed hget =>
    rw [forall_mentions] at hs ⊢
    intro other hother
    obtain ⟨entry, hentry, rfl⟩ := List.mem_map.mp hother
    exact hs entry.2 (List.mem_map_of_mem (List.mem_filter.mp hentry).1)
  next => exact hs

/-- What holds of the mentions of a node and of some members holds once they
are allowed or denied. -/
theorem Node.mentions_foldl {f : Node σ → SetItem → Node σ} (hf : f = allow ∨ f = deny)
    {items : List SetItem}
    (hitems : ∀ item ∈ items, ∀ m ∈ item.mentions, P m) {n : Node σ} (hn : ∀ m ∈ n.mentions, P m) :
    ∀ m ∈ (items.foldl f n).mentions, P m := by
  induction items generalizing n with
  | nil => exact hn
  | cons item rest ih =>
    obtain ⟨hallowed, hdenied, hrest⟩ := forall_mentions.mp hn
    have hitem := hitems item (List.mem_cons_self ..)
    refine ih (fun other hother => hitems other (List.mem_cons_of_mem _ hother))
      (forall_mentions.mpr ?_)
    rcases hf with rfl | rfl
    · exact ⟨ValueSet.mentions_add hallowed hitem, ValueSet.mentions_remove hdenied item, hrest⟩
    · exact ⟨ValueSet.mentions_remove hallowed item, ValueSet.mentions_add hdenied hitem, hrest⟩

end Members

/-! ### Other values in their place -/

section Change

variable (f : Value → Value)

def Reference.mapValues (r : Reference) : Reference :=
  { r with table := r.table.map fun entry => (f entry.1, f entry.2) }

def SetItem.mapValues : SetItem → SetItem
  | .literal v => .literal (f v)
  | .reference r => .reference (r.mapValues f)

/-- The set with other values under the keys of the old ones. -/
def ValueSet.mapValues (s : ValueSet) : ValueSet :=
  { s with members := s.members.map fun entry => (entry.1, entry.2.mapValues f) }

def Default.mapValues : Default → Default
  | .value v => .value (f v)
  | .reference r => .reference (r.mapValues f)
  | d => d

def Argument.mapValues : Argument σ → Argument σ
  | .literal v => .literal (f v)
  | .reference r => .reference (r.mapValues f)
  | arg => arg

def Rule.mapValues (rule : Rule σ) : Rule σ :=
    { rule with args := rule.args.map (Argument.mapValues f) }

def Condition.mapValues : Condition σ → Condition σ
  | .reference r => .reference (r.mapValues f)
  | condition => condition

def Match.mapValues : Match σ → Match σ
  | .attempt s => .attempt s
  | .conditional condition cases otherwise => .conditional (condition.mapValues f) cases otherwise

def Form.mapValues : Form σ → Form σ
  | .alternatives form =>
  .alternatives { form with entries := form.entries.map (Match.mapValues f) }
  | .boolean form =>
    .boolean { form with truthy := form.truthy.mapValues f, falsy := form.falsy.mapValues f }
  | form => form

def Flags.mapValues (flags : Flags) : Flags :=
  { flags with
    default := flags.default.map (Default.mapValues f)
    failover := flags.failover.map (Default.mapValues f) }

def Annotations.mapValues (notes : Annotations) : Annotations :=
  { notes with examples := notes.examples.map f, metas := notes.metas.map f }

/-- The node with other values, the schemas inside as they are. -/
def Node.mapValues (n : Node σ) : Node σ :=
  { n with
    form := n.form.mapValues f
    flags := n.flags.mapValues f
    allowed := n.allowed.mapValues f
    denied := n.denied.mapValues f
    rules := n.rules.map (Rule.mapValues f)
    notes := n.notes.mapValues f }

/-- A reference mentions the values of its table and the name of its adjuster. -/
theorem Reference.mentions_mapValues (r : Reference) :
    (r.mapValues f).mentions = r.mentions.map (Mention.map f) := by
  unfold mentions mapValues
  rw [List.map_append, List.flatMap_map, List.map_flatMap, List.map_map]
  rfl

theorem SetItem.mentions_mapValues (item : SetItem) :
    (item.mapValues f).mentions = item.mentions.map (Mention.map f) := by
  cases item with
  | literal v => rfl
  | reference r => exact r.mentions_mapValues f

/-- The members of a set are changed one by one. -/
theorem ValueSet.items_mapValues (s : ValueSet) :
    (s.mapValues f).items = s.items.map (SetItem.mapValues f) := by
  unfold items mapValues Members.values
  rw [List.map_map, List.map_map]
  rfl

/-- What a changed set mentions is what the set mentions, changed. -/
theorem ValueSet.mentions_mapValues (s : ValueSet) :
    (s.mapValues f).mentions = s.mentions.map (Mention.map f) := by
  unfold mentions
  rw [items_mapValues, List.flatMap_map, List.map_flatMap]
  exact List.flatMap_congr fun item _ => item.mentions_mapValues f

/-- What a changed default mentions is what it mentions, changed. -/
theorem Default.mentions_mapValues (d : Default) :
    (d.mapValues f).mentions = d.mentions.map (Mention.map f) := by
  cases d with
  | reference r => exact r.mentions_mapValues f
  | _ => rfl

theorem Argument.mentions_mapValues (arg : Argument σ) :
    (arg.mapValues f).mentions = arg.mentions.map (Mention.map f) := by
  cases arg with
  | reference r => exact r.mentions_mapValues f
  | _ => rfl

/-- What a changed rule mentions is what it mentions, changed. -/
theorem Rule.mentions_mapValues (rule : Rule σ) :
    (rule.mapValues f).mentions = rule.mentions.map (Mention.map f) := by
  unfold mentions mapValues
  rw [List.flatMap_map, List.map_flatMap]
  exact List.flatMap_congr fun arg _ => arg.mentions_mapValues f

/-- The references of changed entries are those of the entries, changed. -/
theorem AlternativesForm.references_mapValues (form : AlternativesForm σ) :
    (form.entries.map (Match.mapValues f)).filterMap Match.reference? =
      form.references.map (Reference.mapValues f) := by
  unfold references
  rw [List.filterMap_map, List.map_filterMap]
  congr 1
  funext m
  cases m with
  | attempt s => rfl
  | conditional condition cases otherwise => cases condition <;> rfl

/-- What a changed form mentions is what it mentions, changed; the schemas inside are left alone. -/
theorem Form.mentions_mapValues (form : Form σ) :
    (form.mapValues f).mentions = form.mentions.map (Mention.map f) := by
  cases form with
  | alternatives form =>
    show ((form.entries.map (Match.mapValues f)).filterMap Match.reference?).flatMap
      Reference.mentions = _
    rw [form.references_mapValues, List.flatMap_map]
    show _ = (form.references.flatMap Reference.mentions).map (Mention.map f)
    rw [List.map_flatMap]
    exact List.flatMap_congr fun r _ => r.mentions_mapValues f
  | boolean form =>
    show (form.truthy.mapValues f).mentions ++ (form.falsy.mapValues f).mentions = _
    rw [ValueSet.mentions_mapValues, ValueSet.mentions_mapValues, ← List.map_append]
    rfl
  | _ => rfl

/-- The defaults of changed flags are the changed defaults. -/
theorem Flags.defaults_mapValues (flags : Flags) :
    (flags.mapValues f).default.toList ++ (flags.mapValues f).failover.toList =
      (flags.default.toList ++ flags.failover.toList).map (Default.mapValues f) := by
  rw [List.map_append, ← Option.toList_map, ← Option.toList_map]
  rfl

theorem Flags.mentions_mapValues (flags : Flags) :
    (flags.mapValues f).mentions = flags.mentions.map (Mention.map f) := by
  unfold mentions
  rw [defaults_mapValues, List.flatMap_map, List.map_flatMap]
  exact List.flatMap_congr fun d _ => d.mentions_mapValues f

theorem Annotations.mentions_mapValues (notes : Annotations) :
    (notes.mapValues f).mentions = notes.mentions.map (Mention.map f) := by
  unfold mentions mapValues
  rw [← List.map_append, List.map_map, List.map_map]
  rfl

/-- The mentions of the changed node are the changed ones. -/
theorem Node.mentions_mapValues (n : Node σ) :
    (n.mapValues f).mentions = n.mentions.map (Mention.map f) := by
  have hrules : (n.rules.map (Rule.mapValues f)).flatMap Rule.mentions =
      (n.rules.flatMap Rule.mentions).map (Mention.map f) := by
    rw [List.flatMap_map, List.map_flatMap]
    exact List.flatMap_congr fun rule _ => rule.mentions_mapValues f
  unfold mentions
  rw [List.map_append, List.map_append, List.map_append, List.map_append, List.map_append,
    ← ValueSet.mentions_mapValues, ← ValueSet.mentions_mapValues, ← Flags.mentions_mapValues,
    ← Form.mentions_mapValues, ← Annotations.mentions_mapValues, ← hrules]
  rfl

end Change

/-! ### Values that pass for others -/

/-- The one value is written like the other, has its key in sets, and does for an argument
where the other does. -/
structure Value.PassesFor (w v : Value) : Prop where
  encode : Literal.encode w = Literal.encode v
  key : w.setKey = v.setKey
  defined : w.isDefined = v.isDefined
  rejection : ∀ kind : ArgumentKind, kind.rejection? w = kind.rejection? v

/-- Every value mentioned is changed into one that passes for it. -/
def Mention.Settles (f : Value → Value) (mentions : List Mention) : Prop :=
  ∀ v, Mention.value v ∈ mentions → (f v).PassesFor v

section Settles

variable {f : Value → Value}

open Mention

/-- What settles two lists of mentions settles the first of them. -/
theorem Mention.Settles.left {a b : List Mention} (h : Settles f (a ++ b)) : Settles f a :=
  fun v hv => h v (List.mem_append_left _ hv)

/-- What settles two lists of mentions settles the second of them. -/
theorem Mention.Settles.right {a b : List Mention} (h : Settles f (a ++ b)) : Settles f b :=
  fun v hv => h v (List.mem_append_right _ hv)

/-- What settles the mentions of all parts settles those of each part. -/
theorem Mention.Settles.part {α : Type} {parts : List α} {mentions : α → List Mention}
    (h : Settles f (parts.flatMap mentions)) {part : α} (hpart : part ∈ parts) :
    Settles f (mentions part) :=
  fun v hv => h v (List.mem_flatMap.mpr ⟨part, hpart, hv⟩)

/-! ### The description stays -/

/-- A reference is written the same if the values of its table are. -/
theorem Reference.describe_mapValues {r : Reference} (h : Settles f r.mentions) :
    (r.mapValues f).describe = r.describe := by
  have htable : (r.mapValues f).describe.table = r.describe.table := by
    show (r.table.map fun entry => (f entry.1, f entry.2)).map _ = r.table.map _
    rw [List.map_map]
    refine List.map_congr_left fun entry hentry => ?_
    have hboth := h.left.part hentry
    exact Prod.ext (hboth entry.1 (List.mem_cons_self ..)).encode
      (hboth entry.2 (List.mem_cons_of_mem _ (List.mem_cons_self ..))).encode
  show ({ r.describe with table := (r.mapValues f).describe.table } : Manifest.ReferenceEntry) = _
  rw [htable]

namespace Describe

theorem reference_mapValues {r : Reference} (h : Settles f r.mentions) :
    reference (r.mapValues f) = reference r := by
  unfold reference
  rw [Reference.describe_mapValues h]

/-- A member of a set is written the same if what it mentions is. -/
theorem item_mapValues {i : SetItem} (h : Settles f i.mentions) :
    item (i.mapValues f) = item i := by
  cases i with
  | literal v => exact (h v (List.mem_cons_self ..)).encode
  | reference r => exact reference_mapValues h

/-- A set is written the same if what it mentions is: keys of values that pass for each other are
equal, so the order stays as well. -/
theorem set_mapValues {s : ValueSet} (h : Settles f s.mentions) : set (s.mapValues f) = set s := by
  unfold set
  rw [ValueSet.items_mapValues, List.map_map]
  exact List.map_congr_left fun i hi => item_mapValues (h.part hi)

/-- A default is written the same if what it mentions is. -/
theorem default_mapValues {d : Default} (h : Settles f d.mentions) :
    default (d.mapValues f) = default d := by
  cases d with
  | value v => exact (h v (List.mem_cons_self ..)).encode
  | reference r => exact reference_mapValues h
  | _ => rfl

theorem option_mapValues {o : Option Default} (h : ∀ d ∈ o.toList, Settles f d.mentions) :
    (o.map (Default.mapValues f)).map default = o.map default := by
  cases o with
  | none => rfl
  | some d => exact congrArg some (default_mapValues (h d (List.mem_singleton_self _)))

/-- A literal argument is written, unless it is missing. -/
theorem argument?_literal (inner : σ → Manifest) (v : Value) :
    argument? inner (.literal v) = if v.isDefined then some (Literal.encode v) else none := by
  cases v <;> rfl

/-- An argument is written the same if what it mentions is. -/
theorem argument?_mapValues (inner : σ → Manifest) {arg : Argument σ} (h : Settles f arg.mentions) :
    argument? inner (arg.mapValues f) = argument? inner arg := by
  cases arg with
  | literal v =>
    obtain ⟨hencode, -, hdefined, -⟩ := h v (List.mem_cons_self ..)
    show argument? inner (.literal (f v)) = _
    rw [argument?_literal, argument?_literal, hencode, hdefined]
  | reference r => exact congrArg some (reference_mapValues h)
  | _ => rfl

/-- A rule is written the same if what it mentions is. -/
theorem rule_mapValues (inner : σ → Manifest) (kind : Kind) {rule : Rule σ}
    (h : Settles f rule.mentions) :
    Describe.rule inner kind (rule.mapValues f) = Describe.rule inner kind rule := by
  have hzip : (parameters kind rule.name).zip (rule.mapValues f).args =
      ((parameters kind rule.name).zip rule.args).map (Prod.map id (Argument.mapValues f)) := by
    show (parameters kind rule.name).zip (rule.args.map (Argument.mapValues f)) = _
    rw [List.zip_map_right]
  have hargs : ((parameters kind rule.name).zip (rule.mapValues f).args).filterMap (fun pair =>
      (argument? inner pair.2).map fun json => (pair.1.name, json)) =
      ((parameters kind rule.name).zip rule.args).filterMap fun pair =>
        (argument? inner pair.2).map fun json => (pair.1.name, json) := by
    rw [hzip, List.filterMap_map]
    refine List.filterMap_congr fun pair hpair => ?_
    show (argument? inner (pair.2.mapValues f)).map _ = _
    rw [argument?_mapValues inner (h.part (List.of_mem_zip hpair).2)]
    rfl
  unfold Describe.rule
  exact congrArg (Manifest.RuleEntry.mk rule.name) hargs

/-- An entry is written the same if the values in its reference are. -/
theorem entry_mapValues (inner : σ → Manifest) {m : Match σ}
    (h : ∀ r ∈ m.reference?, Settles f r.mentions) :
    entry inner (m.mapValues f) = entry inner m := by
  cases m with
  | attempt s => rfl
  | conditional condition cases otherwise =>
    cases condition with
    | schema s => rfl
    | reference r =>
      have hr := Reference.describe_mapValues (h r rfl)
      show ({ entry inner (.conditional (.reference r) cases otherwise) with
        reference := some (r.mapValues f).describe } : Manifest.MatchEntry Manifest) = _
      rw [hr]
      rfl

/-- A form is written the same if what it mentions is. -/
theorem form_mapValues (inner : σ → Manifest) {given : Form σ} (h : Settles f given.mentions)
    (sheet : Manifest.Sheet Manifest) :
    form inner (given.mapValues f) sheet = form inner given sheet := by
  cases given with
  | alternatives g =>
    have hentries : (g.entries.map (Match.mapValues f)).map (entry inner) =
        g.entries.map (entry inner) := by
      rw [List.map_map]
      refine List.map_congr_left fun m hm => entry_mapValues inner fun r hr => ?_
      exact Settles.part h (List.mem_filterMap.mpr ⟨m, hm, hr⟩)
    show ({ sheet with
      entries := (g.entries.map (Match.mapValues f)).map (entry inner)
      base := g.base.map inner } : Manifest.Sheet Manifest) = _
    rw [hentries]
    rfl
  | boolean g =>
    show ({ sheet with
      truthy := set (g.truthy.mapValues f), falsy := set (g.falsy.mapValues f) } :
        Manifest.Sheet Manifest) = _
    rw [set_mapValues (Settles.left h), set_mapValues (Settles.right h)]
    rfl
  | _ => rfl

/-- The settings of all types are written the same. -/
theorem commonFlags_mapValues {flags : Flags} (h : Settles f flags.mentions) (notes : Annotations) :
    commonFlags (flags.mapValues f) (notes.mapValues f) = commonFlags flags notes := by
  have hinitial : (flags.default.map (Default.mapValues f)).map default =
      flags.default.map default :=
    option_mapValues fun d hd => Settles.part h (List.mem_append_left _ hd)
  have hfailover : (flags.failover.map (Default.mapValues f)).map default =
      flags.failover.map default :=
    option_mapValues fun d hd => Settles.part h (List.mem_append_right _ hd)
  have hmember (name : String) (o : Option Default) :
      Json.optionalMember name o default = Json.optionalMember name (o.map default) id := by
    cases o <;> rfl
  unfold commonFlags
  rw [hmember, hmember, hmember, hmember]
  show _ ++ Json.optionalMember "default"
    ((flags.default.map (Default.mapValues f)).map default) id ++
    Json.optionalMember "failover" ((flags.failover.map (Default.mapValues f)).map default) id ++
    _ ++ _ ++ _ ++ _ ++ _ ++ _ = _
  rw [hinitial, hfailover]
  rfl

/-- The settings of a form mention nothing. -/
theorem formFlags_mapValues (given : Form σ) : formFlags (given.mapValues f) = formFlags given := by
  cases given <;> rfl

/-- The node with other values is described like the node. -/
theorem node_mapValues (inner : σ → Manifest) {n : Node σ} (h : Settles f n.mentions) :
    node inner (n.mapValues f) = node inner n := by
  have hnotes : Settles f n.notes.mentions := h.right
  have hform : Settles f n.form.mentions := h.left.right
  have hrules : Settles f (n.rules.flatMap Rule.mentions) := h.left.left.right
  have hflags : Settles f n.flags.mentions := h.left.left.left.right
  have hdenied : Settles f n.denied.mentions := h.left.left.left.left.right
  have hallowed : Settles f n.allowed.mentions := h.left.left.left.left.left
  -- the kind is not a value
  have hkind : (n.form.mapValues f).kind = n.form.kind := by
    cases n.form <;> rfl
  have hdescribed : (n.rules.map (Rule.mapValues f)).map (Describe.rule inner n.form.kind) =
      n.rules.map (Describe.rule inner n.form.kind) := by
    rw [List.map_map]
    exact List.map_congr_left fun rule hrule => rule_mapValues inner _ (hrules.part hrule)
  have hremarks (values : List Value) (hin : ∀ v ∈ values, Mention.value v ∈ n.notes.mentions) :
      (values.map f).map Literal.encode = values.map Literal.encode := by
    rw [List.map_map]
    exact List.map_congr_left fun v hv => (hnotes v (hin v hv)).encode
  have hexamples := hremarks n.notes.examples fun v hv =>
    List.mem_map_of_mem (List.mem_append_left _ hv)
  have hmetas := hremarks n.notes.metas fun v hv => List.mem_map_of_mem (List.mem_append_right _ hv)
  unfold node
  show form inner (n.form.mapValues f) {
      kind := (n.form.mapValues f).kind.name
      flags := commonFlags (n.flags.mapValues f) (n.notes.mapValues f) ++
        formFlags (n.form.mapValues f)
      empty := n.empty.map inner
      preferences := n.prefs
      allow := set (n.allowed.mapValues f)
      invalid := set (n.denied.mapValues f)
      rules := (n.rules.map (Rule.mapValues f)).map
        (Describe.rule inner (n.form.mapValues f).kind)
      notes := n.notes.notes
      tags := n.notes.tags
      examples := (n.notes.examples.map f).map Literal.encode
      metas := (n.notes.metas.map f).map Literal.encode } = _
  rw [form_mapValues inner hform, hkind, commonFlags_mapValues hflags, formFlags_mapValues,
    set_mapValues hallowed, set_mapValues hdenied, hdescribed, hexamples, hmetas]
  rfl

end Describe

/-! ### What calls establish stays -/

/-- A reference that can be restored still can. -/
theorem Reference.restorable_mapValues {r : Reference} (h : r.Restorable) :
    (r.mapValues f).Restorable := by
  unfold Restorable at h ⊢
  have hsame : ({ r with table := (r.mapValues f).table } : Reference) = r.mapValues f := rfl
  show ({ ({ (ofKey r.key r.separator).atLevel r.setLevel? with
      inValues := r.inValues, table := r.table, adjuster := r.adjuster } : Reference) with
    table := (r.mapValues f).table } : Reference) = _
  rw [h, hsame]

/-- A member keeps its key. -/
theorem SetItem.key_mapValues {i : SetItem} (h : Settles f i.mentions) :
    (i.mapValues f).key = i.key := by
  cases i with
  | literal v => exact (h v (List.mem_cons_self ..)).key
  | reference r => rfl

/-- A member that is a reference stays one. -/
theorem SetItem.reference?_mapValues (i : SetItem) :
    (i.mapValues f).reference? = i.reference?.map (Reference.mapValues f) := by
  cases i <;> rfl

/-- A set whose members stand under their own keys stays such a set. -/
theorem ValueSet.Canonical.mapValues {s : ValueSet} (hs : s.Canonical) (h : Settles f s.mentions) :
    (s.mapValues f).Canonical where
  distinct := by
    unfold Members.Distinct ValueSet.mapValues Members.keys
    rw [List.map_map]
    exact hs.distinct
  keyed := by
    intro entry hentry
    obtain ⟨old, hold, rfl⟩ := List.mem_map.mp hentry
    have hitem : old.2 ∈ s.items := List.mem_map_of_mem hold
    rw [SetItem.key_mapValues (h.part hitem)]
    exact hs.keyed old hold
  counted := by
    unfold ValueSet.mapValues countReferences
    dsimp only
    rw [hs.counted, countReferences, List.countP_map]
    -- a value that is remade is no reference, and a reference stays one
    refine List.countP_congr fun entry _ => ?_
    cases hentry : entry.2 <;> simp [SetItem.mapValues, SetItem.isReference, hentry]
  restorable := by
    rw [ValueSet.items_mapValues]
    intro item hitem r hr
    obtain ⟨old, hold, rfl⟩ := List.mem_map.mp hitem
    rw [SetItem.reference?_mapValues, Option.mem_def, Option.map_eq_some_iff] at hr
    obtain ⟨before, hbefore, rfl⟩ := hr
    exact Reference.restorable_mapValues (hs.restorable old hold before hbefore)

/-- Sets without a common key stay so. -/
theorem ValueSet.Apart.mapValues {a b : ValueSet} (hab : a.Apart b) (ha : Settles f a.mentions)
    (hb : Settles f b.mentions) : (a.mapValues f).Apart (b.mapValues f) where
  left := hab.left.mapValues ha
  right := hab.right.mapValues hb
  keys := by
    have hsame (s : ValueSet) : Members.keys (s.mapValues f).members = Members.keys s.members := by
      unfold ValueSet.mapValues Members.keys
      rw [List.map_map]
      rfl
    rw [hsame, hsame]
    exact hab.keys

theorem Default.reference?_mapValues (d : Default) :
    (d.mapValues f).reference? = d.reference?.map (Reference.mapValues f) := by
  cases d <;> rfl

/-- Defaults that can be restored still can. -/
theorem Flags.Regular.mapValues {flags : Flags} (h : flags.Regular) :
    (flags.mapValues f).Regular := by
  intro d hd r hr
  rw [Flags.defaults_mapValues] at hd
  obtain ⟨old, hold, rfl⟩ := List.mem_map.mp hd
  rw [Default.reference?_mapValues, Option.mem_def, Option.map_eq_some_iff] at hr
  obtain ⟨before, hbefore, rfl⟩ := hr
  exact Reference.restorable_mapValues (h old hold before hbefore)

/-- An argument of the kind that a parameter takes stays of that kind. -/
theorem ArgumentKind.Takes.mapValues {kind : ArgumentKind} {arg : Argument σ}
    (htakes : kind.Takes arg) (h : Settles f arg.mentions) : kind.Takes (arg.mapValues f) := by
  cases arg with
  | literal v =>
    have hdefined := (h v (List.mem_cons_self ..)).defined
    obtain ⟨hmissing, hbool⟩ := htakes
    refine ⟨fun hin => ?_, fun hkind => hdefined.trans (hbool hkind)⟩
    rw [hmissing hin] at hdefined ⊢
    cases hf : f .undefined with
    | undefined => rfl
    | _ =>
      rw [hf] at hdefined
      exact nomatch hdefined
  | reference r => exact Reference.restorable_mapValues htakes
  | _ => exact htakes

/-- The table of rules accepts the changed arguments just if it accepts the arguments. -/
theorem checkArguments_mapValues (name : String) (parameters : List Parameter)
    {args : List (Argument σ)} (h : Settles f (args.flatMap Argument.mentions)) :
    checkArguments name parameters (args.map (Argument.mapValues f)) =
      checkArguments name parameters args := by
  induction parameters generalizing args with
  | nil => rfl
  | cons p rest ih =>
    cases args with
    | nil => rfl
    | cons arg args =>
      have hsame : p.rejection? (arg.mapValues f) = p.rejection? arg := by
        cases arg with
        | literal v =>
          obtain ⟨-, -, hdefined, hrejection⟩ := h v (List.mem_cons_self ..)
          show (if p.optional ∧ !(f v).isDefined then none else p.kind.rejection? (f v)) = _
          rw [hdefined, hrejection]
          rfl
        | _ => rfl
      rw [List.map_cons, checkArguments, checkArguments, hsame,
        ih fun v hv => h v (List.mem_append_right _ hv)]

/-- A rule that fits its type still fits it. -/
theorem Rule.Fits.mapValues {kind : Kind} {rule : Rule σ} (hfits : rule.Fits kind)
    (h : Settles f rule.mentions) : (rule.mapValues f).Fits kind := by
  obtain ⟨spec, hspec, hcheck, htakes⟩ := hfits
  refine ⟨spec, hspec, ?_, ?_⟩
  · have hargs : (rule.mapValues f).args = rule.args.map (Argument.mapValues f) := rfl
    unfold RuleSpec.check at hcheck ⊢
    rw [hargs, List.length_map, checkArguments_mapValues _ _ h]
    exact hcheck
  · show List.Forall₂ ArgumentKind.Takes spec.kinds (rule.args.map (Argument.mapValues f))
    rw [List.forall₂_map_right_iff, List.forall₂_iff_zip]
    obtain ⟨hlength, htakes⟩ := List.forall₂_iff_zip.mp htakes
    exact ⟨hlength, fun hpair => (htakes hpair).mapValues (h.part (List.of_mem_zip hpair).2)⟩

/-- Rules that a type admits are still admitted. -/
theorem Kind.Admits.mapValues {kind : Kind} {rules : List (Rule σ)} (hadmits : kind.Admits rules)
    (h : Settles f (rules.flatMap Rule.mentions)) : kind.Admits (rules.map (Rule.mapValues f)) where
  fit := by
    intro rule hrule
    obtain ⟨old, hold, rfl⟩ := List.mem_map.mp hrule
    exact (hadmits.fit old hold).mapValues (h.part hold)
  single := List.pairwise_map.mpr hadmits.single

/-- A form such as calls make stays one. -/
theorem Form.Regular.mapValues {form : Form Schema} (hform : form.Regular)
    (h : Settles f form.mentions) : (form.mapValues f).Regular := by
  cases form with
  | alternatives g =>
    intro r hr
    have hr : r ∈ (g.entries.map (Match.mapValues f)).filterMap Match.reference? := hr
    rw [AlternativesForm.references_mapValues] at hr
    obtain ⟨old, hold, rfl⟩ := List.mem_map.mp hr
    exact Reference.restorable_mapValues (hform old hold)
  | boolean g => exact ⟨hform.1.mapValues (Settles.left h), hform.2.mapValues (Settles.right h)⟩
  | _ => exact hform

/-- A node with values that pass for the old ones is as regular. -/
theorem Schema.Regular.mapValues {s : Schema} (hs : s.Regular) (h : Settles f s.node.mentions) :
    Schema.Regular { node := s.node.mapValues f } where
  sets := hs.sets.mapValues h.left.left.left.left.left h.left.left.left.left.right
  flags := hs.flags.mapValues
  rules := by
    have hkind : (s.node.form.mapValues f).kind = s.node.form.kind := by
      cases s.node.form <;> rfl
    show (s.node.form.mapValues f).kind.Admits (s.node.rules.map (Rule.mapValues f))
    rw [hkind]
    exact hs.rules.mapValues h.left.left.right
  form := hs.form.mapValues h.left.right

end Settles

end Conform
