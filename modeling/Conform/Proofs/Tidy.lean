import Conform.Proofs.Reread
import Conform.Proofs.Settled

/-!
# Descriptions of schemas are tidy

Describing writes no flag and no argument twice, and all data it writes is sorted at every depth.
What describes a node is therefore read back as it was written (`Schema.Askable.tidy`). Inside an
argument of a rule, flags and arguments come back sorted, and nothing else does where children are
declared in ascending order and preferences are neat (`Schema.Neat.resorted`). Building does not
mind that order (`Build.schema_resorted`).

A sheet is tidy if it could have been read from what it is written as: its tables have distinct
keys, its data is sorted, and its preferences can be asked for. Of a description made from a node
all of this can be seen from the node. Flags are written by a fixed list of names, of which a node
writes each at most once; arguments are named by the parameters of the rule, which have distinct
names. Values and references are written as data in which the members stand sorted, as tags have one
member and the entries of a reference stand in ascending order.

What is asked of the node is little: no key of a child stands twice, and its patch can be asked for
(`Schema.Askable`). Within an argument a little more is asked, that keys ascend and that the patch
came from data (`Schema.Neat`), and then only the order of flags and arguments can differ.
-/

namespace Conform

open Json Manifest

namespace Build

variable {registry : Registry} {make : Manifest → Attempt Schema} {sheet : Sheet Manifest}

/-- The order of flags and arguments does not bear on what is built, and neither do the preferences,
but for those of the schema. -/
theorem schema_resorted (hflags : Members.Distinct sheet.flags)
    (hargs : ∀ rule ∈ sheet.rules, Members.Distinct rule.args) :
    schema registry make sheet.resorted = (schema registry make sheet).map fun s =>
      { s with node := { s.node with prefs := sheet.resorted.preferences } } := by
  have hget (name : String) : Members.get? (sortMembers sheet.flags) name =
      Members.get? sheet.flags name :=
    get?_sortMembers hflags name
  have hrules (n : Node Schema) :
      (sheet.rules.map RuleEntry.resorted).foldlM (addRule registry make) n =
      sheet.rules.foldlM (addRule registry make) n := by
    rw [List.foldlM_map]
    exact Attempt.foldlM_congr (fun rule hrule n =>
      addRule_congr (show rule.resorted.name = rule.name from rfl)
        (get?_sortMembers (hargs rule hrule)) n) n
  -- building goes step by step, and each step reads the flags by name
  unfold schema Sheet.resorted
  dsimp only
  cases Kind.ofName? sheet.kind with
  | none => rfl
  | some kind =>
    dsimp only
    rw [form_congr hget, Attempt.map_bind]
    refine bind_congr fun form => ?_
    rw [setFlags_congr hget, Attempt.map_bind]
    refine bind_congr fun n => ?_
    rw [Attempt.map_bind]
    refine bind_congr fun allowed => ?_
    rw [Attempt.map_bind]
    refine bind_congr fun denied => ?_
    rw [hrules, Attempt.map_bind]
    refine bind_congr fun m => ?_
    rw [Attempt.map_bind]
    refine bind_congr fun examples => ?_
    rw [Attempt.map_bind]
    exact bind_congr fun metas => rfl

end Build

/-! ### What a description holds -/

theorem Json.sorted_tagged (tag : String) (json : Json) :
    (Literal.tagged tag json).sorted = Literal.tagged tag json.sorted := rfl

theorem forall_optionalMember {α : Type} {P : Json → Prop} {name : String}
    {o : Option α} {toJson : α → Json}
    (h : ∀ a ∈ o, P (toJson a)) : ∀ member ∈ optionalMember name o toJson, P member.2 := by
  cases o with
  | none => exact List.forall_mem_nil _
  | some a => exact List.forall_mem_singleton.mpr (h a rfl)

theorem forall_switchMember {P : Json → Prop} (h : P (.bool true)) (name : String) (on : Bool) :
    ∀ member ∈ switchMember name on, P member.2 := by
  cases on with
  | false => exact List.forall_mem_nil _
  | true => exact List.forall_mem_singleton.mpr h

namespace Describe

theorem sorted_reference (r : Reference) : (reference r).sorted = reference r := by
  unfold reference
  rw [sorted_tagged, sorted_sorted]

theorem sorted_item (i : SetItem) : (item i).sorted = item i := by
  cases i with
  | literal v => exact Literal.sorted_encode v
  | reference r => exact sorted_reference r

theorem sorted_set (given : ValueSet) : ∀ json ∈ set given, json.sorted = json := by
  intro json hjson
  obtain ⟨i, -, rfl⟩ := List.mem_map.mp hjson
  exact sorted_item i

theorem sorted_default (d : Default) : (default d).sorted = default d := by
  cases d with
  | value v => exact Literal.sorted_encode v
  | reference r => exact sorted_reference r
  | _ => rfl

theorem sorted_argument {σ : Type} {inner : σ → Manifest} {arg : Argument σ} {json : Json}
    (h : argument? inner arg = some json) : json.sorted = json := by
  cases arg with
  | literal v =>
    rw [argument?_literal] at h
    split at h
    next =>
      obtain rfl := Option.some.inj h
      exact Literal.sorted_encode v
    next => exact nomatch h
  | reference r =>
    obtain rfl := Option.some.inj h
    exact sorted_reference r
  | schema s =>
    obtain rfl := Option.some.inj h
    rw [sorted_tagged, sorted_sorted]
  | _ =>
    obtain rfl := Option.some.inj h
    rfl

theorem sorted_commonFlags (flags : Flags) (notes : Annotations) :
    ∀ flag ∈ commonFlags flags notes, flag.2.sorted = flag.2 := by
  have htext (name : String) (text : Option String) : ∀ flag ∈ textMember name text,
      flag.2.sorted = flag.2 :=
    forall_optionalMember (P := fun json => json.sorted = json) fun _ _ => rfl
  have hswitch := forall_switchMember (P := fun json => json.sorted = json) rfl
  have hdefault (name : String) (o : Option Default) :
      ∀ flag ∈ optionalMember name o default, flag.2.sorted = flag.2 :=
    forall_optionalMember (P := fun json => json.sorted = json) fun d _ => sorted_default d
  have hpresence : ∀ flag ∈ optionalMember "presence" flags.presence
      (fun presence => .string presence.name), flag.2.sorted = flag.2 :=
    forall_optionalMember (P := fun json => json.sorted = json) fun _ _ => rfl
  unfold commonFlags
  simp only [List.forall_mem_append]
  exact ⟨⟨⟨⟨⟨⟨⟨⟨⟨⟨hpresence, hswitch _ _⟩, hswitch _ _⟩, hdefault _ _⟩, hdefault _ _⟩, htext _ _⟩,
    hswitch _ _⟩, hswitch _ _⟩, htext _ _⟩, htext _ _⟩, htext _ _⟩

theorem sorted_formFlags {σ : Type} (f : Form σ) :
    ∀ flag ∈ formFlags f, flag.2.sorted = flag.2 := by
  have hswitch := forall_switchMember (P := fun json => json.sorted = json) rfl
  cases f with
  | any | alternatives => exact List.forall_mem_nil _
  | array f => exact List.forall_mem_append.mpr ⟨hswitch _ _, hswitch _ _⟩
  | binary | date | object =>
    exact forall_optionalMember (P := fun json => json.sorted = json) fun _ _ => rfl
  | boolean | number | string => exact hswitch _ _
  | lazy f => exact List.forall_mem_singleton.mpr rfl

variable {inner : Schema → Manifest}

/-- No flag is written twice. -/
theorem distinct_flags (flags : Flags) (notes : Annotations) (form : Form Schema) :
    Members.Distinct (commonFlags flags notes ++ formFlags form) := by
  have hnames : Build.commonNames.Nodup := by decide
  have hform : (Members.keys (formFlags form)).Nodup := by
    cases form with
    | any | alternatives => exact List.nodup_nil
    | array f =>
      have hboth : (Members.keys (formFlags (.array f))).Sublist ["sparse", "single"] := by
        rw [formFlags, Members.keys_append]
        exact (keys_switchMember "sparse" _).append (keys_switchMember "single" _)
      exact hboth.nodup (by decide)
    | binary | date | object => exact (keys_optionalMember ..).nodup (List.nodup_singleton _)
    | boolean | number | string => exact (keys_switchMember ..).nodup (List.nodup_singleton _)
    | lazy f => exact List.nodup_singleton _
  unfold Members.Distinct
  rw [Members.keys_append, List.nodup_append]
  refine ⟨(Build.keys_commonFlags flags notes).nodup hnames, hform,
    fun name hname other hother heq => ?_⟩
  exact Build.keys_formFlags form other hother
    (heq ▸ (Build.keys_commonFlags flags notes).subset hname)

theorem keys_args (parameters : List Parameter) (args : List (Argument Schema)) :
    (Members.keys ((parameters.zip args).filterMap fun (p, arg) =>
      (argument? inner arg).map fun json => (p.name, json))).Sublist (parameters.map (·.name)) := by
  induction parameters generalizing args with
  | nil => exact List.Sublist.refl _
  | cons p rest ih =>
    cases args with
    | nil => exact List.nil_sublist _
    | cons arg args =>
      rw [List.zip_cons_cons, List.filterMap_cons]
      dsimp only
      cases argument? inner arg with
      | none => exact (ih args).cons _
      | some json => exact (ih args).cons_cons _

/-- No argument is written twice. -/
theorem distinct_args (kind : Kind) (r : Rule Schema) :
    Members.Distinct (rule inner kind r).args := by
  have hnames : ((parameters kind r.name).map (·.name)).Nodup := by
    unfold parameters
    cases hspec : kind.rule? r.name with
    | none => exact List.nodup_nil
    | some spec => exact (Build.spec_parameters hspec).1
  exact (keys_args (parameters kind r.name) r.args).nodup hnames

theorem sorted_args (kind : Kind) (r : Rule Schema) :
    ∀ arg ∈ (rule inner kind r).args, arg.2.sorted = arg.2 := by
  intro arg harg
  obtain ⟨pair, -, hpair⟩ := List.mem_filterMap.mp harg
  obtain ⟨json, hjson, rfl⟩ := Option.map_eq_some_iff.mp hpair
  exact sorted_argument hjson

end Describe

namespace Schema

/-- What there is to a node whose description is read back: no key of a child stands twice, and its
preferences can be asked for. -/
structure Askable (s : Schema) : Prop where
  keys : ∀ f, s.node.form = .object f → Members.Distinct f.children
  preferences : ∀ p ∈ s.node.prefs, p.Askable

/-- What there is to a node inside an argument of a rule: the keys of its children ascend, and its
preferences are neat. -/
structure Neat (s : Schema) : Prop where
  keys : ∀ f, s.node.form = .object f → (Members.keys f.children).Pairwise (· < ·)
  preferences : ∀ p ∈ s.node.prefs, p.Neat

theorem Neat.askable {s : Schema} (hs : s.Neat) : s.Askable :=
  ⟨fun f hf => (hs.keys f hf).imp fun hlt => ne_of_lt hlt,
    fun p hp => (hs.preferences p hp).askable⟩

/-- The children that a description names are those of the node. -/
theorem keys_of_described {s : Schema} {inner : Schema → Manifest}
    {children : List (String × Manifest)} (h : children ∈ (Describe.node inner s.node).keys) :
    ∃ f, s.node.form = .object f ∧ Members.keys children = Members.keys f.children := by
  unfold Describe.node at h
  cases hform : s.node.form with
  | object f =>
    rw [hform] at h
    obtain ⟨given, hgiven, rfl⟩ :=
      Option.map_eq_some_iff.mp (show f.keys.map (mapChildren inner) = some children from h)
    refine ⟨f, rfl, ?_⟩
    unfold ObjectForm.children
    rw [keys_mapChildren, hgiven]
    rfl
  | _ =>
    rw [hform] at h
    exact nomatch h

/-- The sheet of such a node is tidy. -/
theorem Askable.tidy {s : Schema} (hs : s.Askable) (inner : Schema → Manifest) :
    (Describe.node inner s.node).Tidy := by
  have hencoded {values : List Value} : ∀ json ∈ values.map Literal.encode, json.sorted = json := by
    intro json hjson
    obtain ⟨v, -, rfl⟩ := List.mem_map.mp hjson
    exact Literal.sorted_encode v
  have hsets := Build.node_sets inner s.node
  obtain ⟨-, -, hexamples, hmetas⟩ := Build.node_remarks inner s.node
  -- children are those of a form whose keys are distinct
  have hchildren : ∀ children ∈ (Describe.node inner s.node).keys, Members.Distinct children := by
    intro children hin
    obtain ⟨f, hform, hkeys⟩ := keys_of_described hin
    unfold Members.Distinct
    rw [hkeys]
    exact hs.keys f hform
  -- a table of a reference is described in order
  have hreferences : ∀ m ∈ (Describe.node inner s.node).entries,
      ∀ ref ∈ m.reference, ∀ row ∈ ref.table, row.1.sorted = row.1 ∧ row.2.sorted = row.2 := by
    intro m hm ref href
    unfold Describe.node at hm
    cases hform : s.node.form with
    | alternatives f =>
      rw [hform] at hm
      obtain ⟨given, -, rfl⟩ :=
        List.mem_map.mp (show m ∈ f.entries.map (Describe.entry inner) from hm)
      cases given with
      | attempt t => exact nomatch href
      | conditional condition cases otherwise =>
        cases condition with
        | schema t => exact nomatch href
        | reference r =>
          obtain rfl := Option.some.inj href
          exact r.sorted_table
    | _ =>
      rw [hform] at hm
      exact absurd hm List.not_mem_nil
  have htruthy : (∀ json ∈ (Describe.node inner s.node).truthy, json.sorted = json) ∧
      ∀ json ∈ (Describe.node inner s.node).falsy, json.sorted = json := by
    unfold Describe.node
    cases s.node.form with
    | boolean f => exact ⟨Describe.sorted_set f.truthy, Describe.sorted_set f.falsy⟩
    | _ => exact ⟨List.forall_mem_nil _, List.forall_mem_nil _⟩
  have hargs : ∀ rule ∈ (Describe.node inner s.node).rules, IsTable rule.args := by
    rw [Build.node_rules]
    intro rule hrule
    obtain ⟨r, -, rfl⟩ := List.mem_map.mp hrule
    exact ⟨Describe.distinct_args _ r, Describe.sorted_args _ r⟩
  refine ⟨?_, ?_, hsets.1 ▸ Describe.sorted_set _, hsets.2 ▸ Describe.sorted_set _, hargs,
    hchildren, hreferences, htruthy.1, htruthy.2, hexamples ▸ hencoded, hmetas ▸ hencoded⟩
  · rw [Build.node_flags]
    exact ⟨Describe.distinct_flags _ _ _,
      List.forall_mem_append.mpr ⟨Describe.sorted_commonFlags _ _, Describe.sorted_formFlags _⟩⟩
  · rw [Build.node_preferences]
    exact hs.preferences

/-- Of a neat node, only flags and arguments come back in another order. -/
theorem Neat.resorted {s : Schema} (hs : s.Neat) (inner : Schema → Manifest) :
    (Describe.node inner s.node).arranged .ascending = (Describe.node inner s.node).resorted := by
  refine (hs.askable.tidy inner).resorted (fun children hchildren => ?_) ?_
  · obtain ⟨f, hform, hkeys⟩ := keys_of_described hchildren
    rw [hkeys]
    exact hs.keys f hform
  · rw [Build.node_preferences]
    exact hs.preferences

end Schema

end Conform
