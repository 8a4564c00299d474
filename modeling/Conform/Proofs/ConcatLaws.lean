import Conform.Proofs.Similar

/-!
# The laws of merging schemas

Merging is associative where both ways come to a schema, up to the order in which sets keep their
members, and a schema without a type is its identity. A merged object is described child by child:
under each key stands the child of one side, or both merged (`ObjectForm.Merged`). So three objects
are merged alike from either side if their children are, and the induction is on the last of three
schemas: only children that all three have are merged twice.

Merging counts the levels that it may go down, and is shown not to depend on the count once it is
enough (`concatWithin_of_le`). It does two things to a pair of schemas. The node without its form is
merged part by part, and the parts are associative by themselves. The forms are merged if they are
of one type; a form of no type gives way to the other. So associativity has a case for each type,
after those in which one of the three sides has none, and each is a lemma of its own
(`Form.merge_assoc_any`, `Form.merge_assoc_settings`, `Form.merge_assoc_objects`).

The same is not literally the same, since the members of sets may come in another order. What is
shown is similarity, and for it to be of use under a further merge it has to be known that similar
children lead to one order of children. A schema without a type and settings is neutral on the right
at once, and on the left for what is regular, as everything is that calls make.

Main statement: `Schema.concat_monoid`.
-/

namespace Conform

/-! ### Merging as deep as it goes -/

section Congr

variable {merge merge' : Schema → Schema → Except SchemaError Schema}

theorem ObjectForm.mergedChildren_congr (f : ObjectForm Schema) {added : List (String × Schema)}
    (h : ∀ x, ∀ entry ∈ added, merge x entry.2 = merge' x entry.2) :
    f.mergedChildren merge added = f.mergedChildren merge' added := by
  unfold mergedChildren
  induction added with
  | nil => rfl
  | cons entry rest ih =>
    rw [List.mapM_cons, List.mapM_cons, ih fun x e he => h x e (List.mem_cons_of_mem _ he)]
    dsimp only
    split
    · rw [h _ entry (List.mem_cons_self ..)]
    · rfl

/-- Only the schemas inside the source are merged. -/
theorem Form.merge_congr {a b : Form Schema} (h : ∀ x, ∀ y ∈ b.schemas, merge x y = merge' x y) :
    a.merge merge b = a.merge merge' b := by
  cases b with
  | object g =>
    have hobject (f : ObjectForm Schema) : f.merge merge g = f.merge merge' g := by
      unfold ObjectForm.merge
      cases hkeys : g.keys with
      | none => rfl
      | some others =>
        have hsame : f.mergedChildren merge others = f.mergedChildren merge' others := by
          refine f.mergedChildren_congr fun x entry hentry => h x entry.2 ?_
          have hin : entry ∈ g.children := by
            unfold ObjectForm.children
            rw [hkeys]
            exact hentry
          exact List.mem_append_left _ (List.mem_map_of_mem hin)
        dsimp only
        rw [hsame]
    cases a with
    | object f => exact congrArg (Except.map Form.object) (hobject f)
    | _ => rfl
  | _ => cases a <;> rfl

end Congr

namespace Schema

theorem concatWithin_of_le {fuel : Nat} {s t : Schema} (h : t.height ≤ fuel) :
    concatWithin fuel s t = s.concat t := by
  induction t using inner_induction generalizing fuel s with
  | h t ih =>
    obtain ⟨n, hn⟩ : ∃ n, t.height = n + 1 := ⟨t.height - 1, by have := t.height_pos; omega⟩
    obtain ⟨m, rfl⟩ : ∃ m, fuel = m + 1 := ⟨fuel - 1, by omega⟩
    have hinner : ∀ x, ∀ y ∈ t.node.form.schemas, concatWithin m x y = concatWithin n x y := by
      intro x y hy
      have hin : y ∈ t.inner := List.mem_append_right _ hy
      have hlt := height_lt hin
      rw [ih y hin (by omega), ih y hin (by omega)]
    unfold concat
    rw [hn]
    obtain ⟨a, _⟩ := s
    obtain ⟨b, _⟩ := t
    exact congrArg (· >>= _) (Form.merge_congr hinner)

/-- Merging merges the form, its children in turn, and the rest of the node part by part. -/
theorem concat_ok {a b c : Schema} (h : a.concat b = .ok c) :
    ∃ form, a.node.form.merge concat b.node.form = .ok form ∧
      c = { node := mergedNode form a.node b.node } := by
  obtain ⟨n, hn⟩ : ∃ n, b.height = n + 1 := ⟨b.height - 1, by have := b.height_pos; omega⟩
  unfold concat at h
  rw [hn] at h
  obtain ⟨form, hform, rfl⟩ := concatWithin_ok h
  refine ⟨form, ?_, rfl⟩
  rw [← hform]
  refine Form.merge_congr fun x y hy => ?_
  have hlt := height_lt (s := b) (List.mem_append_right _ hy)
  exact (concatWithin_of_le (by omega)).symm

theorem concat_everywhere {a b c : Schema} (ha : a.Everywhere Regular) (hb : b.Everywhere Regular)
    (h : a.concat b = .ok c) : c.Everywhere Regular :=
  regular_kept.concat_everywhere ha hb h

/-! ### Merged objects -/

/-- What merging leaves of two children of one key, each of which may be missing. -/
def join (merge : Schema → Schema → Except SchemaError Schema) :
    Option Schema → Option Schema → Except SchemaError (Option Schema)
  | some x, some y => (merge x y).map some
  | x, y => .ok (y <|> x)

end Schema

/-- What merging two objects comes to. -/
structure ObjectForm.Merged (merge : Schema → Schema → Except SchemaError Schema)
    (a b form : ObjectForm Schema) : Prop where
  declared : form.keys.isSome = (a.keys.isSome || b.keys.isSome)
  keys : Members.keys form.children = Members.keys (Members.insertAll a.children b.children)
  child : ∀ key, Schema.join merge (Members.get? a.children key) (Members.get? b.children key) =
    .ok (Members.get? form.children key)
  renames : form.renames = a.renames ++ b.renames
  dependencies : form.dependencies = a.dependencies ++ b.dependencies
  patterns : form.patterns = a.patterns ++ b.patterns
  unknown : form.unknown = (b.unknown <|> a.unknown)

namespace ObjectForm

variable {merge : Schema → Schema → Except SchemaError Schema}

/-- The source's children, each merged into the target's child of its key. -/
theorem get?_mergedChildren {f : ObjectForm Schema} {added merged : List (String × Schema)}
    (h : f.mergedChildren merge added = .ok merged) :
    Members.keys merged = Members.keys added ∧ ∀ key,
      Schema.join merge (Members.get? f.children key) (Members.get? added key) =
        .ok (Members.get? merged key <|> Members.get? f.children key) := by
  have hall := Attempt.mapM_ok_iff.mp h
  clear h
  induction hall with
  | nil =>
    refine ⟨rfl, fun key => ?_⟩
    cases hget : Members.get? f.children key <;> rfl
  | @cons entry entry' rest rest' hstep _ ih =>
    obtain ⟨key, schema⟩ := entry
    obtain ⟨hkeys, hchildren⟩ := ih
    -- the first entry keeps its key, and is what joins the two children there
    have hfirst : entry'.1 = key ∧
        Schema.join merge (Members.get? f.children key) (some schema) = .ok (some entry'.2) := by
      dsimp only at hstep
      cases hget : Members.get? f.children key with
      | none =>
        rw [hget] at hstep
        obtain rfl := Except.ok.inj hstep
        exact ⟨rfl, rfl⟩
      | some existing =>
        rw [hget] at hstep
        obtain ⟨result, hresult, rfl⟩ := Attempt.map_ok hstep
        refine ⟨rfl, ?_⟩
        show (merge existing schema).map some = _
        rw [hresult]
        rfl
    obtain ⟨key', result⟩ := entry'
    obtain ⟨rfl, hjoin⟩ := hfirst
    refine ⟨congrArg (key' :: ·) hkeys, fun other => ?_⟩
    rw [Members.get?_cons, Members.get?_cons]
    by_cases hother : key' = other
    · subst hother
      rw [if_pos rfl, if_pos rfl]
      exact hjoin
    · rw [if_neg hother, if_neg hother]
      exact hchildren other

/-- Renames are added after those there are. -/
theorem renames_foldlM {renames : List Rename} {f g : ObjectForm Schema}
    (h : renames.foldlM addRename f = .ok g) : g = { f with renames := f.renames ++ renames } := by
  induction renames generalizing f with
  | nil =>
    obtain rfl := Except.ok.inj h
    rw [List.append_nil]
  | cons rename rest ih =>
    rw [List.foldlM_cons] at h
    obtain ⟨next, hnext, h⟩ := Attempt.bind_ok h
    obtain ⟨-, rfl⟩ := addRename_ok hnext
    rw [ih h, List.append_assoc, List.singleton_append]

theorem merged_of_ok {a b form : ObjectForm Schema} (ha : a.Regular) (hb : b.Regular)
    (h : a.merge merge b = .ok form) : Merged merge a b form := by
  obtain ⟨base, renamed, hbase, hrenamed, rfl⟩ := Schema.mergeObject_ok h
  obtain rfl := renames_foldlM hrenamed
  -- either the second side declares no children, or its children are joined to those of the first
  rcases hbase with ⟨hnone, rfl⟩ | ⟨others, merged, hothers, hmerged, hset⟩
  · have hchildren : b.children = [] := by
      unfold children
      rw [hnone]
      rfl
    refine ⟨?_, ?_, fun key => ?_, rfl, rfl, rfl, rfl⟩
    · rw [hnone]
      exact (Bool.or_false _).symm
    · rw [hchildren]
      rfl
    · rw [hchildren]
      show Schema.join merge (Members.get? base.children key) none =
        .ok (Members.get? base.children key)
      cases Members.get? base.children key <;> rfl
  · have hchildren : b.children = others := by
      unfold children
      rw [hothers]
      rfl
    obtain ⟨hkeys, hjoin⟩ := get?_mergedChildren hmerged
    have hdistinct : Members.Distinct merged := by
      unfold Members.Distinct
      rw [hkeys, ← hchildren]
      exact hb.distinct
    obtain ⟨order, -, rfl⟩ := ObjectForm.setChildren_eq_ok.mp hset
    refine ⟨?_, ?_, fun key => ?_, rfl, rfl, rfl, rfl⟩
    · rw [hothers]
      exact (Bool.or_true _).symm
    · rw [hchildren]
      exact Members.keys_insertAll_congr rfl hkeys
    · rw [hchildren, hjoin]
      exact congrArg Except.ok (Members.get?_insertAll hdistinct key).symm

end ObjectForm

namespace Schema

/-! ### Associativity -/

/-- Three children of one key, joined from the left or from the right, come to similar ones if all
three being there they do. -/
theorem join_assoc {x y z xy yz l r : Option Schema} (hxy : join concat x y = .ok xy)
    (hl : join concat xy z = .ok l) (hyz : join concat y z = .ok yz) (hr : join concat x yz = .ok r)
    (hall : ∀ x' y' z' xy' yz' l' r', x = some x' → y = some y' → z = some z' →
      x'.concat y' = .ok xy' →
      xy'.concat z' = .ok l' → y'.concat z' = .ok yz' → x'.concat yz' = .ok r' → Similar l' r') :
    ∀ u v, l = some u → r = some v → Similar u v := by
  have hsame (h : l = r) : ∀ u v, l = some u → r = some v → Similar u v := by
    intro u v hu hv
    subst h
    obtain rfl := Option.some.inj (hu.symm.trans hv)
    exact .refl u
  -- where a side is missing the join is the other one
  have hnone {o p : Option Schema} (h : join concat o none = .ok p) : p = o := by
    cases o <;> exact (Except.ok.inj h).symm
  have hnone' {o p : Option Schema} (h : join concat none o = .ok p) : p = o := by
    cases o <;> exact (Except.ok.inj h).symm
  cases x with
  | none =>
    obtain rfl := hnone' hxy
    obtain rfl := hnone' hr
    exact hsame (Except.ok.inj (hl.symm.trans hyz))
  | some x =>
    cases y with
    | none =>
      obtain rfl := hnone hxy
      obtain rfl := hnone' hyz
      exact hsame (Except.ok.inj (hl.symm.trans hr))
    | some y =>
      cases z with
      | none =>
        obtain rfl := hnone hl
        obtain rfl := hnone hyz
        exact hsame (Except.ok.inj (hxy.symm.trans hr))
      | some z =>
        -- all three are there, so that what was asked of them is used
        obtain ⟨xy', hxy', rfl⟩ := Attempt.map_ok hxy
        obtain ⟨yz', hyz', rfl⟩ := Attempt.map_ok hyz
        obtain ⟨l', hl', rfl⟩ := Attempt.map_ok hl
        obtain ⟨r', hr', rfl⟩ := Attempt.map_ok hr
        intro u v hu hv
        obtain rfl := Option.some.inj hu
        obtain rfl := Option.some.inj hv
        exact hall x y z xy' yz' l' r' rfl rfl rfl hxy' hl' hyz' hr'

/-- What two forms have to share for their schemas to be similar: they are the same, or
objects of similar children. -/
def SimilarForms (f g : Form Schema) : Prop :=
  f = g ∨ ∃ a b, f = .object a ∧ g = .object b ∧ (Form.object a).shell = (Form.object b).shell ∧
    ∀ key x y, Members.get? a.children key = some x →
      Members.get? b.children key = some y → Similar x y

namespace SimilarForms

variable {f g : Form Schema}

theorem shell (h : SimilarForms f g) : f.shell = g.shell := by
  rcases h with rfl | ⟨a, b, rfl, rfl, hshell, -⟩
  · rfl
  · exact hshell

theorem kind (h : SimilarForms f g) : f.kind = g.kind := by
  rcases h with rfl | ⟨a, b, rfl, rfl, -⟩ <;> rfl

theorem children {s t : Schema} (h : SimilarForms s.node.form t.node.form)
    (key : String) (x y : Schema)
    (hx : Members.get? s.children key = some x)
    (hy : Members.get? t.children key = some y) : Similar x y := by
  unfold Schema.children at hx hy
  rcases h with heq | ⟨a, b, ha, hb, -, hchildren⟩
  · rw [heq] at hx
    obtain rfl := Option.some.inj (hx.symm.trans hy)
    exact .refl x
  · rw [ha] at hx
    rw [hb] at hy
    exact hchildren key x y hx hy

end SimilarForms

end Schema

namespace ObjectForm

theorem shell_keys {f g : ObjectForm Schema} (hdeclared : f.keys.isSome = g.keys.isSome)
    (hkeys : Members.keys f.children = Members.keys g.children) :
    f.keys.map (mapChildren fun _ => Schema.any) =
      g.keys.map (mapChildren fun _ => Schema.any) := by
  have hplain (children : List (String × Schema)) : (mapChildren (fun _ => Schema.any) children) =
      (Members.keys children).map fun key => (key, Schema.any) := by
    unfold mapChildren Members.keys
    rw [List.map_map]
    rfl
  unfold children at hkeys
  cases hf : f.keys with
  | none =>
    rw [hf] at hdeclared
    rw [Option.isSome_eq_false_iff.mp hdeclared.symm |> Option.isNone_iff_eq_none.mp]
  | some children =>
    rw [hf] at hdeclared hkeys
    obtain ⟨others, hg⟩ := Option.isSome_iff_exists.mp hdeclared.symm
    rw [hg] at hkeys ⊢
    have hkeys : Members.keys children = Members.keys others := hkeys
    show some (mapChildren _ children) = some (mapChildren _ others)
    rw [hplain, hplain, hkeys]

/-- Objects merged from the left or from the right are similar, if children
that all three have are. -/
theorem merged_assoc {a b c ab bc l r : ObjectForm Schema} (hb : b.Regular)
    (hlr : l.Regular ∧ r.Regular)
    (hregular : ∀ s ∈ l.childSchemas ++ r.childSchemas, s.Everywhere Schema.Regular)
    (hab : Merged Schema.concat a b ab) (hl : Merged Schema.concat ab c l)
    (hbc : Merged Schema.concat b c bc) (hr : Merged Schema.concat a bc r)
    (hall : ∀ key x y z, Members.get? a.children key = some x →
      Members.get? b.children key = some y →
      Members.get? c.children key = some z → ∀ xy l yz r, x.concat y = .ok xy →
      xy.concat z = .ok l →
        y.concat z = .ok yz → x.concat yz = .ok r → Schema.Similar l r) :
    Schema.SimilarForms (.object l) (.object r) := by
  -- the keys of three lists joined in turn are the same either way
  have hkeys : Members.keys l.children = Members.keys r.children := by
    rw [hl.keys, hr.keys, Members.keys_insertAll_congr hab.keys rfl,
      Members.insertAll_assoc hb.distinct]
    exact Members.keys_insertAll_congr rfl hbc.keys.symm
  have hdeclared : l.keys.isSome = r.keys.isSome := by
    rw [hl.declared, hr.declared, hab.declared, hbc.declared, Bool.or_assoc]
  have hchildren (key : String) (u v : Schema) (hu : Members.get? l.children key = some u)
      (hv : Members.get? r.children key = some v) : Schema.Similar u v := by
    have hjoin := Schema.join_assoc (hab.child key) (hl.child key) (hbc.child key) (hr.child key)
      fun x y z xy yz l r hx hy hz hxy hl hyz hr => hall key x y z hx hy hz xy l yz r hxy hl hyz hr
    exact hjoin u v hu hv
  -- the order of children is computed anew from keys and peers, which are the same
  have horder := order_eq hlr.1 hlr.2 hregular hkeys hchildren
  refine .inr ⟨l, r, rfl, rfl, ?_, hchildren⟩
  have hshell := shell_keys hdeclared hkeys
  have hrenames : l.renames = r.renames := by
    rw [hl.renames, hr.renames, hab.renames, hbc.renames, List.append_assoc]
  have hdependencies : l.dependencies = r.dependencies := by
    rw [hl.dependencies, hr.dependencies, hab.dependencies, hbc.dependencies, List.append_assoc]
  have hpatterns : l.patterns = r.patterns := by
    rw [hl.patterns, hr.patterns, hab.patterns, hbc.patterns, List.append_assoc]
  have hunknown : l.unknown = r.unknown := by
    rw [hl.unknown, hr.unknown, hab.unknown, hbc.unknown]
    cases c.unknown <;> rfl
  show Form.object { l with keys := _ } = Form.object { r with keys := _ }
  rw [hshell, horder, hrenames, hdependencies, hpatterns, hunknown]

end ObjectForm

/-- The values that count as true or false, merged from the left or from the right. -/
theorem BooleanForm.merge_assoc {a b c : BooleanForm} (ha : a.truthy.Canonical ∧ a.falsy.Canonical)
    (hb : b.truthy.Canonical ∧ b.falsy.Canonical) (hc : c.truthy.Canonical ∧ c.falsy.Canonical) :
    (a.merge b).merge c = a.merge (b.merge c) := by
  unfold BooleanForm.merge
  dsimp only
  rw [ValueSet.concat_assoc ha.1 hb.1 hc.1, ValueSet.concat_assoc ha.2 hb.2 hc.2, Bool.or_assoc]

namespace Form

theorem merge_any_right (merge : Schema → Schema → Except SchemaError Schema) (a : Form Schema) :
    a.merge merge .any = .ok a := by
  cases a <;> rfl

theorem merge_any_left (merge : Schema → Schema → Except SchemaError Schema) (b : Form Schema) :
    Form.any.merge merge b = .ok b := by
  cases b <;> rfl

/-- Forms that are merged have one type, unless one of them has none. -/
theorem kind_eq_of_merge {merge : Schema → Schema → Except SchemaError Schema}
    {a b form : Form Schema}
    (ha : a ≠ .any) (hb : b ≠ .any) (h : a.merge merge b = .ok form) : a.kind = b.kind := by
  cases Schema.formsMerged_of_ok h with
  | target => exact absurd rfl hb
  | source => exact absurd rfl ha
  | _ => rfl

/-- Three forms of one type. -/
inductive SameType : Form Schema → Form Schema → Form Schema → Prop
  | alternatives (f g h) : SameType (.alternatives f) (.alternatives g) (.alternatives h)
  | array (f g h) : SameType (.array f) (.array g) (.array h)
  | binary (f g h) : SameType (.binary f) (.binary g) (.binary h)
  | boolean (f g h) : SameType (.boolean f) (.boolean g) (.boolean h)
  | date (f g h) : SameType (.date f) (.date g) (.date h)
  | lazy (f g h) : SameType (.lazy f) (.lazy g) (.lazy h)
  | number (f g h) : SameType (.number f) (.number g) (.number h)
  | string (f g h) : SameType (.string f) (.string g) (.string h)
  | object (f g h) : SameType (.object f) (.object g) (.object h)

theorem sameType_of_kind {a b c : Form Schema} (ha : a ≠ .any) (hab : a.kind = b.kind)
    (hbc : b.kind = c.kind) : SameType a b c := by
  cases a with
  | any => exact absurd rfl ha
  | _ =>
    cases b <;> first
      | contradiction
      | cases c <;> first
        | constructor
        | contradiction

section Assoc

variable {a b c ab bc l r : Form Schema} (hab : a.merge Schema.concat b = .ok ab)
  (hl : ab.merge Schema.concat c = .ok l) (hbc : b.merge Schema.concat c = .ok bc)
  (hr : a.merge Schema.concat bc = .ok r)

include hab hl hbc hr

/-- A side without a type leaves the other two as they are, wherever it stands. -/
theorem merge_assoc_any (hany : a = .any ∨ b = .any ∨ c = .any) : l = r := by
  rcases hany with rfl | rfl | rfl
  · rw [merge_any_left] at hab hr
    obtain rfl := Except.ok.inj hab
    exact Except.ok.inj (hl.symm.trans (hbc.trans hr))
  · rw [merge_any_right] at hab
    rw [merge_any_left] at hbc
    obtain rfl := Except.ok.inj hab
    obtain rfl := Except.ok.inj hbc
    exact Except.ok.inj (hl.symm.trans hr)
  · rw [merge_any_right] at hl hbc
    obtain rfl := Except.ok.inj hbc
    exact Except.ok.inj (hl.symm.trans (hab.symm.trans hr))

/-- Forms of one type without declared children are merged by their settings alone. -/
theorem merge_assoc_settings (hsame : SameType a b c) (hobject : ∀ f, a ≠ .object f)
    (ha : a.Regular) (hb : b.Regular) (hc : c.Regular) : l = r := by
  have hequal {x y : Form Schema}
      (hl : Except.ok x = (Except.ok l : Except SchemaError (Form Schema)))
      (hr : Except.ok y = (Except.ok r : Except SchemaError (Form Schema))) (hxy : x = y) : l = r :=
    (Except.ok.inj hl).symm.trans (hxy.trans (Except.ok.inj hr))
  cases hsame with
  | object f g h => exact absurd rfl (hobject f)
  | alternatives f g h =>
    obtain rfl := Except.ok.inj hab
    obtain rfl := Except.ok.inj hbc
    exact hequal hl hr (congrArg Form.alternatives (f.merge_assoc g h))
  | array f g h =>
    obtain rfl := Except.ok.inj hab
    obtain rfl := Except.ok.inj hbc
    exact hequal hl hr (congrArg Form.array (f.merge_assoc g h))
  | binary f g h =>
    obtain rfl := Except.ok.inj hab
    obtain rfl := Except.ok.inj hbc
    refine hequal hl hr (congrArg Form.binary ?_)
    cases h <;> rfl
  | boolean f g h =>
    obtain rfl := Except.ok.inj hab
    obtain rfl := Except.ok.inj hbc
    exact hequal hl hr (congrArg Form.boolean (BooleanForm.merge_assoc ha hb hc))
  | date f g h =>
    obtain rfl := Except.ok.inj hab
    obtain rfl := Except.ok.inj hbc
    refine hequal hl hr (congrArg Form.date ?_)
    cases h <;> rfl
  | lazy f g h =>
    obtain rfl := Except.ok.inj hab
    obtain rfl := Except.ok.inj hbc
    exact hequal hl hr rfl
  | number f g h =>
    obtain rfl := Except.ok.inj hab
    obtain rfl := Except.ok.inj hbc
    exact hequal hl hr (congrArg Form.number (Bool.or_assoc f g h))
  | string f g h =>
    obtain rfl := Except.ok.inj hab
    obtain rfl := Except.ok.inj hbc
    exact hequal hl hr (congrArg Form.string (f.merge_assoc g h))

/-- Objects merged from the left or from the right are similar, if children
that all three have are. -/
theorem merge_assoc_objects {f g h : ObjectForm Schema} (hf : a = .object f) (hg : b = .object g)
    (hh : c = .object h) (ha : a.Regular) (hb : b.Regular) (hc : c.Regular)
    (hregular : ∀ s ∈ l.schemas ++ r.schemas, s.Everywhere Schema.Regular)
    (hall : ∀ key x y z, Members.get? f.children key = some x →
      Members.get? g.children key = some y →
      Members.get? h.children key = some z → ∀ xy l yz r, x.concat y = .ok xy →
      xy.concat z = .ok l →
        y.concat z = .ok yz → x.concat yz = .ok r → Schema.Similar l r) :
    Schema.SimilarForms l r := by
  subst hf hg hh
  obtain ⟨fg, hfg, rfl⟩ := Attempt.map_ok hab
  obtain ⟨gh, hgh, rfl⟩ := Attempt.map_ok hbc
  obtain ⟨left, hleft, rfl⟩ := Attempt.map_ok hl
  obtain ⟨right, hright, rfl⟩ := Attempt.map_ok hr
  have hregularₗ := (ha.merge hb hab).1.merge hc hl
  have hregularᵣ := ha.merge (hb.merge hc hbc).1 hr
  refine ObjectForm.merged_assoc hb ⟨hregularₗ.1, hregularᵣ.1⟩ (fun s hs => hregular s ?_)
    (ObjectForm.merged_of_ok ha hb hfg) (ObjectForm.merged_of_ok (ha.merge hb hab).1 hc hleft)
    (ObjectForm.merged_of_ok hb hc hgh) (ObjectForm.merged_of_ok ha (hb.merge hc hbc).1 hright) hall
  rcases List.mem_append.mp hs with hs | hs
  · exact List.mem_append_left _ (List.mem_append_left _ hs)
  · exact List.mem_append_right _ (List.mem_append_left _ hs)

/-- Forms merged from the left or from the right are similar, if children
that all three have are. -/
theorem merge_assoc (ha : a.Regular) (hb : b.Regular) (hc : c.Regular)
    (hregular : ∀ s ∈ l.schemas ++ r.schemas, s.Everywhere Schema.Regular)
    (hall : ∀ f g h, a = .object f → b = .object g → c = .object h →
      ∀ key x y z, Members.get? f.children key = some x → Members.get? g.children key = some y →
      Members.get? h.children key = some z → ∀ xy l yz r, x.concat y = .ok xy →
      xy.concat z = .ok l →
        y.concat z = .ok yz → x.concat yz = .ok r → Schema.Similar l r) :
    Schema.SimilarForms l r := by
  by_cases hany : a = .any ∨ b = .any ∨ c = .any
  · exact .inl (merge_assoc_any hab hl hbc hr hany)
  · rw [not_or, not_or] at hany
    obtain ⟨hanya, hanyb, hanyc⟩ := hany
    have hsame : SameType a b c := sameType_of_kind hanya (kind_eq_of_merge hanya hanyb hab)
      (kind_eq_of_merge hanyb hanyc hbc)
    cases hsame with
    | object f g h =>
      exact merge_assoc_objects hab hl hbc hr rfl rfl rfl ha hb hc hregular (hall f g h rfl rfl rfl)
    | _ =>
      exact .inl (merge_assoc_settings hab hl hbc hr (by constructor) (fun _ => nofun) ha hb hc)

end Assoc

end Form

namespace Schema

/-- The rules of three sides, merged from the left or from the right. The type in between may be
missing; then the rules there are such as every type has. -/
theorem mergeRules_kinds {b c ab bc form : Form Schema} (rulesₐ : List (Rule Schema))
    {rulesᵦ rulesᵧ : List (Rule Schema)}
    (hab : ab.kind = .any ∨ ab.kind = form.kind) (hbc : bc.kind = .any ∨ bc.kind = form.kind)
    (hb : b.kind = .any ∨ b.kind = ab.kind) (hc : c.kind = .any ∨ c.kind = bc.kind)
    (hrulesᵦ : b.kind.Admits rulesᵦ) (hrulesᵧ : c.kind.Admits rulesᵧ) :
    mergeRules form.kind (mergeRules ab.kind rulesₐ rulesᵦ) rulesᵧ =
      mergeRules form.kind rulesₐ (mergeRules bc.kind rulesᵦ rulesᵧ) := by
  have hsame {inner middle : Form Schema} {rules : List (Rule Schema)}
      (hmiddle : middle.kind = .any ∨ middle.kind = form.kind)
      (hinner : inner.kind = .any ∨ inner.kind = middle.kind) (hrules : inner.kind.Admits rules) :
      ∀ rule ∈ rules, middle.kind.repeats rule.name = form.kind.repeats rule.name := by
    intro rule hrule
    rcases hmiddle with hany | hsame
    · have hfits : rule.Fits .any := by
        have hfits := hrules.fit rule hrule
        rcases hinner with h | h
        · exact h ▸ hfits
        · exact (h.trans hany) ▸ hfits
      rw [hany]
      exact hfits.repeats_of_any form.kind
    · rw [hsame]
  rw [mergeRules_congr (hsame hab hb hrulesᵦ),
    mergeRules_congr (hsame hbc hc hrulesᵧ), mergeRules_assoc]

/-- Three schemas, merged from the left or from the right, come to similar ones. -/
theorem concat_similar {a b c ab bc l r : Schema} (ha : a.Everywhere Regular)
    (hb : b.Everywhere Regular)
    (hc : c.Everywhere Regular) (hab : a.concat b = .ok ab) (hl : ab.concat c = .ok l)
    (hbc : b.concat c = .ok bc) (hr : a.concat bc = .ok r) : Similar l r := by
  induction c using inner_induction generalizing a b ab bc l r with
  | h c ih =>
    have hregularₗ := concat_everywhere (concat_everywhere ha hb hab) hc hl
    have hregularᵣ := concat_everywhere ha (concat_everywhere hb hc hbc) hr
    obtain ⟨formₐᵦ, hformₐᵦ, rfl⟩ := concat_ok hab
    obtain ⟨formᵦᵧ, hformᵦᵧ, rfl⟩ := concat_ok hbc
    obtain ⟨formₗ, hformₗ, rfl⟩ := concat_ok hl
    obtain ⟨formᵣ, hformᵣ, rfl⟩ := concat_ok hr
    -- the forms first: the children of all three are handled by the induction
    have hforms : SimilarForms formₗ formᵣ := by
      refine Form.merge_assoc hformₐᵦ hformₗ hformᵦᵧ hformᵣ ha.self.form
        hb.self.form hc.self.form ?_ ?_
      · intro s hs
        rcases List.mem_append.mp hs with hs | hs
        · exact hregularₗ.inner (List.mem_append_right _ hs)
        · exact hregularᵣ.inner (List.mem_append_right _ hs)
      · intro f g h hf hg hh key x y z hx hy hz xy l yz r hxy hl hyz hr
        have hin {s : Schema} {o : ObjectForm Schema} {child : Schema}
            (ho : s.node.form = .object o)
            (hchild : Members.get? o.children key = some child) : child ∈ s.inner := by
          refine List.mem_append_right _ ?_
          rw [ho]
          exact List.mem_append_left _
            (List.mem_map_of_mem (f := (·.2)) (Members.mem_of_get? hchild))
        exact ih z (hin hh hz) (ha.inner (hin hf hx)) (hb.inner (hin hg hy)) (hc.inner (hin hh hz))
          hxy hl hyz hr
    -- rules of another kind fall away in each merge, so the kinds have to be known
    have hkindsₐᵦ := (ha.self.form.merge hb.self.form hformₐᵦ).2
    have hkindsᵦᵧ := (hb.self.form.merge hc.self.form hformᵦᵧ).2
    have hkindsₗ := ((ha.self.form.merge hb.self.form hformₐᵦ).1.merge hc.self.form hformₗ).2
    have hkindsᵣ := (ha.self.form.merge (hb.self.form.merge hc.self.form hformᵦᵧ).1 hformᵣ).2
    have hkind : formᵣ.kind = formₗ.kind := hforms.kind.symm
    have hrules := mergeRules_kinds a.node.rules hkindsₗ.1 (hkind ▸ hkindsᵣ.2) hkindsₐᵦ.2 hkindsᵦᵧ.2
      hb.self.rules hc.self.rules
    refine .intro ?_ (ValueSet.merge_sameMembers ha.self.sets hb.self.sets hc.self.sets)
      (ValueSet.merge_sameMembers ha.self.sets.symm hb.self.sets.symm hc.self.sets.symm)
      (SimilarForms.children hforms)
    unfold mergedNode Node.shell
    dsimp only
    rw [hforms.shell, hkind, hrules, Flags.merge_assoc, Annotations.merge_assoc, mergePatches_assoc]
    simp only [Option.orElse_eq_orElse, Option.orElse_eq_or, Option.or_assoc]

/-! ### Identity -/

/-- A schema without a type and without settings adds nothing. -/
theorem concat_any (s : Schema) : s.concat any = .ok { node := s.node } := by
  have hheight : any.height = 1 := by
    rw [height.eq_def]
    rfl
  unfold concat
  rw [hheight]
  obtain ⟨⟨form, flags, empty, allowed, denied, rules, prefs, notes⟩, _⟩ := s
  show (form.merge (concatWithin 0) .any >>= _) = _
  rw [Form.merge_any_right]
  have hflags : flags.merge {} = flags := by
    unfold Flags.merge
    simp
  have hnotes : notes.merge {} = notes := by
    unfold Annotations.merge
    simp
  have hprefs : mergePatches prefs none = prefs := by cases prefs <;> rfl
  show Except.ok
    (Schema.mk (mergedNode form ⟨form, flags, empty, allowed, denied, rules, prefs, notes⟩
    { form := .any }) none) = _
  unfold mergedNode
  dsimp only
  rw [hflags, hnotes, hprefs]
  rfl

/-- What is regular comes out of being merged into such a schema as it is. -/
theorem any_concat {s : Schema} (hs : s.Regular) : any.concat s = .ok { node := s.node } := by
  obtain ⟨n, hn⟩ : ∃ n, s.height = n + 1 := ⟨s.height - 1, by have := s.height_pos; omega⟩
  unfold concat
  rw [hn]
  obtain ⟨⟨form, flags, empty, allowed, denied, rules, prefs, notes⟩, _⟩ := s
  -- nothing of the empty node is left in any field
  have hallowed : ValueSet.empty.merge allowed denied = allowed := ValueSet.merge_empty hs.sets
  have hdenied : ValueSet.empty.merge denied allowed = denied := ValueSet.merge_empty hs.sets.symm
  have hrules : mergeRules form.kind [] rules = rules := mergeRules_nil hs.rules
  have hflags : Flags.merge {} flags = flags := by
    unfold Flags.merge
    simp
  have hnotes : Annotations.merge {} notes = notes := by
    unfold Annotations.merge
    simp
  have hempty : (empty <|> (none : Option Schema)) = empty := by cases empty <;> rfl
  have hprefs : mergePatches none prefs = prefs := by cases prefs <;> rfl
  show (Form.any.merge (concatWithin n) form >>= _) = _
  rw [Form.merge_any_left]
  show Except.ok (Schema.mk (mergedNode form { form := .any }
    ⟨form, flags, empty, allowed, denied, rules, prefs, notes⟩) none) = _
  unfold mergedNode
  dsimp only
  rw [hflags, hnotes, hempty]
  show Except.ok (Schema.mk ⟨form, flags, empty, ValueSet.empty.merge allowed denied,
    ValueSet.empty.merge denied allowed, mergeRules form.kind [] rules,
    mergePatches none prefs, notes⟩ none) = _
  rw [hallowed, hdenied, hrules, hprefs]

/-! ### The laws -/

def allowsBoth : Schema := any.allow [.literal (.string "x"), .literal (.string "y")]

def deniesFirst : Schema := any.deny [.literal (.string "x")]

def allowsFirst : Schema := any.allow [.literal (.string "x")]

/-- Merging is a partial monoid: of three schemas that calls make, merged from the left or from the
right, similar ones come if any do, and a schema without a type and settings changes none. -/
theorem concat_monoid :
    (∀ a b c ab bc l r : Schema, Made Built a → Made Built b → Made Built c →
      a.concat b = .ok ab → ab.concat c = .ok l → b.concat c = .ok bc → a.concat bc = .ok r →
      Similar l r) ∧
    ∀ s : Schema, Made Built s →
      s.concat any = .ok { node := s.node } ∧ any.concat s = .ok { node := s.node } := by
  constructor
  · intro a b c ab bc l r ha hb hc hab hl hbc hr
    exact concat_similar ha.regular hb.regular hc.regular hab hl hbc hr
  · exact fun s hs => ⟨s.concat_any, any_concat hs.regular.self⟩

/-- What is denied in between is allowed again by the last of three: from the left it comes last,
from the right it keeps its place. -/
theorem concat_monoid_reordered :
    ∃ ab bc l r, allowsBoth.concat deniesFirst = .ok ab ∧ ab.concat allowsFirst = .ok l ∧
      deniesFirst.concat allowsFirst = .ok bc ∧ allowsBoth.concat bc = .ok r ∧
      Members.keys l.node.allowed.members = ["s:y", "s:x"] ∧
      Members.keys r.node.allowed.members = ["s:x", "s:y"] ∧ Similar l r ∧
      allowsBoth.concat any = .ok { node := allowsBoth.node } := by
  have hfirst : Made Built allowsBoth :=
    Made.any.extended (.allow [.literal (.string "x"), .literal (.string "y")]) rfl rfl rfl
  have hsecond : Made Built deniesFirst :=
    Made.any.extended (.deny [.literal (.string "x")]) rfl rfl rfl
  have hthird : Made Built allowsFirst :=
    Made.any.extended (.allow [.literal (.string "x")]) rfl rfl rfl
  -- no side has children, so merging goes one node deep
  have hdepth {s t : Schema} (hs : s.node.form = .any) (ht : t.node.form = .any)
      (hinner : t.inner = []) : s.concat t = .ok { node := mergedNode .any s.node t.node } := by
    have hheight : t.height ≤ 1 := by
      rw [height.eq_def, List.attach_eq_nil_iff.mpr hinner]
      exact Nat.le_refl _
    obtain ⟨a, _⟩ := s
    obtain ⟨b, _⟩ := t
    rw [← concatWithin_of_le hheight]
    show (a.form.merge (concatWithin 0) b.form >>= _) = _
    rw [show a.form = .any from hs, show b.form = .any from ht]
    rfl
  have hab := hdepth (s := allowsBoth) (t := deniesFirst) rfl rfl rfl
  have hl :=
    hdepth (s := { node := mergedNode .any allowsBoth.node deniesFirst.node }) (t := allowsFirst)
    rfl rfl rfl
  have hbc := hdepth (s := deniesFirst) (t := allowsFirst) rfl rfl rfl
  have hr :=
    hdepth (s := allowsBoth) (t := { node := mergedNode .any deniesFirst.node allowsFirst.node })
    rfl rfl rfl
  have hsimilar := concat_monoid.1 _ _ _ _ _ _ _ hfirst hsecond hthird hab hl hbc hr
  exact ⟨_, _, _, _, hab, hl, hbc, hr, rfl, rfl, hsimilar, (concat_monoid.2 _ hfirst).1⟩

end Schema

end Conform
