import Conform.Proofs.ChildOrder
import Conform.Proofs.Made

/-!
# The order of children in schemas that are made

Every object schema that comes of calls has its children in order: only declaring children touches
them, be it by a call or as part of a merge, and each time their order is made anew.

The order in which the children of an object are checked is kept beside them, and checks go by it.
Two things could spoil it: a change to the children that leaves the order as it was, and a change to
the order. There is no call that does the one or the other. Calls that do not declare children keep
both (`KeepsOrder`), whatever else they change, and so do rules, flags, sets and marks. Declaring
children, and merging, which declares the children of both sides once more, sort the children anew,
and are refused if they cannot be sorted (`hasOrder_merged`).

Main statement: `Schema.ordered_kept`.
-/

namespace Conform.Schema

/-- If the schema is an object, its children are in order. -/
def HasOrder (s : Schema) : Prop := ∀ f, s.node.form = .object f → f.Ordered

theorem hasOrder_of_form {s t : Schema} (h : HasOrder s) (hform : t.node.form = s.node.form) :
    HasOrder t :=
  fun f hf => h f (hform ▸ hf)

/-- A change that keeps the children of objects, and makes no object of anything else. -/
def KeepsOrder (f : Form Schema → Form Schema) : Prop :=
  ∀ form g, f form = .object g → ∃ o, form = .object o ∧ g.keys = o.keys ∧ g.order = o.order

theorem hasOrder_updateForm {s : Schema} {f : Form Schema → Form Schema} (hs : HasOrder s)
    (hf : KeepsOrder f) : HasOrder (s.updateForm f) := by
  intro g hg
  obtain ⟨o, ho, hkeys, horder⟩ := hf s.node.form g hg
  exact (hs o ho).of_same hkeys horder

theorem hasOrder_updateObject? {s t : Schema}
    {f : ObjectForm Schema → Except SchemaError (ObjectForm Schema)} (hs : HasOrder s)
    (hf : ∀ o g, o.Ordered → f o = .ok g → g.Ordered) (h : s.updateObject? f = .ok t) :
    HasOrder t := by
  rcases updateObject?_ok h with rfl | ⟨o, g, ho, hstep, rfl⟩
  · exact hs
  · intro g' hg'
    obtain rfl := Form.object.inj hg'
    exact hf o g (hs o ho) hstep

theorem hasOrder_withRule {s t : Schema} {name : String} {args : List (Argument Schema)}
    (hs : HasOrder s) (h : s.withRule name args = .ok t) : HasOrder t := by
  obtain ⟨n, hn, rfl⟩ := Attempt.map_ok h
  obtain ⟨spec, -, -, rfl⟩ := addRule_ok hn
  exact hasOrder_of_form hs rfl

theorem hasOrder_ruleCall {s t : Schema} {call : RuleCall} (hs : HasOrder s)
    (h : call.apply s = .ok t) : HasOrder t := by
  obtain ⟨name, args, hadd, -⟩ := withRule_of_ruleCall h
  exact hasOrder_withRule hs hadd

theorem hasOrder_apply {s t : Schema} {call : Call} (hsimple : call.isSimple = true)
    (hs : HasOrder s) (h : call.apply s = .ok t) : HasOrder t := by
  cases call with
  -- the three calls that merge are left to the lemma about merging
  | addWhen condition w => exact absurd hsimple (by simp [Call.isSimple])
  | under condition w => exact absurd hsimple (by simp [Call.isSimple])
  | concat source => exact absurd hsimple (by simp [Call.isSimple])
  | rule added => exact hasOrder_ruleCall hs h
  | allow given | valid given =>
    obtain rfl := Except.ok.inj h
    exact hasOrder_of_form hs (foldl_keeps Node.form Node.allow (fun _ _ => rfl) given s.node)
  | deny given =>
    obtain rfl := Except.ok.inj h
    exact hasOrder_of_form hs (foldl_keeps Node.form Node.deny (fun _ _ => rfl) given s.node)
  | keys children =>
    exact hasOrder_updateObject? hs
      (fun o g ho hstep => ObjectForm.setChildren_ordered ho.distinct hstep) h
  -- renames leave the children and their order alone
  | rename added =>
    refine hasOrder_updateObject? hs (fun o g ho hstep => ?_) h
    obtain ⟨hkeys, horder⟩ := ObjectForm.addRename_same hstep
    exact ho.of_same hkeys horder
  | replace source template =>
    obtain ⟨pattern, -, h⟩ := Attempt.bind_ok h
    obtain rfl := Except.ok.inj h
    refine hasOrder_updateForm hs fun form g hg => ?_
    cases form with
    | object o => exact ⟨g, hg, rfl, rfl⟩
    | _ => exact absurd hg (by simp)
  | encoding name =>
    obtain ⟨-, rfl⟩ := withEncoding_ok h
    refine hasOrder_updateForm hs fun form g hg => ?_
    cases form with
    | object o => exact ⟨g, hg, rfl, rfl⟩
    | _ => exact absurd hg (by simp)
  | keyPattern source inner =>
    obtain ⟨pattern, -, h⟩ := Attempt.bind_ok h
    obtain rfl := Except.ok.inj h
    refine hasOrder_updateForm hs fun form g hg => ?_
    cases form with
    | object o => exact ⟨o, rfl, Form.object.inj hg ▸ rfl, Form.object.inj hg ▸ rfl⟩
    | _ => exact absurd hg (by simp)
  -- of an object these change other fields than the children
  | truncate | allowUnsafe | format | truthy | falsy | sensitive | items | ordered | sparse | single
  | dependency | keySchema | unknown | once | attempt =>
    obtain rfl := Except.ok.inj h
    refine hasOrder_updateForm hs fun form g hg => ?_
    cases form with
    | object o => exact ⟨o, rfl, Form.object.inj hg ▸ rfl, Form.object.inj hg ▸ rfl⟩
    | _ => exact absurd hg (by simp)
  | _ =>
    obtain rfl := Except.ok.inj h
    exact hasOrder_of_form hs rfl

/-- Merging declares the children of both sides anew. -/
theorem hasOrder_merged {merge : Schema → Schema → Except SchemaError Schema} {a b : Form Schema}
    (ha : ∀ f, a = .object f → f.Ordered) (hb : ∀ f, b = .object f → f.Ordered) {form : Form Schema}
    (h : a.merge merge b = .ok form) : ∀ f, form = .object f → f.Ordered := by
  intro f hf
  subst hf
  cases formsMerged_of_ok h with
  | target => exact ha f rfl
  | source => exact hb f rfl
  | @object a b _ hresult =>
    obtain ⟨base, renamed, hbase, hrenamed, rfl⟩ := mergeObject_ok hresult
    have hordered : base.Ordered := by
      rcases hbase with ⟨-, rfl⟩ | ⟨others, merged, -, -, hset⟩
      · exact ha base rfl
      · exact ObjectForm.setChildren_ordered (ha a rfl).distinct hset
    obtain ⟨hkeys, horder⟩ := ObjectForm.foldlM_addRename_same b.renames hrenamed
    exact hordered.of_same hkeys horder

/-- Marks do not bear on the order of children. -/
theorem hasOrder_marked {s t : Schema} (hs : HasOrder s) (h : t.bare = s.bare) : HasOrder t := by
  intro g hg
  obtain ⟨f, hf, hmap⟩ := erase_object h hg
  have hordered := hs f hf
  have hchildren : mapChildren (erase false) g.children = mapChildren (erase false) f.children := by
    rw [← ObjectForm.children_map, hmap, ObjectForm.children_map]
  have hkeys : Members.keys g.children = Members.keys f.children := by
    rw [← keys_mapChildren (erase false), hchildren, keys_mapChildren]
  have horder : g.order = f.order := by
    have hmapped := congrArg (fun form : ObjectForm Schema => form.order) hmap
    exact hmapped
  refine ⟨?_, ?_, ?_⟩
  · show (Members.keys g.children).Nodup
    rw [hkeys]
    exact hordered.distinct
  · rw [hkeys, horder]
    exact hordered.perm
  · -- the peers of a child are those of the child without marks
    intro key schema peer hmem hpeer hdeclared hne
    have hin : (key, schema.erase false) ∈ mapChildren (erase false) f.children :=
      hchildren ▸ List.mem_map.mpr ⟨(key, schema), hmem, rfl⟩
    obtain ⟨⟨key', other⟩, hother, heq⟩ := List.mem_map.mp hin
    obtain ⟨rfl, hbare⟩ := Prod.mk.inj heq
    rw [horder]
    rw [← siblingRefs_erase, ← hbare, siblingRefs_erase] at hpeer
    exact hordered.after key' other peer hother hpeer (hkeys ▸ hdeclared) hne

/-- Calls keep children in order. -/
theorem ordered_kept : Kept HasOrder where
  plain := by
    intro s hs f hf
    have hempty : ∀ s ∈ Schema.plain, ∀ f, s.node.form = .object f → f = {} := by
      intro s hs f hf
      simp only [Schema.plain, List.mem_cons, List.not_mem_nil, or_false] at hs
      rcases hs with rfl | rfl | rfl | rfl | rfl | rfl | rfl | rfl | rfl
      all_goals first
        | exact absurd hf
            (by simp [any, boolean, number, date, binary, array, alternatives, string, ofForm,
            update, Node.deny])
        | exact (Form.object.inj hf).symm
    exact hempty s hs f hf ▸ ObjectForm.ordered_empty
  lazily := fun generator f hf => absurd hf (by simp [Schema.lazily, ofForm])
  simple := fun hsimple hs _ h => hasOrder_apply hsimple hs h
  entry := by
    intro s condition cases otherwise hs _ _
    refine hasOrder_updateForm hs fun form g hg => ?_
    cases form with
    | object o => exact ⟨g, hg, rfl, rfl⟩
    | _ => exact absurd hg (by simp)
  under := fun _ _ f hf => absurd hf (by simp [ofForm])
  merged := fun ha hb h => hasOrder_merged ha hb h
  marked := hasOrder_marked

end Conform.Schema
