import Conform.Proofs.MergedParts

/-!
# Similar schemas

Two schemas are similar if they are the same but for the order in which their sets of allowed
and denied values keep the members, in themselves and in the children of objects at every
depth. The same siblings are read by references in one and the other, so sorting similar
children gives one order.

Describing a schema and building it again may bring the members of its sets into another order,
since what is allowed and what is denied by one call is put together from two lists. That does not
bear on any verdict, but it has to be seen that it does not bear on the order of children either,
which is made from the references that are found in them.

What stays the same is said with the shell of a node (`Node.shell`), in which the sets and the
children are left out and only the keys of the children remain. Schemas are similar if their shells
are the same, their sets have the same members in some order, and their children are similar in
turn. The references that a schema consults are gathered from all of these; gathering permuted lists
gives a permuted list, and the graph of children asks only which keys occur.

Main statements: `Schema.Similar.siblingRefs` and `ObjectForm.order_eq`.
-/

namespace Conform

namespace Form

/-- The form with nothing said of the children of an object but their keys. -/
def shell : Form Schema → Form Schema
  | .object f => .object { f with keys := f.keys.map (mapChildren fun _ => Schema.any) }
  | form => form

theorem shell_eq {f g : Form Schema} (h : f.shell = g.shell) :
    f = g ∨ ∃ a b, f = .object a ∧ g = .object b := by
  cases f with
  | object a =>
    cases g with
    | object b => exact .inr ⟨a, b, rfl, rfl⟩
    | _ => exact nomatch h
  | _ =>
    cases g with
    | object b => exact nomatch h
    | _ => exact .inl h

end Form

/-- The node with nothing said of its children and its sets. -/
def Node.shell (n : Node Schema) : Node Schema :=
  { n with form := n.form.shell, allowed := {}, denied := {} }

namespace Schema

/-- The children, if the schema is one of objects. -/
def children (s : Schema) : List (String × Schema) :=
  match s.node.form with
  | .object f => f.children
  | _ => []

/-- The schemas are the same but for the order of the members of sets, at
every depth of children. -/
inductive Similar : Schema → Schema → Prop
  | intro {s t : Schema} (shell : s.node.shell = t.node.shell)
      (allowed : s.node.allowed.SameMembers t.node.allowed)
      (denied : s.node.denied.SameMembers t.node.denied)
      (children : ∀ key x y, Members.get? s.children key = some x →
        Members.get? t.children key = some y → Similar x y) : Similar s t

theorem mem_inner_of_child {s child : Schema} {key : String} (h : (key, child) ∈ s.children) :
    child ∈ s.inner := by
  obtain ⟨⟨form, flags, empty, allowed, denied, rules, prefs, notes⟩, stamp⟩ := s
  refine List.mem_append_right _ ?_
  cases form with
  | object f => exact List.mem_append_left _ (List.mem_map_of_mem (f := (·.2)) h)
  | _ => exact absurd h List.not_mem_nil

namespace Similar

variable {s t : Schema}

theorem refl (s : Schema) : Similar s s := by
  induction s using inner_induction with
  | h s ih =>
    refine .intro rfl (.refl _) (.refl _) fun key x y hx hy => ?_
    obtain rfl : x = y := Option.some.inj (hx.symm.trans hy)
    exact ih x (mem_inner_of_child (Members.mem_of_get? hx))

theorem symm (h : Similar s t) : Similar t s := by
  induction h with
  | intro shell allowed denied _ ih =>
    exact .intro shell.symm ⟨allowed.members.symm, allowed.references.symm⟩
      ⟨denied.members.symm, denied.references.symm⟩ fun key x y hx hy => ih key y x hy hx

end Similar

/-- The keys of the children can be read off the shell. -/
theorem keys_children_of_shell {a b : ObjectForm Schema}
    (h : (Form.object a).shell = (Form.object b).shell) :
    Members.keys a.children = Members.keys b.children := by
  have hkeys : a.keys.map (mapChildren fun _ => any) = b.keys.map (mapChildren fun _ => any) :=
    congrArg ObjectForm.keys (Form.object.inj h)
  have hread (f : ObjectForm Schema) : Members.keys f.children =
      Members.keys ((f.keys.map (mapChildren fun _ => any)).getD []) := by
    unfold ObjectForm.children
    cases f.keys with
    | none => rfl
    | some children => exact (keys_mapChildren (fun _ => any) children).symm
  rw [hread a, hread b, hkeys]

/-- The references of the nodes themselves are the same, in some order. -/
theorem Similar.ownReferences {s t : Schema} (h : Similar s t) {r : Reference}
    (hr : r ∈ s.ownReferences) : r ∈ t.ownReferences := by
  obtain ⟨shell, allowed, denied, -⟩ := h
  obtain ⟨⟨form, flags, empty, allowedₛ, deniedₛ, rules, prefs, notes⟩, stamp⟩ := s
  obtain ⟨⟨form', flags', empty', allowedₜ, deniedₜ, rules', prefs', notes'⟩, stamp'⟩ := t
  obtain ⟨hform, rfl, rfl, -, -, rfl, rfl, rfl⟩ := Node.mk.inj shell
  have hset {a b : ValueSet} (hab : a.SameMembers b) (hin : r ∈ a.referenceItems) :
      r ∈ b.referenceItems := by
    obtain ⟨item, hitem, hsome⟩ := List.mem_filterMap.mp hin
    exact List.mem_filterMap.mpr ⟨item, (hab.members.map (·.2)).mem_iff.mp hitem, hsome⟩
  unfold Schema.ownReferences at hr ⊢
  rcases List.mem_append.mp hr with hr | hlast
  · rcases List.mem_append.mp hr with hr | hdefaults
    · rcases List.mem_append.mp hr with hr | hdenied
      · rcases List.mem_append.mp hr with hrules | hallowed
        · exact List.mem_append_left _ (List.mem_append_left _ (List.mem_append_left _
            (List.mem_append_left _ hrules)))
        · exact List.mem_append_left _ (List.mem_append_left _ (List.mem_append_left _
            (List.mem_append_right _ (hset allowed hallowed))))
      · exact List.mem_append_left _
          (List.mem_append_left _ (List.mem_append_right _ (hset denied hdenied)))
    · exact List.mem_append_left _ (List.mem_append_right _ hdefaults)
  · rcases Form.shell_eq hform with rfl | ⟨a, b, rfl, rfl⟩
    · exact List.mem_append_right _ hlast
    · exact absurd hlast List.not_mem_nil

/-- What a schema consults is consulted by a similar one, children through similar ones. -/
theorem Similar.consulted {s t : Schema} (h : Similar s t) (hs : s.Regular)
    {levels : Nat} {child : Schema} (hchild : (levels, child) ∈ s.consulted) :
    (levels, child) ∈ t.consulted ∨ ∃ key other, Members.get? s.children key = some child ∧
      Members.get? t.children key = some other ∧ (levels, other) ∈ t.consulted := by
  obtain ⟨shell, -, -, -⟩ := h
  have hdistinct := hs.form
  obtain ⟨⟨form, flags, empty, allowedₛ, deniedₛ, rules, prefs, notes⟩, stamp⟩ := s
  obtain ⟨⟨form', flags', empty', allowedₜ, deniedₜ, rules', prefs', notes'⟩, stamp'⟩ := t
  obtain ⟨hform, rfl, rfl, -, -, rfl, rfl, rfl⟩ := Node.mk.inj shell
  -- rules are part of the shell, and the same on both sides
  rcases List.mem_append.mp hchild with hrules | hin
  · exact .inl (List.mem_append_left _ hrules)
  · rcases Form.shell_eq hform with rfl | ⟨a, b, rfl, rfl⟩
    · exact .inl (List.mem_append_right _ hin)
    · -- both are objects: the key of the child is one of the other's too
      obtain ⟨child', hmem, heq⟩ := List.mem_map.mp hin
      obtain ⟨rfl, rfl⟩ := Prod.mk.inj heq
      obtain ⟨⟨key, _⟩, hentry, rfl⟩ := List.mem_map.mp hmem
      have hkey : key ∈ Members.keys b.children :=
        keys_children_of_shell hform ▸ List.mem_map_of_mem (f := (·.1)) hentry
      obtain ⟨other, hother⟩ : ∃ other, Members.get? b.children key = some other := by
        cases hget : Members.get? b.children key with
        | some other => exact ⟨other, rfl⟩
        | none => exact absurd hkey ((Members.get?_eq_none_iff _ _).mp hget)
      refine .inr ⟨key, other, hdistinct.distinct.get?_of_mem hentry, hother, ?_⟩
      refine List.mem_append_right _ (List.mem_map.mpr ⟨other, ?_, rfl⟩)
      exact List.mem_map_of_mem (f := (·.2)) (Members.mem_of_get? hother)

/-- Similar schemas read the same siblings. -/
theorem Similar.siblingRefs {s t : Schema} (h : Similar s t)
    (hs : s.Everywhere Regular) {levels : Nat}
    {peer : String} (hpeer : peer ∈ s.siblingRefs levels) : peer ∈ t.siblingRefs levels := by
  induction s using inner_induction generalizing t levels with
  | h s ih =>
    rw [siblingRefs_eq] at hpeer ⊢
    rcases List.mem_append.mp hpeer with hown | hinner
    · obtain ⟨r, hr, hstep⟩ := List.mem_filterMap.mp hown
      exact List.mem_append_left _ (List.mem_filterMap.mpr ⟨r, h.ownReferences hr, hstep⟩)
    · refine List.mem_append_right _ ?_
      obtain ⟨⟨further, child⟩, hchild, hin⟩ := List.mem_flatMap.mp hinner
      rcases h.consulted hs.self hchild with hsame | ⟨key, other, hget, hget', hother⟩
      · exact List.mem_flatMap.mpr ⟨(further, child), hsame, hin⟩
      · obtain ⟨-, -, -, hchildren⟩ := h
        have hmem := mem_inner_of_consulted hchild
        refine List.mem_flatMap.mpr ⟨(further, other), hother, ?_⟩
        exact ih child hmem (hchildren key child other hget hget') (hs.inner hmem) hin

end Schema

/-! ### The order of similar children -/

/-- Regular forms with similar children under the same keys keep them in the same order. -/
theorem ObjectForm.order_eq {f g : ObjectForm Schema} (hf : f.Regular) (hg : g.Regular)
    (hregular : ∀ s ∈ f.childSchemas ++ g.childSchemas, s.Everywhere Schema.Regular)
    (hkeys : Members.keys f.children = Members.keys g.children)
    (hchildren : ∀ key x y, Members.get? f.children key = some x →
      Members.get? g.children key = some y →
      Schema.Similar x y) : f.order = g.order := by
  obtain ⟨hfkeys, hfpeers⟩ := graph_spec hf.distinct
  obtain ⟨hgkeys, hgpeers⟩ := graph_spec hg.distinct
  -- what is declared on one side is declared on the other
  have hother {a b : ObjectForm Schema} (hsame : Members.keys a.children = Members.keys b.children)
      {key : String} {x : Schema} (hx : (key, x) ∈ a.children) :
      ∃ y, Members.get? b.children key = some y := by
    have hkey : key ∈ Members.keys b.children := hsame ▸ List.mem_map_of_mem (f := (·.1)) hx
    cases hget : Members.get? b.children key with
    | some y => exact ⟨y, rfl⟩
    | none => exact absurd hkey ((Members.get?_eq_none_iff _ _).mp hget)
  have horder : (graph f.children).order = (graph g.children).order := by
    refine KeyGraph.order_congr (by rw [hfkeys, hgkeys, hkeys]) fun key peer => ?_
    rw [hfpeers, hgpeers, hkeys]
    constructor
    · rintro ⟨x, hx, hpeer, hdeclared⟩
      obtain ⟨y, hy⟩ := hother hkeys hx
      have hsimilar := hchildren key x y (hf.distinct.get?_of_mem hx) hy
      have hin : x ∈ f.childSchemas ++ g.childSchemas :=
        List.mem_append_left _ (List.mem_map_of_mem (f := (·.2)) hx)
      exact ⟨y, Members.mem_of_get? hy, hsimilar.siblingRefs (hregular x hin) hpeer, hdeclared⟩
    · rintro ⟨y, hy, hpeer, hdeclared⟩
      obtain ⟨x, hx⟩ := hother hkeys.symm hy
      have hsimilar := hchildren key x y hx (hg.distinct.get?_of_mem hy)
      have hin : y ∈ f.childSchemas ++ g.childSchemas :=
        List.mem_append_right _ (List.mem_map_of_mem (f := (·.2)) hy)
      exact ⟨x, Members.mem_of_get? hx, hsimilar.symm.siblingRefs (hregular y hin) hpeer, hdeclared⟩
  -- the order of a regular form is that of its graph
  have hsorted {a : ObjectForm Schema} (ha : a.Regular) : a.order = (graph a.children).order := by
    have hsort := ha.order
    unfold KeyGraph.sort at hsort
    dsimp only at hsort
    split at hsort
    next => exact (Except.ok.inj hsort).symm
    next => exact absurd hsort (by simp)
  rw [hsorted hf, hsorted hg, horder]

end Conform
