import Conform.Proofs.KeyOrder
import Conform.Schema.Children

/-!
# The order of children

`ObjectForm.Ordered` is what every object form keeps: its children have distinct keys, and its order
lists each of them once, after the siblings that its schema reads through references. Declaring
children establishes it whatever stood there before (`setChildren_ordered`), since the order is made
anew from all children.

The children go into a graph, one key after another, each with the siblings that its schema reads.
What the graph is then is said without a word about how it was built (`graph_spec`): it lists the
keys as they were declared, and a key runs after the siblings that are declared and referenced. Keys
that are referenced but not declared are ignored, and so is a reference of a child to itself.

Sorting such a graph gives an order in which every key stands once, after what it runs after, or
fails. So the invariant follows from what is known of graphs, and a declaration that cannot be
ordered is refused. The other calls for objects, renames among them, leave children and order alone
(`Ordered.of_same`), and checks take the children by looking up each key of the order.

Main statements: `Ordered.keys_orderedChildren` and `Ordered.mem_orderedChildren`, by which the
children taken in their order are exactly the declared ones.
-/

namespace Conform

/-! ### The graph of children -/

namespace KeyGraph

theorem keys_addAfter (g : KeyGraph) (key peer : String) : (g.addAfter key peer).keys = g.keys := by
  unfold addAfter
  split <;> rfl

theorem mem_edges_addAfter {g : KeyGraph} {key peer k p : String} :
    (k, p) ∈ (g.addAfter key peer).edges ↔
      (k, p) ∈ g.edges ∨ (k = key ∧ p = peer ∧ key ∈ g.keys ∧ peer ∈ g.keys ∧ key ≠ peer) := by
  unfold addAfter
  split
  next h =>
    rw [List.mem_append, List.mem_singleton, Prod.mk.injEq]
    constructor
    · rintro (hold | ⟨rfl, rfl⟩)
      · exact .inl hold
      · exact .inr ⟨rfl, rfl, h.1, h.2.1, h.2.2.1⟩
    · rintro (hold | ⟨rfl, rfl, -⟩)
      · exact .inl hold
      · exact .inr ⟨rfl, rfl⟩
  next h =>
    constructor
    · exact .inl
    · rintro (hold | ⟨rfl, rfl, hk, hp, hne⟩)
      · exact hold
      · -- the edge was recorded before
        exact Decidable.byContradiction fun hnew => h ⟨hk, hp, hne, hnew⟩

/-- Recording the peers of one key. -/
theorem foldl_addAfter (peers : List String) (key : String) (g : KeyGraph) :
    (peers.foldl (fun g peer => g.addAfter key peer) g).keys = g.keys ∧
    ∀ k p, (k, p) ∈ (peers.foldl (fun g peer => g.addAfter key peer) g).edges ↔
      (k, p) ∈ g.edges ∨ (k = key ∧ p ∈ peers ∧ key ∈ g.keys ∧ p ∈ g.keys ∧ key ≠ p) := by
  induction peers generalizing g with
  | nil =>
    refine ⟨rfl, fun k p => ?_⟩
    rw [List.foldl_nil]
    exact ⟨.inl, fun h => h.elim id fun h => absurd h.2.1 (by simp)⟩
  | cons peer rest ih =>
    obtain ⟨hkeys, hedges⟩ := ih (g.addAfter key peer)
    rw [keys_addAfter] at hkeys
    refine ⟨hkeys, fun k p => ?_⟩
    rw [List.foldl_cons, hedges, mem_edges_addAfter, keys_addAfter]
    -- an edge recorded later changes no key, so the conditions on keys may be
    -- read off the first graph
    constructor
    · rintro ((h | ⟨rfl, rfl, h⟩) | ⟨rfl, hp, h⟩)
      · exact .inl h
      · exact .inr ⟨rfl, List.mem_cons_self .., h⟩
      · exact .inr ⟨rfl, List.mem_cons_of_mem _ hp, h⟩
    · rintro (h | ⟨rfl, hp, h⟩)
      · exact .inl (.inl h)
      · rcases List.mem_cons.mp hp with rfl | hp
        · exact .inl (.inr ⟨rfl, rfl, h⟩)
        · exact .inr ⟨rfl, hp, h⟩

/-- Declaring new keys lists them in their order and records no edge. -/
theorem foldl_addKey {α : Type} (children : List (String × α)) (g : KeyGraph)
    (hnew : (g.keys ++ Members.keys children).Nodup) :
    (children.foldl (fun g child => g.addKey child.1) g).keys = g.keys ++ Members.keys children ∧
    (children.foldl (fun g child => g.addKey child.1) g).edges = g.edges := by
  induction children generalizing g with
  | nil => exact ⟨(List.append_nil _).symm, rfl⟩
  | cons child rest ih =>
    have hfresh : child.1 ∉ g.keys := fun hmem =>
      (List.nodup_append.mp hnew).2.2 child.1 hmem child.1 (List.mem_cons_self ..) rfl
    have hadd : g.addKey child.1 = { g with keys := g.keys ++ [child.1] } := if_neg hfresh
    have happ : g.keys ++ [child.1] ++ Members.keys rest =
        g.keys ++ Members.keys (child :: rest) := by
      rw [List.append_assoc]
      rfl
    rw [List.foldl_cons, hadd]
    have h := ih { g with keys := g.keys ++ [child.1] } (by rw [happ]; exact hnew)
    rw [happ] at h
    exact h

end KeyGraph

namespace ObjectForm

/-- The edges that the children of a list add to a graph. -/
theorem foldl_graph (children : List (String × Schema)) (g : KeyGraph) :
    (children.foldl (fun g child =>
      (child.2.siblingRefs 1).foldl (fun g peer => g.addAfter child.1 peer) g) g).keys = g.keys ∧
    ∀ k p, (k, p) ∈ (children.foldl (fun g child =>
        (child.2.siblingRefs 1).foldl (fun g peer => g.addAfter child.1 peer) g) g).edges ↔
      (k, p) ∈ g.edges ∨ ∃ schema, (k, schema) ∈ children ∧ p ∈ schema.siblingRefs 1 ∧
        k ∈ g.keys ∧ p ∈ g.keys ∧ k ≠ p := by
  induction children generalizing g with
  | nil => exact ⟨rfl, fun k p => ⟨.inl, fun h => h.elim id fun ⟨_, h, _⟩ => absurd h (by simp)⟩⟩
  | cons child rest ih =>
    obtain ⟨hkeys, hedges⟩ := KeyGraph.foldl_addAfter (child.2.siblingRefs 1) child.1 g
    -- the induction goes on from the graph to which the first child has added its edges
    obtain ⟨hkeys', hedges'⟩ := ih
      ((child.2.siblingRefs 1).foldl (fun g peer => g.addAfter child.1 peer) g)
    rw [hkeys] at hkeys'
    refine ⟨hkeys', fun k p => ?_⟩
    rw [List.foldl_cons, hedges', hedges, hkeys]
    constructor
    · rintro ((h | ⟨rfl, h⟩) | ⟨schema, hmem, h⟩)
      · exact .inl h
      · exact .inr ⟨child.2, List.mem_cons_self .., h⟩
      · exact .inr ⟨schema, List.mem_cons_of_mem _ hmem, h⟩
    · rintro (h | ⟨schema, hmem, h⟩)
      · exact .inl (.inl h)
      · rcases List.mem_cons.mp hmem with rfl | hmem
        · exact .inl (.inr ⟨rfl, h⟩)
        · exact .inr ⟨schema, hmem, h⟩

/-- The graph of children lists their keys, and a key runs after the declared siblings that its
schema references. -/
theorem graph_spec {children : List (String × Schema)} (h : Members.Distinct children) :
    (graph children).keys = Members.keys children ∧
    ∀ key peer, peer ∈ (graph children).peers key ↔
      ∃ schema, (key, schema) ∈ children ∧ peer ∈ schema.siblingRefs 1 ∧
        key ∈ Members.keys children ∧ peer ∈ Members.keys children ∧ key ≠ peer := by
  obtain ⟨hkeys, hedges⟩ := KeyGraph.foldl_addKey children {} h
  obtain ⟨hkeys', hedges'⟩ := foldl_graph children
    (children.foldl (fun g child => g.addKey child.1) {})
  rw [hkeys] at hkeys'
  refine ⟨hkeys', fun key peer => ?_⟩
  rw [KeyGraph.mem_peers, graph, hedges', hedges, hkeys]
  constructor
  · rintro (hnone | h)
    · exact absurd hnone (by simp)
    · exact h
  · exact .inr

/-! ### The invariant -/

/-- Distinct children in an order in which each comes after the siblings that it reads. -/
structure Ordered (f : ObjectForm Schema) : Prop where
  distinct : Members.Distinct f.children
  /-- The order lists every child once. -/
  perm : f.order.Perm (Members.keys f.children)
  /-- A child comes after the other declared keys that its schema references. -/
  after : ∀ key schema peer, (key, schema) ∈ f.children → peer ∈ schema.siblingRefs 1 →
    peer ∈ Members.keys f.children → peer ≠ key → [peer, key].Sublist f.order

/-- The form of a new object has no children. -/
theorem ordered_empty : Ordered {} :=
  ⟨Members.distinct_nil, List.Perm.refl _, fun _ _ _ h => absurd h (by simp [children])⟩

/-- What else a form says does not bear on the invariant. -/
theorem Ordered.of_same {f g : ObjectForm Schema} (hf : f.Ordered) (hkeys : g.keys = f.keys)
    (horder : g.order = f.order) : g.Ordered := by
  have hchildren : g.children = f.children := by rw [children, children, hkeys]
  refine ⟨?_, ?_, ?_⟩
  · rw [hchildren]
    exact hf.distinct
  · rw [hchildren, horder]
    exact hf.perm
  · rw [hchildren, horder]
    exact hf.after

/-- Children are declared just if all keys can be put in order. -/
theorem setChildren_eq_ok {f g : ObjectForm Schema} {added : List (String × Schema)} :
    f.setChildren added = .ok g ↔
    ∃ order, (graph (Members.insertAll f.children added)).sort = .ok order ∧
      g = { f with keys := some (Members.insertAll f.children added), order } := by
  unfold setChildren
  dsimp only
  cases (graph (Members.insertAll f.children added)).sort with
  | ok order =>
    refine ⟨fun h => ⟨order, rfl, (Except.ok.inj h).symm⟩, ?_⟩
    rintro ⟨_, hsort, rfl⟩
    rw [Except.ok.inj hsort]
  | error chain =>
    refine ⟨nofun, ?_⟩
    rintro ⟨_, hsort, -⟩
    exact nomatch hsort

/-- Declaring children puts all of them in order. -/
theorem setChildren_ordered {f g : ObjectForm Schema} (hf : Members.Distinct f.children)
    {added : List (String × Schema)} (h : f.setChildren added = .ok g) : g.Ordered := by
  have hdistinct := hf.insertAll added
  obtain ⟨hkeys, hpeers⟩ := graph_spec hdistinct
  obtain ⟨order, hsort, rfl⟩ := setChildren_eq_ok.mp h
  obtain ⟨hperm, hafter⟩ := KeyGraph.sort_ok (hkeys ▸ hdistinct) hsort
  rw [hkeys] at hperm hafter
  refine ⟨hdistinct, hperm, fun key schema peer hmem hpeer hdeclared hne => ?_⟩
  have hkey : key ∈ Members.keys (Members.insertAll f.children added) :=
    List.mem_map_of_mem (f := (·.1)) hmem
  exact hafter key hkey peer
    ((hpeers key peer).mpr ⟨schema, hmem, hpeer, hkey, hdeclared, hne.symm⟩)

/-- A rename is added to those there are, if none of them has its source. -/
theorem addRename_ok {f g : ObjectForm Schema} {rename : Rename} (h : f.addRename rename = .ok g) :
    (∀ old ∈ f.renames, old.source ≠ rename.source) ∧ g =
    { f with renames := f.renames ++ [rename] } := by
  unfold addRename at h
  split at h
  next => exact nomatch h
  next hnone =>
    refine ⟨fun old hold hsource => hnone ?_, (Except.ok.inj h).symm⟩
    exact List.any_eq_true.mpr ⟨old, hold, beq_iff_eq.mpr hsource⟩

/-- Renames leave the children alone. -/
theorem addRename_same {f g : ObjectForm Schema} {rename : Rename}
    (h : f.addRename rename = .ok g) : g.keys = f.keys ∧ g.order = f.order := by
  obtain ⟨-, rfl⟩ := addRename_ok h
  exact ⟨rfl, rfl⟩

theorem foldlM_addRename_same (renames : List Rename) {f g : ObjectForm Schema}
    (h : renames.foldlM addRename f = .ok g) : g.keys = f.keys ∧ g.order = f.order := by
  induction renames generalizing f with
  | nil =>
    injection h with h
    subst h
    exact ⟨rfl, rfl⟩
  | cons rename rest ih =>
    rw [List.foldlM_cons] at h
    cases hstep : f.addRename rename with
    | error e =>
      rw [hstep] at h
      exact absurd h (by simp [bind, Except.bind])
    | ok f' =>
      rw [hstep] at h
      obtain ⟨hkeys, horder⟩ := addRename_same hstep
      obtain ⟨hkeys', horder'⟩ := ih h
      exact ⟨hkeys'.trans hkeys, horder'.trans horder⟩

/-! ### The children in their order -/

namespace Ordered

variable {f : ObjectForm Schema}

theorem mem_order (hf : f.Ordered) {key : String} :
    key ∈ f.order ↔ key ∈ Members.keys f.children := hf.perm.mem_iff

theorem nodup_order (hf : f.Ordered) : f.order.Nodup := hf.perm.nodup_iff.mpr hf.distinct

/-- The look-up of a key of the order never fails: no child is passed over. -/
theorem keys_orderedChildren (hf : f.Ordered) : f.orderedChildren.map (·.1) = f.order := by
  have hall : ∀ key ∈ f.order, ∃ schema, Members.get? f.children key = some schema := by
    intro key hkey
    cases hget : Members.get? f.children key with
    | some schema => exact ⟨schema, rfl⟩
    | none => exact absurd (hf.mem_order.mp hkey) ((Members.get?_eq_none_iff _ _).mp hget)
  unfold orderedChildren
  generalize f.order = order at hall
  induction order with
  | nil => rfl
  | cons key rest ih =>
    obtain ⟨schema, hget⟩ := hall key (List.mem_cons_self ..)
    rw [List.filterMap_cons, hget]
    show key :: _ = key :: rest
    rw [ih fun k hk => hall k (List.mem_cons_of_mem _ hk)]

theorem mem_orderedChildren (hf : f.Ordered) {child : String × Schema} :
    child ∈ f.orderedChildren ↔ child ∈ f.children := by
  unfold orderedChildren
  rw [List.mem_filterMap]
  constructor
  · rintro ⟨key, hkey, hmap⟩
    obtain ⟨schema, hget, rfl⟩ := Option.map_eq_some_iff.mp hmap
    exact Members.mem_of_get? hget
  · intro hmem
    refine ⟨child.1, hf.mem_order.mpr (List.mem_map_of_mem (f := (·.1)) hmem), ?_⟩
    have hget : Members.get? f.children child.1 = some child.2 := hf.distinct.get?_of_mem hmem
    rw [hget]
    rfl

theorem perm_orderedChildren (hf : f.Ordered) : f.orderedChildren.Perm f.children := by
  have hordered : f.orderedChildren.Nodup := by
    refine List.Nodup.of_map (·.1) ?_
    rw [hf.keys_orderedChildren]
    exact hf.nodup_order
  have hkeys : (f.children.map (·.1)).Nodup := hf.distinct
  have hchildren : f.children.Nodup := List.Nodup.of_map (·.1) hkeys
  exact (List.perm_ext_iff_of_nodup hordered hchildren).mpr fun _ => hf.mem_orderedChildren

end Ordered

end ObjectForm

end Conform
