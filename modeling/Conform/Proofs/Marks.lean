import Conform.Proofs.NodeMap

/-!
# Schemas without marks

Stamps tell copies of a schema from look-alikes, and cells tell which lazy nodes share what they
made. Neither is said by whoever puts a schema together. `Schema.erase` takes the cells away at
every depth, and the stamps too unless they are to be kept, so `s.bare = t.bare` says that two
schemas are the same but for such marks.

A function on schemas that goes down level by level, with the height as fuel, is determined by one
step: what it makes of a schema from what it makes of the schemas inside. `made_eq` says so for all
such functions. Erasing is one, and collecting references is another, so that both are used through
their equations and not through their fuel.

A node is erased by erasing what is inside and taking away its cell. As nothing that is looked up or
collected from a node depends on the cell, a lemma about a change of the schemas inside gives one
about erasing; the change is stated with two functions, one for the schemas among the arguments of
rules and one for those of the form, since descriptions treat the two differently (`Node.remade`).

Main statements: `erase_eq`, by which an erased schema is made of erased ones; `erase_erase`; and
`siblingRefs_erase`, by which marks do not bear on the order of children.
-/

namespace Conform

/-- The form of a node without a cell. -/
def Form.withoutCell {σ : Type} : Form σ → Form σ
  | .lazy form => .lazy { form with cell := none }
  | form => form

/-- A node without a cell. -/
def Node.withoutCell {σ : Type} (n : Node σ) : Node σ := { n with form := n.form.withoutCell }

/-- The node with other schemas inside, those among the arguments of its rules changed
apart, and without a cell. -/
def Node.remade {σ τ : Type} (f g : σ → τ) (n : Node σ) : Node τ :=
  { (n.map f).withoutCell with rules := n.rules.map (Rule.map g) }

theorem Node.map_withoutCell {σ τ : Type} (f : σ → τ) (n : Node σ) :
    n.withoutCell.map f = (n.map f).withoutCell := by
  obtain ⟨form, _⟩ := n
  cases form <;> rfl

theorem Node.withoutCell_withoutCell {σ : Type} (n : Node σ) :
    n.withoutCell.withoutCell = n.withoutCell := by
  obtain ⟨form, _⟩ := n
  cases form <;> rfl

theorem Node.inner_withoutCell {σ : Type} (n : Node σ) : n.withoutCell.inner = n.inner := by
  obtain ⟨form, _⟩ := n
  cases form <;> rfl

theorem le_foldl_max (numbers : List Nat) (start : Nat) :
    start ≤ numbers.foldl max start ∧ ∀ n ∈ numbers, n ≤ numbers.foldl max start := by
  induction numbers generalizing start with
  | nil => exact ⟨Nat.le_refl _, fun n h => absurd h (by simp)⟩
  | cons first rest ih =>
    obtain ⟨hstart, hrest⟩ := ih (max start first)
    refine ⟨Nat.le_trans (Nat.le_max_left _ _) hstart, fun n hn => ?_⟩
    rcases List.mem_cons.mp hn with rfl | hn
    · exact Nat.le_trans (Nat.le_max_right _ _) hstart
    · exact hrest n hn

namespace Schema

/-- A schema is higher than what is inside. -/
theorem height_lt {s child : Schema} (h : child ∈ s.inner) : child.height < s.height := by
  rw [height.eq_def s]
  refine Nat.lt_succ_of_le ((le_foldl_max _ 0).2 _ ?_)
  exact List.mem_map.mpr ⟨⟨child, h⟩, List.mem_attach _ _, rfl⟩

theorem height_pos (s : Schema) : 0 < s.height := by
  rw [height.eq_def]
  exact Nat.succ_pos _

section Fuel

/-! What is made of a schema from what is made of the schemas inside. The height of the schema is
fuel enough. -/

variable {α : Type} {made : Nat → Schema → α} {step : (Schema → α) → Schema → α}
  (hmade : ∀ fuel s, made (fuel + 1) s = step (made fuel) s)
  (hstep : ∀ f g s, (∀ child ∈ s.inner, f child = g child) → step f s = step g s)
include hmade hstep

theorem made_of_le {fuel : Nat} {s : Schema} (h : s.height ≤ fuel) :
    made fuel s = made s.height s := by
  induction s using inner_induction generalizing fuel with
  | h s ih =>
    obtain ⟨n, hn⟩ : ∃ n, s.height = n + 1 := ⟨s.height - 1, by have := s.height_pos; omega⟩
    obtain ⟨m, rfl⟩ : ∃ m, fuel = m + 1 := ⟨fuel - 1, by omega⟩
    rw [hn, hmade, hmade]
    apply hstep
    intro child hchild
    have hlt := height_lt hchild
    -- more fuel than the child is high changes nothing, so both amounts give the same
    exact (ih child hchild (by omega)).trans (ih child hchild (by omega)).symm

theorem made_eq (s : Schema) : made s.height s = step (fun t => made t.height t) s := by
  obtain ⟨n, hn⟩ : ∃ n, s.height = n + 1 := ⟨s.height - 1, by have := s.height_pos; omega⟩
  rw [hn, hmade]
  apply hstep
  intro child hchild
  have hlt := height_lt hchild
  exact made_of_le hmade hstep (by omega)

end Fuel

/-- The schema without cells, and without stamps unless they are kept, no deeper than `fuel`. -/
def eraseWithin (keep : Bool) : Nat → Schema → Schema
  | 0, s => s
  | fuel + 1, s =>
    { node := (s.node.map (eraseWithin keep fuel)).withoutCell
      stamp := if keep then s.stamp else none }

/-- The schema without cells, and without stamps unless they are kept, all the way down. -/
def erase (keep : Bool) (s : Schema) : Schema := s.eraseWithin keep s.height

/-- The schema without stamps and cells. -/
def bare (s : Schema) : Schema := s.erase false

variable (keep : Bool)

/-- An erased schema is a node of erased ones. -/
theorem erase_eq (s : Schema) :
    s.erase keep = { node := (s.node.map (erase keep)).withoutCell
                     stamp := if keep then s.stamp else none } := by
  let step (f : Schema → Schema) (s : Schema) : Schema :=
    { node := (s.node.map f).withoutCell, stamp := if keep then s.stamp else none }
  have hmade (fuel : Nat) (s : Schema) :
      s.eraseWithin keep (fuel + 1) = step (eraseWithin keep fuel) s := rfl
  have hstep (f g : Schema → Schema) (s : Schema) (h : ∀ child ∈ s.inner, f child = g child) :
      step f s = step g s :=
    congrArg (fun n : Node Schema => ({ node := n.withoutCell, stamp := _ } : Schema))
      (Node.map_congr h)
  exact made_eq hmade hstep s

theorem node_erase (s : Schema) : (s.erase keep).node = (s.node.map (erase keep)).withoutCell := by
  rw [erase_eq]

variable {keep}

/-- Schemas that are the same but for marks are objects together. -/
theorem erase_object {s t : Schema} (h : t.erase keep = s.erase keep) {g : ObjectForm Schema}
    (hg : t.node.form = .object g) :
    ∃ f, s.node.form = .object f ∧ g.map (erase keep) = f.map (erase keep) := by
  have hform : (t.erase keep).node.form = (s.erase keep).node.form := by rw [h]
  rw [node_erase, node_erase] at hform
  have hform : (t.node.form.map (erase keep)).withoutCell =
      (s.node.form.map (erase keep)).withoutCell := hform
  rw [hg] at hform
  cases hs : s.node.form with
  | object f =>
    rw [hs] at hform
    exact ⟨f, rfl, Form.object.inj hform⟩
  | _ =>
    rw [hs] at hform
    exact absurd hform (by simp [Form.map, Form.withoutCell])

theorem inner_erase (s : Schema) : (s.erase keep).inner = s.inner.map (erase keep) := by
  show (s.erase keep).node.inner = _
  rw [node_erase, Node.inner_withoutCell, Node.inner_map]
  rfl

theorem everywhere_bare {P Q : Schema → Prop} (h : ∀ t, Q t → P t.bare) {s : Schema}
    (hs : s.Everywhere Q) : s.bare.Everywhere P := by
  induction s using inner_induction with
  | h s ih =>
    refine everywhere_iff.mpr ⟨h s hs.self, fun t ht => ?_⟩
    rw [bare, inner_erase] at ht
    obtain ⟨child, hchild, rfl⟩ := List.mem_map.mp ht
    exact ih child hchild (hs.inner hchild)

/-- Marks erased once more are those kept both times. -/
theorem erase_erase (keep again : Bool) (s : Schema) :
    (s.erase keep).erase again = s.erase (keep && again) := by
  induction s using inner_induction with
  | h s ih =>
    have hmap : s.node.map (erase again ∘ erase keep) = s.node.map (erase (keep && again)) :=
      Node.map_congr fun t ht => ih t ht
    rw [erase_eq again, node_erase, Node.map_withoutCell, Node.withoutCell_withoutCell,
      Node.map_map, hmap, erase_eq keep, erase_eq (keep && again)]
    cases keep <;> cases again <;> rfl

/-! ### Marks do not bear on the order of children -/

theorem siblingRefs_eq (s : Schema) (levels : Nat) :
    s.siblingRefs levels = s.ownReferences.filterMap (·.firstStepAt? levels) ++
      s.consulted.flatMap fun part => part.2.siblingRefs (levels + part.1) := by
  rw [siblingRefs.eq_def]
  congr 1
  exact List.flatMap_subtype (fun _ _ => rfl) |>.trans (by rw [List.unattach_attach])

/-- A change of what is inside keeps the references of alternatives. -/
theorem references_map {σ τ : Type} (f : σ → τ) (form : AlternativesForm σ) :
    (form.map f).references = form.references := by
  unfold AlternativesForm.references AlternativesForm.map
  rw [List.filterMap_map]
  congr 1
  funext m
  cases m with
  | attempt s => rfl
  | conditional condition cases otherwise => cases condition <;> rfl

variable {f g : Schema → Schema} {s : Schema}

theorem ownReferences_remade (f g : Schema → Schema) (s : Schema) (stamp : Option Nat) :
    ({ node := s.node.remade f g, stamp } : Schema).ownReferences = s.ownReferences := by
  obtain ⟨⟨form, flags, empty, allowed, denied, rules, prefs, notes⟩, old⟩ := s
  have hrules : (rules.map (Rule.map g)).flatMap Rule.references =
      rules.flatMap Rule.references := by
    rw [List.flatMap_map]
    exact List.flatMap_congr fun rule _ => Rule.references_map g rule
  unfold ownReferences
  dsimp only [Node.remade, Node.map, Node.withoutCell]
  rw [hrules]
  cases form with
  | alternatives form =>
    dsimp only [Form.map, Form.withoutCell]
    rw [references_map]
  | _ => rfl

/-- What a remade schema consults is what the schema consults, remade: the schemas of its rules by
`g`, those of its form by `f`. -/
theorem consulted_remade (f g : Schema → Schema) (s : Schema) (stamp : Option Nat) :
    ∃ ofRules ofForm, s.consulted = ofRules ++ ofForm ∧
      ({ node := s.node.remade f g, stamp } : Schema).consulted =
        ofRules.map (Prod.map id g) ++ ofForm.map (Prod.map id f) ∧
      (∀ part ∈ ofRules, part.2 ∈ s.node.rules.flatMap Rule.schemas) ∧
      ∀ part ∈ ofForm, part.2 ∈ s.node.form.schemas := by
  have hzip (further : Nat) (inner : List Schema) : ∀ part ∈ inner.map (further, ·),
      part.2 ∈ inner := by
    intro part hpart
    obtain ⟨child, hchild, rfl⟩ := List.mem_map.mp hpart
    exact hchild
  have hmap (further : Nat) (h : Schema → Schema) (inner : List Schema) :
      (inner.map h).map (further, ·) = (inner.map (further, ·)).map (Prod.map id h) := by
    rw [List.map_map, List.map_map]
    rfl
  -- rules are consulted for themselves, the form by its kind
  have hrules :=
    flatMap_map_schemas (Rule.map g) Rule.schemas Rule.schemas (Rule.schemas_map g) s.node.rules
  obtain ⟨⟨form, flags, empty, allowed, denied, rules, prefs, notes⟩, old⟩ := s
  refine ⟨(rules.flatMap Rule.schemas).map (0, ·), _, rfl, ?_, hzip 0 _, ?_⟩
  · unfold consulted
    dsimp only [Node.remade, Node.map, Node.withoutCell] at hrules ⊢
    rw [hrules, hmap]
    congr 1
    cases form with
    | alternatives form =>
      have hschemas : (form.map f).schemas = form.schemas.map f :=
        Form.schemas_map f (.alternatives form)
      dsimp only [Form.map, Form.withoutCell]
      rw [hschemas]
      exact hmap 0 f form.schemas
    | array form =>
      dsimp only [Form.map, Form.withoutCell, ArrayForm.map]
      rw [← List.map_append]
      exact hmap 1 f (form.items ++ form.ordered)
    | object form =>
      dsimp only [Form.map, Form.withoutCell]
      rw [ObjectForm.childSchemas_map]
      exact hmap 1 f form.childSchemas
    | _ => rfl
  · cases form with
    | alternatives form => exact hzip 0 form.schemas
    | array form => exact hzip 1 (form.items ++ form.ordered)
    | object form =>
      exact fun part hpart => List.mem_append_left _ (hzip 1 form.childSchemas part hpart)
    | _ => exact List.forall_mem_nil _

/-- Schemas put in the place of others that read the same siblings leave the
siblings that a schema reads. -/
theorem siblingRefs_remade (stamp : Option Nat)
    (hf : ∀ child ∈ s.node.form.schemas, ∀ levels,
      (f child).siblingRefs levels = child.siblingRefs levels)
    (hg : ∀ child ∈ s.node.rules.flatMap Rule.schemas, ∀ levels,
      (g child).siblingRefs levels = child.siblingRefs levels) (levels : Nat) :
    ({ node := s.node.remade f g, stamp } : Schema).siblingRefs levels = s.siblingRefs levels := by
  obtain ⟨ofRules, ofForm, hconsulted, hremade, hrules, hform⟩ := consulted_remade f g s stamp
  rw [siblingRefs_eq, siblingRefs_eq s, ownReferences_remade, hconsulted, hremade,
    List.flatMap_append, List.flatMap_append, List.flatMap_map, List.flatMap_map]
  congr 2
  · exact List.flatMap_congr fun part hpart => hg part.2 (hrules part hpart) _
  · exact List.flatMap_congr fun part hpart => hf part.2 (hform part hpart) _

theorem mem_siblingRefs {levels : Nat} {peer : String} : peer ∈ s.siblingRefs levels ↔
    (∃ r ∈ s.ownReferences, r.firstStepAt? levels = some peer) ∨
      ∃ part ∈ s.consulted, peer ∈ part.2.siblingRefs (levels + part.1) := by
  rw [siblingRefs_eq, List.mem_append, List.mem_filterMap, List.mem_flatMap]

/-- Schemas put in the place of others that read the same siblings in another order leave the
siblings that a schema reads, up to their order. -/
theorem mem_siblingRefs_remade (stamp : Option Nat) {peer : String}
    (hf : ∀ child ∈ s.node.form.schemas, ∀ levels,
      peer ∈ (f child).siblingRefs levels ↔ peer ∈ child.siblingRefs levels)
    (hg : ∀ child ∈ s.node.rules.flatMap Rule.schemas, ∀ levels,
      peer ∈ (g child).siblingRefs levels ↔ peer ∈ child.siblingRefs levels) (levels : Nat) :
    peer ∈ ({ node := s.node.remade f g, stamp } : Schema).siblingRefs levels ↔
    peer ∈ s.siblingRefs levels := by
  obtain ⟨ofRules, ofForm, hconsulted, hremade, hrules, hform⟩ := consulted_remade f g s stamp
  rw [mem_siblingRefs, mem_siblingRefs (s := s), ownReferences_remade, hconsulted, hremade]
  simp only [List.mem_append, or_and_right, exists_or, List.mem_map, exists_exists_and_eq_and,
    Prod.map_fst, Prod.map_snd, id_eq]
  refine or_congr_right (or_congr ?_ ?_)
  · exact exists_congr fun part => and_congr_right fun hpart => hg part.2 (hrules part hpart) _
  · exact exists_congr fun part => and_congr_right fun hpart => hf part.2 (hform part hpart) _

theorem siblingRefs_erase (s : Schema) (levels : Nat) :
    (s.erase keep).siblingRefs levels = s.siblingRefs levels := by
  induction s using inner_induction generalizing levels with
  | h s ih =>
    rw [erase_eq]
    refine siblingRefs_remade (f := erase keep) (g := erase keep) _ (fun child hchild levels => ?_)
      (fun child hchild levels => ?_) levels
    · exact ih child (List.mem_append_right _ hchild) levels
    · exact ih child (List.mem_append_left _ (List.mem_append_right _ hchild)) levels

end Schema

end Conform
