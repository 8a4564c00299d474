import Conform.Proofs.Restated

/-!
# Schemas as they are filed

An argument of a rule is written as data, and data keeps the members of an object by their keys. So
a schema among the arguments is filed with the children of every object in ascending order, put into
an order of validation anew, and with preferences that went through data as well (`Schema.filed`).
Filing takes nothing away: what stands inside stands inside still (`Schema.everywhere_filed`), and
what is written of the filed schema is what is written of the schema (`Schema.written_filed`).

Filing works on one node at a time, on what is inside first (`Schema.filed_eq`). For a node there
are three things to know. What is written of it does not change, once members are sorted, since data
does not tell in which order they stood. It is as regular as it was: the graph of the children has
the same keys and the same edges, so it can be sorted just if it could before, though the order that
comes of it may be another one (`ObjectForm.Regular.filed`). And the siblings that its children read
stay the same. Each of them goes to all depths by induction on what is inside.

The last part says when filing does nothing at all: where the keys of children ascend already, the
codes of messages too, and contexts come back from data as they were. That is the exact condition
under which an argument comes back unchanged.

Main statements: `ObjectForm.Regular.filed`, by which the children can be put into an order again,
and `Schema.written_filed`.
-/

namespace Conform

open Json Manifest

/-! ### Nodes -/

/-- The children in ascending order of their keys, sorted anew. -/
def ObjectForm.filed (f : ObjectForm Schema) : ObjectForm Schema :=
  { f with
    keys := f.keys.map Order.ascending.arrange
    order := (graph (Order.ascending.arrange f.children)).order }

def Form.filed : Form Schema → Form Schema
  | .object f => .object f.filed
  | form => form

/-- Only the node itself; what is inside stays. -/
def Node.filed (n : Node Schema) : Node Schema :=
  { n with form := n.form.filed, prefs := n.prefs.map (PreferencesPatch.arranged .ascending) }

namespace ObjectForm

variable {f : ObjectForm Schema}

/-- The children of a filed object stand in ascending order. -/
theorem children_filed (f : ObjectForm Schema) :
    f.filed.children = Order.ascending.arrange f.children := by
  unfold children filed
  cases f.keys with
  | none => exact (Order.arrange_nil _).symm
  | some children => rfl

/-- A filed object has the children that the object had. -/
theorem perm_childSchemas_filed (f : ObjectForm Schema) :
    f.filed.childSchemas.Perm f.childSchemas := by
  unfold childSchemas
  rw [children_filed]
  exact (Order.ascending.perm_arrange f.children).map Prod.snd

/-- Children that read the same siblings as before are put into an order again when they are filed:
the order that they had shows that there is one. -/
theorem Regular.filed (hf : f.Regular) {g : Schema → Schema}
    (hg : ∀ child ∈ f.children, ∀ peer, peer ∈ (g child.2).siblingRefs 1 ↔
      peer ∈ child.2.siblingRefs 1) :
    (f.map g).filed.Regular := by
  have hchildren : (f.map g).filed.children =
      mapChildren g (Order.ascending.arrange f.children) := by
    rw [children_filed, children_map]
    exact Order.ascending.arrange_map f.children g
  have hkeys : (Members.keys (f.map g).filed.children).Perm (Members.keys f.children) := by
    rw [hchildren, keys_mapChildren]
    exact Order.ascending.keys_arrange f.children
  have hdistinct : Members.Distinct (f.map g).filed.children := hkeys.nodup_iff.mpr hf.distinct
  obtain ⟨hlisted, hpeers⟩ := graph_spec hf.distinct
  obtain ⟨hlisted', hpeers'⟩ := graph_spec hdistinct
  obtain ⟨hperm, hafter⟩ := KeyGraph.sort_ok (hlisted ▸ hf.distinct) hf.order
  refine ⟨hf.renames, hdistinct, ?_⟩
  -- the old order is one for the filed children as well, so there is an order of theirs
  have hsort : (graph (f.map g).filed.children).sort =
      .ok (graph (f.map g).filed.children).order := by
    have hsame : f.order.Perm (graph (f.map g).filed.children).keys := by
      rw [hlisted']
      rw [hlisted] at hperm
      exact hperm.trans hkeys.symm
    refine KeyGraph.sort_of_order (hlisted' ▸ hdistinct) hsame fun key hkey peer hpeer => ?_
    obtain ⟨child, hchild, hread, hdeclared, hother, hne⟩ := (hpeers' key peer).mp hpeer
    rw [hchildren] at hchild
    obtain ⟨⟨name, old⟩, hold, heq⟩ := List.mem_map.mp hchild
    obtain ⟨rfl, rfl⟩ := Prod.mk.inj heq
    have hold := (Order.ascending.mem_arrange f.children).mp hold
    rw [hkeys.mem_iff] at hdeclared hother
    have hpeer :=
      (hpeers name peer).mpr ⟨old, hold, (hg _ hold peer).mp hread, hdeclared, hother, hne⟩
    exact hafter name (hlisted ▸ hdeclared) peer hpeer
  rw [hsort, children_filed]
  rfl

end ObjectForm

/-- What stands inside a filed form is what stood inside, in another order. -/
theorem Form.perm_schemas_filed (f : Form Schema) : f.filed.schemas.Perm f.schemas := by
  cases f with
  | object f => exact f.perm_childSchemas_filed.append_right _
  | _ => exact .refl _

/-- What stands inside a filed node is what stood inside, in another order. -/
theorem Node.perm_inner_filed (n : Node Schema) : n.filed.inner.Perm n.inner :=
  n.form.perm_schemas_filed.append_left _

/-! ### Written as before -/

namespace Json

/-- Once members are sorted, it does not matter in which order they stood. -/
theorem sorted_of_perm {a b : List (String × Json)}
    (hdistinct : Members.Distinct a) (h : a.Perm b) :
    (Json.object a).sorted = (Json.object b).sorted := by
  have hsorted (members : List (String × Json)) (hmembers : Members.Distinct members) :
      Members.Distinct (sortedMembers members) := by
    unfold Members.Distinct
    rw [sortedMembers_eq, Members.keys_map_values]
    exact hmembers
  have hb : Members.Distinct b := (h.map Prod.fst).nodup_iff.mp hdistinct
  have hperm : (sortedMembers a).Perm (sortedMembers b) := by
    rw [sortedMembers_eq, sortedMembers_eq]
    exact h.map _
  rw [sorted, sorted]
  refine congrArg Json.object
    (Order.eq_of_ascending (ascending_sortMembers _) (ascending_sortMembers _) ?_)
  exact (Order.perm_sortMembers (hsorted a hdistinct)).trans
    (hperm.trans (Order.perm_sortMembers (hsorted b hb)).symm)

/-- Data does not tell in which order members were. -/
theorem sorted_arrange {members : List (String × Json)} (order : Order)
    (h : Members.Distinct members) :
    (Json.object (order.arrange members)).sorted = (Json.object members).sorted :=
  sorted_of_perm (order.distinct_arrange h) (order.perm_arrange members)

end Json

namespace PreferencesPatch

variable {p : PreferencesPatch} {order : Order}

/-- Data does not tell in which order the codes of messages were. -/
theorem sorted_messagesToJson (table : MessageTable) :
    sortedMembers (messagesToJson (table.arranged order)) =
      sortedMembers (messagesToJson table) := by
  have hempty : (table.arranged order).isEmpty = table.isEmpty :=
    (order.perm_arrange table.entries).isEmpty_eq
  unfold messagesToJson
  rw [hempty]
  split
  next => rfl
  next =>
    let write (message : String × String) : String × Json := (message.1, .string message.2)
    have hwritten : Members.Distinct (table.entries.map write) := by
      unfold Members.Distinct
      rw [Members.keys_map_values]
      exact table.distinct
    have hsorted := sorted_arrange order hwritten
    rw [show order.arrange (table.entries.map write) = (order.arrange table.entries).map write from
      order.arrange_map table.entries Json.string] at hsorted
    exact congrArg (fun json => [("messages", json)]) hsorted

/-- A patch is written as before, once members are sorted. -/
theorem sorted_arranged (p : PreferencesPatch) (order : Order) :
    (p.arranged order).toJson.sorted = p.toJson.sorted := by
  rw [← p.toJson_settled]
  have hmessages : sortedMembers (messagesToJson (p.arranged order).messages) =
      sortedMembers (messagesToJson p.settled.messages) := sorted_messagesToJson p.messages
  refine sorted_object ?_
  rw [sortedMembers_append, sortedMembers_append _ (messagesToJson p.settled.messages), hmessages]
  rfl

/-- A patch is settled if its context comes back as it was. -/
theorem settled_of_context (hcontext : ∀ v ∈ p.context, Value.ofJson v.toJson = v) :
    p.settled = p := by
  have hsame : (p.context.map fun v => Value.ofJson v.toJson) = p.context := by
    cases hp : p.context with
    | none => rfl
    | some v => exact congrArg some (hcontext v hp)
  unfold settled
  rw [hsame]

/-- A patch whose codes ascend, and whose context comes back, stays as it is. -/
theorem arranged_of_ascending (hcodes : (Members.keys p.messages.entries).Pairwise (· < ·))
    (hcontext : ∀ v ∈ p.context, Value.ofJson v.toJson = v) : p.arranged order = p := by
  unfold arranged
  rw [MessageTable.arranged_of_ascending hcodes, settled_of_context hcontext]

/-- A patch that came back once comes back. -/
theorem settled_arranged (p : PreferencesPatch) (order : Order) :
    (p.arranged order).settled = p.arranged order := by
  have hcontext : (p.settled.context.map fun v => Value.ofJson v.toJson) = p.settled.context := by
    show ((p.context.map _).map _) = p.context.map _
    rw [Option.map_map]
    exact Option.map_congr fun v _ => congrArg Value.ofJson v.toJson_ofJson_toJson
  exact congrArg (fun context => { p.arranged order with context }) hcontext

/-- A patch that can be asked for is neat once it is arranged. -/
theorem Askable.neat_arranged (h : p.Askable) : (p.arranged .ascending).Neat where
  messages := Order.ascending_arrange p.messages.distinct
  presence := h.presence
  context := by
    intro v hv
    obtain ⟨old, hold, rfl⟩ := Option.map_eq_some_iff.mp (Option.mem_def.mp hv)
    rw [Value.toJson_ofJson_toJson]
    exact h.context old hold

end PreferencesPatch

namespace Manifest

variable {δ : Type} {sheet : Sheet δ}

/-- It is all the same in which order the children of a sheet and the codes
of its messages stood. -/
theorem Sheet.sorted_toJson_arranged (inner : δ → Json) (order : Order)
    (hkeys : ∀ children ∈ sheet.keys, Members.Distinct children) :
    ({ sheet with
        keys := sheet.keys.map order.arrange
        preferences := sheet.preferences.map (PreferencesPatch.arranged order) }.toJson
        inner).sorted =
      (sheet.toJson inner).sorted := by
  -- sorting forgets in which order the children stood
  have hchildren : ∀ children ∈ sheet.keys.toList,
      (Json.object ((order.arrange children).map fun entry => (entry.1, inner entry.2))).sorted =
        (Json.object (children.map fun entry => (entry.1, inner entry.2))).sorted := by
    intro children hin
    have hdistinct : Members.Distinct (children.map fun entry => (entry.1, inner entry.2)) := by
      unfold Members.Distinct
      rw [Members.keys_map_values]
      exact hkeys children (Option.mem_toList.mp hin)
    rw [← order.arrange_map]
    exact sorted_arrange order hdistinct
  have hpatch : ∀ p ∈ sheet.preferences.toList,
      (p.arranged order).toJson.sorted = p.toJson.sorted := fun p _ =>
    p.sorted_arranged order
  let write (children : List (String × δ)) : Json :=
    .object (children.map fun entry => (entry.1, inner entry.2))
  have hkeysMember : sortedMembers (optionalMember "keys" (sheet.keys.map order.arrange) write) =
      sortedMembers (optionalMember "keys" sheet.keys write) := by
    rw [optionalMember_map]
    exact sortedMembers_optionalMember "keys" hchildren
  have hpreferencesMember : sortedMembers (optionalMember "preferences"
      (sheet.preferences.map (PreferencesPatch.arranged order)) PreferencesPatch.toJson) =
      sortedMembers (optionalMember "preferences" sheet.preferences PreferencesPatch.toJson) := by
    rw [optionalMember_map]
    exact sortedMembers_optionalMember "preferences" hpatch
  refine sorted_object ?_
  simp only [sortedMembers_append]
  rw [hkeysMember, hpreferencesMember]

end Manifest

/-- Filing a node puts its children and the codes of its messages in order, and has no bearing on
what else is said of it. -/
theorem Describe.node_filed (inner : Schema → Manifest) (n : Node Schema) :
    node inner n.filed = { node inner n with
      keys := (node inner n).keys.map Order.ascending.arrange
      preferences := (node inner n).preferences.map (PreferencesPatch.arranged .ascending) } := by
  obtain ⟨form, flags, empty, allowed, denied, rules, prefs, notes⟩ := n
  cases form with
  | object f =>
    have hkeys : f.filed.keys.map (mapChildren inner) =
        (f.keys.map (mapChildren inner)).map Order.ascending.arrange := by
      unfold ObjectForm.filed
      rw [Option.map_map, Option.map_map]
      exact Option.map_congr fun children _ => (Order.ascending.arrange_map children inner).symm
    unfold mapChildren at hkeys
    dsimp only [node, form, Node.filed, Form.filed]
    rw [hkeys]
    rfl
  | _ => rfl

/-! ### All the way down -/

namespace Schema

/-- The schema as it is filed, no deeper than `fuel`. -/
def filedWithin : Nat → Schema → Schema
  | 0, s => s
  | fuel + 1, s => { node := (s.node.map (filedWithin fuel)).filed, stamp := s.stamp }

/-- The schema as it is filed: the children of objects in ascending order at every depth. -/
def filed (s : Schema) : Schema := s.filedWithin s.height

theorem filed_eq (s : Schema) :
    s.filed = { node := (s.node.map filed).filed, stamp := s.stamp } := by
  let step (f : Schema → Schema) (s : Schema) : Schema :=
    { node := (s.node.map f).filed, stamp := s.stamp }
  have hmade (fuel : Nat) (s : Schema) : s.filedWithin (fuel + 1) = step (filedWithin fuel) s := rfl
  have hstep (f g : Schema → Schema) (s : Schema) (h : ∀ child ∈ s.inner, f child = g child) :
      step f s = step g s :=
    congrArg (fun n : Node Schema => ({ node := n.filed, stamp := s.stamp } : Schema))
      (Node.map_congr h)
  exact made_eq hmade hstep s

/-- The node of a filed schema holds filed schemas, and is filed. -/
theorem node_filed (s : Schema) : s.filed.node = (s.node.map filed).filed :=
    congrArg node s.filed_eq

/-- What stands inside a filed schema are the filed schemas inside, in another order. -/
theorem perm_inner_filed (s : Schema) : s.filed.inner.Perm (s.inner.map filed) := by
  show s.filed.node.inner.Perm _
  rw [node_filed]
  exact (Node.perm_inner_filed _).trans (.of_eq (Node.inner_map _ _))

/-- What stands inside a filed schema is what stands inside the schema, filed. -/
theorem everywhere_filed {P Q : Schema → Prop} (h : ∀ t, Q t → P t.filed) {s : Schema}
    (hs : s.Everywhere Q) : s.filed.Everywhere P := by
  induction s using inner_induction with
  | h s ih =>
    refine everywhere_iff.mpr ⟨h s hs.self, fun t ht => ?_⟩
    obtain ⟨child, hchild, rfl⟩ := List.mem_map.mp (s.perm_inner_filed.mem_iff.mp ht)
    exact ih child hchild (hs.inner hchild)

/-! ### The siblings that are read -/

/-- What a node consults does not depend on the order of its children. -/
theorem perm_consulted_filed (n : Node Schema) (stamp : Option Nat) :
    ({ node := n.filed, stamp } : Schema).consulted.Perm
      ({ node := n, stamp } : Schema).consulted := by
  obtain ⟨form, flags, empty, allowed, denied, rules, prefs, notes⟩ := n
  refine List.Perm.append_left _ ?_
  cases form with
  | object f => exact f.perm_childSchemas_filed.map _
  | _ => exact .refl _

/-- A filed node has the references it had. -/
theorem ownReferences_filed (n : Node Schema) (stamp : Option Nat) :
    ({ node := n.filed, stamp } : Schema).ownReferences =
      ({ node := n, stamp } : Schema).ownReferences := by
  obtain ⟨form, flags, empty, allowed, denied, rules, prefs, notes⟩ := n
  cases form <;> rfl

/-- A filed schema reads the siblings that the schema reads, if in another order. -/
theorem mem_siblingRefs_filed (s : Schema) (levels : Nat) (peer : String) :
    peer ∈ s.filed.siblingRefs levels ↔ peer ∈ s.siblingRefs levels := by
  induction s using inner_induction generalizing levels with
  | h s ih =>
    have hremade : peer ∈ ({ node := s.node.remade filed filed, stamp := s.stamp } :
        Schema).siblingRefs levels ↔ peer ∈ s.siblingRefs levels :=
      mem_siblingRefs_remade s.stamp
        (fun child hchild levels => ih child (List.mem_append_right _ hchild) levels)
        (fun child hchild levels => ih child (mem_inner_of_rules hchild) levels) levels
    have hcells : ({ node := s.node.map filed, stamp := s.stamp } : Schema).siblingRefs levels =
        ({ node := s.node.remade filed filed, stamp := s.stamp } : Schema).siblingRefs levels := by
      rw [siblingRefs_eq, siblingRefs_eq { node := s.node.remade filed filed, stamp := s.stamp }]
      unfold Node.remade Node.withoutCell ownReferences consulted Node.map
      dsimp only
      cases s.node.form <;> rfl
    rw [← hremade, ← hcells, filed_eq, mem_siblingRefs, mem_siblingRefs, ownReferences_filed]
    simp only [(perm_consulted_filed _ s.stamp).mem_iff]

/-! ### What holds of filed nodes -/

variable {registry : Registry} {s : Schema}

/-- Filing keeps the type. -/
theorem kind_filed (s : Schema) : s.filed.kind = s.kind := by
  unfold kind
  rw [node_filed]
  unfold Node.filed Node.map
  cases s.node.form <;> rfl

/-- A regular schema is regular when it is filed. -/
theorem Regular.filed (hs : s.Regular) : s.filed.Regular := by
  have hform : s.filed.node.form.Regular := by
    have hregular := hs.form
    rw [node_filed]
    unfold Node.filed Node.map
    dsimp only
    cases hcase : s.node.form with
    | alternatives f =>
      rw [hcase] at hregular
      show ∀ r ∈ (f.map Schema.filed).references, r.Restorable
      rw [references_map]
      exact hregular
    | object f =>
      rw [hcase] at hregular
      -- of a regular object the children that are filed can be sorted again
      exact ObjectForm.Regular.filed hregular fun child _ peer =>
        child.2.mem_siblingRefs_filed 1 peer
    | _ =>
      rw [hcase] at hregular
      exact hregular
  refine ⟨?_, ?_, ?_, hform⟩
  · rw [node_filed]
    exact hs.sets
  · rw [node_filed]
    exact hs.flags
  · rw [kind_filed, node_filed]
    exact (s.kind.admits_map Schema.filed s.node.rules).mpr hs.rules

/-- What can be said of a schema can be said of the filed one. -/
theorem Sayable.filed (hs : s.Sayable registry) : s.filed.Sayable registry := by
  rw [filed_eq]
  refine ⟨hs.items, hs.defaults, fun rule hrule arg harg => ?_, ?_, hs.remarks⟩
  · obtain ⟨old, hold, rfl⟩ := List.mem_map.mp hrule
    obtain ⟨given, hgiven, rfl⟩ := List.mem_map.mp harg
    have hsaid := hs.arguments old hold given hgiven
    cases given <;> exact hsaid
  · have hform := hs.form
    unfold Node.filed Node.map
    dsimp only
    cases hcase : s.node.form with
    | alternatives f =>
      rw [hcase] at hform
      show ∀ r ∈ (f.map Schema.filed).references, r.Describable registry
      rw [references_map]
      exact hform
    | _ =>
      rw [hcase] at hform
      exact hform

/-- The preferences of a filed schema went through data. -/
theorem prefs_filed (s : Schema) :
    s.filed.node.prefs = s.node.prefs.map (PreferencesPatch.arranged .ascending) := by
  rw [node_filed]
  rfl

/-- The form of a filed object is that of an object, filed. -/
theorem children_of_filed {f : ObjectForm Schema} (h : s.filed.node.form = .object f) :
    ∃ g, s.node.form = .object g ∧ f = (g.map Schema.filed).filed := by
  rw [node_filed] at h
  have h : (s.node.form.map Schema.filed).filed = .object f := h
  cases hcase : s.node.form with
  | object g =>
    rw [hcase] at h
    exact ⟨g, rfl, (Form.object.inj h).symm⟩
  | _ =>
    rw [hcase] at h
    exact absurd h (by simp [Form.map, Form.filed])

/-- A schema that can be asked for is neat once it is filed. -/
theorem Askable.neat_filed (hs : s.Askable) : s.filed.Neat := by
  refine ⟨fun f hf => ?_, fun p hp => ?_⟩
  · obtain ⟨g, hg, rfl⟩ := children_of_filed hf
    have hdistinct : Members.Distinct (g.map Schema.filed).children := by
      unfold Members.Distinct
      rw [ObjectForm.children_map, keys_mapChildren]
      exact hs.keys g hg
    rw [ObjectForm.children_filed]
    exact Order.ascending_arrange hdistinct
  · rw [prefs_filed] at hp
    obtain ⟨old, hold, rfl⟩ := Option.map_eq_some_iff.mp (Option.mem_def.mp hp)
    exact (hs.preferences old hold).neat_arranged

/-- Preferences that went through data once stay as they are. -/
theorem settled_prefs_filed (s : Schema) :
    s.filed.node.prefs.map PreferencesPatch.settled = s.filed.node.prefs := by
  rw [prefs_filed, Option.map_map]
  exact Option.map_congr fun p _ => p.settled_arranged .ascending

/-- What is written of a filed schema is what is written of the schema, once members are sorted. -/
theorem written_filed (hs : s.Everywhere Askable) :
    s.filed.describe.toJson.sorted = s.describe.toJson.sorted := by
  induction s using inner_induction with
  | h s ih =>
    have hchild (child : Schema) (hchild : child ∈ s.inner) := ih child hchild (hs.inner hchild)
    have hasked := hs.self
    -- the sheet, with what is inside filed; the arguments of its rules are written as they were
    let said : Sheet Manifest :=
      { Describe.node (describe ∘ filed) s.node with
          rules := (Describe.node describe s.node).rules }
    have hsaid : Describe.node describe (s.node.map filed) = said := by
      have hrules : (Describe.node (describe ∘ filed) s.node).rules =
          (Describe.node describe s.node).rules := by
        rw [Build.node_rules, Build.node_rules]
        refine List.map_congr_left fun rule hrule => Describe.rule_congr _ fun child hin => ?_
        exact hchild child (mem_inner_of_rules (List.mem_flatMap.mpr ⟨rule, hrule, hin⟩))
      rw [Describe.node_map]
      exact congrArg (fun rules => { Describe.node (describe ∘ filed) s.node with rules }) hrules
    have hkeys : ∀ children ∈ said.keys, Members.Distinct children :=
      fun children hin => (hasked.tidy (describe ∘ filed)).keys children hin
    have hfiled : s.filed.describe.toJson.sorted = (said.toJson toJson).sorted := by
      rw [describe_eq, node_filed, Describe.node_filed, hsaid, toJson_eq]
      exact Sheet.sorted_toJson_arranged toJson .ascending hkeys
    rw [hfiled, describe_eq, toJson_eq]
    exact Describe.node_written _ fun child hin => hchild child (mem_inner_of_described hin)

/-! ### What filing leaves as it is -/

/-- The children of the node ascend by their keys, and the context of its patch goes
through data unchanged. -/
structure Orderly (s : Schema) : Prop where
  keys : ∀ f, s.node.form = .object f → (Members.keys f.children).Pairwise (· < ·)
  contexts : ∀ p ∈ s.node.prefs, ∀ v ∈ p.context, Value.ofJson v.toJson = v

/-- The codes of the messages in the node's patch ascend. -/
def CodesAscend (s : Schema) : Prop :=
  ∀ p ∈ s.node.prefs, (Members.keys p.messages.entries).Pairwise (· < ·)

/-- Where the keys of children ascend already, filing leaves the order. -/
theorem form_filed_of_keys (hs : s.Regular)
    (hkeys : ∀ f, s.node.form = .object f → (Members.keys f.children).Pairwise (· < ·)) :
    s.filed.node.form = s.node.form.map filed := by
  rw [node_filed]
  show (s.node.form.map filed).filed = s.node.form.map filed
  cases hcase : s.node.form with
  | object f =>
    have hf : f.Regular := by
      have hregular := hs.form
      rw [hcase] at hregular
      exact hregular
    -- children that ascend stay where they are
    have hstay : Order.ascending.arrange (f.map filed).children = (f.map filed).children := by
      refine Order.ascending.arrange_of_ascending ?_
      rw [ObjectForm.children_map, keys_mapChildren]
      exact hkeys f hcase
    have hlist : (f.map filed).filed.keys = (f.map filed).keys := by
      unfold ObjectForm.children at hstay
      show (f.map filed).keys.map Order.ascending.arrange = _
      cases hdeclared : (f.map filed).keys with
      | none => rfl
      | some children =>
        rw [hdeclared] at hstay
        exact congrArg some hstay
    -- filed children read the same siblings, so they are sorted alike
    have horder : (f.map filed).filed.order = f.order := by
      obtain ⟨hlisted, hpeers⟩ :=
        ObjectForm.peers_mapChildren hf.distinct fun child _ peer =>
          child.2.mem_siblingRefs_filed 1 peer
      have hsort := KeyGraph.sort_congr hlisted hpeers hf.order
      show (ObjectForm.graph (Order.ascending.arrange (f.map filed).children)).order = _
      rw [hstay, ObjectForm.children_map]
      exact (KeyGraph.sort_eq_ok hsort).2
    show Form.object { f.map filed with
        keys := (f.map filed).filed.keys, order := (f.map filed).filed.order } = _
    rw [hlist, horder]
    rfl
  | _ => rfl

/-- Where the keys of children ascend already, what stands inside keeps its order. -/
theorem inner_filed_of_keys (hs : s.Regular)
    (hkeys : ∀ f, s.node.form = .object f → (Members.keys f.children).Pairwise (· < ·)) :
    s.filed.inner = s.inner.map filed := by
  have hinner : (s.node.map filed).inner = s.node.inner.map filed := Node.inner_map filed s.node
  have hform := form_filed_of_keys hs hkeys
  rw [node_filed] at hform
  show s.filed.node.inner = _
  rw [node_filed]
  refine Eq.trans ?_ hinner
  exact congrArg (fun form : Form Schema => (s.node.map filed).empty.toList ++
    (s.node.map filed).rules.flatMap Rule.schemas ++ form.schemas) hform

/-- Preferences that data keeps are left by filing. -/
theorem prefs_filed_of_contexts (hs : s.Orderly) (hcodes : s.CodesAscend) :
    s.filed.node.prefs = s.node.prefs := by
  rw [prefs_filed]
  cases hprefs : s.node.prefs with
  | none => rfl
  | some p =>
    exact congrArg some
      (PreferencesPatch.arranged_of_ascending (hcodes p hprefs) (hs.contexts p hprefs))

/-- Filing such a node is filing what is inside. -/
theorem node_filed_of_orderly (hregular : s.Regular) (hs : s.Orderly) (hcodes : s.CodesAscend) :
    s.filed.node = s.node.map filed := by
  have hform := form_filed_of_keys hregular hs.keys
  have hprefs := prefs_filed_of_contexts hs hcodes
  rw [node_filed] at hform hprefs ⊢
  show ({ s.node.map filed with
      form := (s.node.map filed).filed.form, prefs := (s.node.map filed).filed.prefs } :
    Node Schema) = _
  rw [hform, hprefs]
  rfl

/-- Only such a node comes out of filing as it went in. -/
theorem orderly_of_filed_bare (hs : s.Askable) (h : s.filed.bare = s.bare) :
    s.Orderly ∧ s.CodesAscend := by
  have hnode : (s.filed.node.map bare).withoutCell = (s.node.map bare).withoutCell := by
    have hnodes := congrArg node h
    rw [bare, bare, node_erase, node_erase] at hnodes
    exact hnodes
  have hpatch : ∀ p ∈ s.node.prefs, p.arranged .ascending = p := by
    intro p hp
    have hprefs := congrArg Node.prefs hnode
    have hprefs : s.filed.node.prefs = s.node.prefs := hprefs
    rw [prefs_filed, Option.mem_def.mp hp] at hprefs
    exact Option.some.inj hprefs
  refine ⟨⟨fun f hf => ?_, fun p hp v hv => ?_⟩, fun p hp => ?_⟩
  · -- after filing the keys ascend, and the keys are those of before
    have hforms := congrArg Node.form hnode
    rw [node_filed] at hforms
    have hforms : (((s.node.form.map filed).filed).map bare).withoutCell =
        (s.node.form.map bare).withoutCell := hforms
    rw [hf] at hforms
    have hsame := congrArg Members.keys (congrArg ObjectForm.children (Form.object.inj hforms))
    rw [ObjectForm.children_map, ObjectForm.children_map, keys_mapChildren, keys_mapChildren,
      ObjectForm.children_filed] at hsame
    rw [← hsame]
    refine Order.ascending_arrange ?_
    unfold Members.Distinct
    rw [ObjectForm.children_map, keys_mapChildren]
    exact hs.keys f hf
  · have hcontext := congrArg PreferencesPatch.context (hpatch p hp)
    have hcontext : p.context.map (fun v => Value.ofJson v.toJson) = p.context := hcontext
    rw [Option.mem_def.mp hv] at hcontext
    exact Option.some.inj hcontext
  · have hmessages := congrArg PreferencesPatch.messages (hpatch p hp)
    have hmessages : Order.ascending.arrange p.messages.entries = p.messages.entries :=
      congrArg MessageTable.entries hmessages
    rw [← hmessages]
    exact Order.ascending_arrange p.messages.distinct

/-- A schema comes out of filing as it went in, marks apart, exactly if its children ascend at every
depth, and so do the codes of messages, and contexts go through data unchanged. -/
theorem filed_bare_iff (hregular : s.Everywhere Regular) (hasked : s.Everywhere Askable) :
    s.filed.bare = s.bare ↔ s.Everywhere fun t => t.Orderly ∧ t.CodesAscend := by
  induction s using inner_induction with
  | h s ih =>
    have ih (child : Schema) (hchild : child ∈ s.inner) :=
      ih child hchild (hregular.inner hchild) (hasked.inner hchild)
    constructor
    · intro h
      obtain ⟨horderly, hcodes⟩ := orderly_of_filed_bare hasked.self h
      have hinner : s.inner.map (bare ∘ filed) = s.inner.map bare := by
        have hinners := congrArg inner h
        rw [bare, bare, inner_erase, inner_erase, inner_filed_of_keys hregular.self horderly.keys,
          List.map_map] at hinners
        exact hinners
      refine everywhere_iff.mpr ⟨⟨horderly, hcodes⟩, fun child hchild => ?_⟩
      exact (ih child hchild).mp (List.map_inj_left.mp hinner child hchild)
    · intro h
      have hnode := node_filed_of_orderly hregular.self h.self.1 h.self.2
      have hmap : s.node.map (bare ∘ filed) = s.node.map bare :=
        Node.map_congr fun child hchild => (ih child hchild).mpr (h.inner hchild)
      rw [bare, bare, erase_eq, erase_eq false s, hnode, Node.map_map]
      exact congrArg (fun n : Node Schema => ({ node := n.withoutCell, stamp := _ } : Schema)) hmap

/-! ### Marks -/

theorem form_filed_bare (f : ObjectForm Schema) : f.filed.map bare = (f.map bare).filed := by
  have harrange (children : List (String × Schema)) :
      mapChildren bare (Order.ascending.arrange children) =
      Order.ascending.arrange (mapChildren bare children) :=
    (Order.ascending.arrange_map children bare).symm
  have hkeys : (f.filed.map bare).keys = (f.map bare).filed.keys := by
    show (f.keys.map Order.ascending.arrange).map (mapChildren bare) =
      (f.keys.map (mapChildren bare)).map Order.ascending.arrange
    rw [Option.map_map, Option.map_map]
    exact Option.map_congr fun children _ => harrange children
  have horder : f.filed.order = (f.map bare).filed.order := by
    refine congrArg KeyGraph.order ?_
    rw [ObjectForm.children_map, ← harrange]
    exact (ObjectForm.graph_mapChildren_erase _).symm
  show ({ f.map bare with keys := (f.filed.map bare).keys, order := f.filed.order } :
    ObjectForm Schema) = _
  rw [hkeys, horder]
  rfl

/-- Taking marks away and filing may be exchanged. -/
theorem node_filed_bare (n : Node Schema) :
    (n.filed.map bare).withoutCell = (n.map bare).withoutCell.filed := by
  have hform : (n.form.filed.map bare).withoutCell = (n.form.map bare).withoutCell.filed := by
    cases n.form with
    | object f => exact congrArg Form.object (form_filed_bare f)
    | _ => rfl
  exact congrArg
    (fun form : Form Schema => ({ (n.map bare).withoutCell.filed with form } : Node Schema)) hform

theorem eq_of_node {s t : Schema} (hnode : s.node = t.node)
    (hstamp : s.stamp = t.stamp) : s = t := by
  obtain ⟨n, stamp⟩ := s
  obtain ⟨m, other⟩ := t
  obtain rfl : n = m := hnode
  obtain rfl : stamp = other := hstamp
  rfl

/-- Marks have no bearing on how a schema is filed. -/
theorem bare_filed (s : Schema) : s.filed.bare = s.bare.filed := by
  induction s using inner_induction with
  | h s ih =>
    have hmap : s.node.map (bare ∘ filed) = s.node.map (filed ∘ bare) :=
      Node.map_congr fun child hchild => ih child hchild
    have hleft : s.filed.bare.node = (s.node.map (bare ∘ filed)).withoutCell.filed := by
      rw [bare, node_erase, node_filed, ← Node.map_map]
      exact node_filed_bare _
    have hright : s.bare.filed.node = (s.node.map (filed ∘ bare)).withoutCell.filed := by
      rw [node_filed, bare, node_erase, Node.map_withoutCell, Node.map_map]
      rfl
    have hnode : s.filed.bare.node = s.bare.filed.node := by rw [hleft, hright, hmap]
    have hstamp : s.filed.bare.stamp = s.bare.filed.stamp := by
      rw [bare, erase_eq, filed_eq (bare s), bare, erase_eq]
      rfl
    exact eq_of_node hnode hstamp

end Schema

end Conform
