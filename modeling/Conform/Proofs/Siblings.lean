import Conform.Proofs.Indifferent
import Conform.Proofs.Phase

/-!
# References between siblings

The order of children rests on `Schema.siblingRefs`, which goes through a schema in search of
references to siblings. It does not go everywhere where references are resolved: it passes over the
schemas of missing values, of key patterns and of lazy nodes and over the truthy and falsy values of
booleans, takes the schemas given to rules for one level less than they run at, and knows no
references to the root. `Followed` is where it goes, and `Reads` where references are resolved.

The search and the check are described by two relations of the same form, inductive in how they come
from a schema to a schema inside. A reference that the check resolves at some level is found by the
search if the search comes to the same schema at the same level (`Follows`), and it is overlooked
otherwise (`Overlooks`). Both relations are about all that takes part, schemas made by lazy nodes
included, and so nothing that a child reads is left out.

What a child does not read has no bearing on it: two working copies that differ under other keys
only are one to its check (`agree_of_members`). For each child of an object the statement then says
which siblings it reads, and of those which have been checked: all that the search finds, by the
order of the children, and of the others just those that happen to stand in front.

Main statement: `early_references`. A sibling read through a followed reference has been checked;
one read otherwise has been checked only if the order happens to put it first; and no other member
of the object has a bearing on the child.
-/

namespace Conform

/-- The first step of a reference into the object `levels` up, which is the
root if it is outermost. -/
def Reference.stepInto? (r : Reference) (levels : Nat) (outermost : Bool) : Option String :=
  if r.target = .ancestor levels ∨ outermost = true ∧ r.target = .root then r.path.head? else none

/-- What is resolved before a rule runs stands among its references. -/
theorem Rule.mem_references {σ : Type} {kind : Kind} {rule : Rule σ} {r : Reference}
    (h : r ∈ rule.resolved kind) : r ∈ rule.references := by
  unfold Rule.resolved at h
  split at h
  next spec _ =>
    obtain ⟨⟨p, arg⟩, hmem, hr⟩ := List.mem_filterMap.mp h
    dsimp only at hr
    split at hr
    · exact absurd hr (by simp)
    · exact List.mem_filterMap.mpr ⟨arg, (List.of_mem_zip hmem).2, hr⟩
  next => exact absurd h List.not_mem_nil

namespace Schema

/-- The search for references comes by `t`, at the level where `t` runs. -/
inductive Followed (s : Schema) : Nat → Schema → Prop
  | self : Followed s 0 s
  | inner {depth levels : Nat} {t child : Schema} : Followed s depth t →
      (levels, child) ∈ t.consulted → (levels, child) ∈ t.visited →
      Followed s (depth + levels) child

/-- The search finds a reference that is resolved so many levels further in. -/
def Follows (s : Schema) (depth : Nat) (r : Reference) : Prop :=
  ∃ t, Followed s depth t ∧ r ∈ t.ownReferences ∧ .reference r ∈ t.looks

/-- What is found where the search comes by is found by it. -/
theorem Followed.siblingRefs {s t : Schema} {depth levels : Nat}
    (h : Followed s depth t) {key : String}
    (hkey : key ∈ t.siblingRefs (levels + depth)) : key ∈ s.siblingRefs levels := by
  induction h with
  | self => exact hkey
  | @inner depth further t child _ hconsulted _ ih =>
    refine ih ?_
    rw [siblingRefs_eq]
    refine List.mem_append_right _ (List.mem_flatMap.mpr ⟨(further, child), hconsulted, ?_⟩)
    rw [Nat.add_assoc]
    exact hkey

theorem Follows.mem_siblingRefs {s : Schema} {depth levels : Nat} {r : Reference}
    (h : Follows s depth r)
    {key : String} (hkey : r.firstStepAt? (levels + depth) = some key) :
    key ∈ s.siblingRefs levels := by
  obtain ⟨t, ht, hr, -⟩ := h
  refine ht.siblingRefs ?_
  rw [siblingRefs_eq]
  exact List.mem_append_left _ (List.mem_filterMap.mpr ⟨r, hr, hkey⟩)

variable (env : Environment) (outermost : Bool) (s : Schema) (key : String)

/-- A check by `s`, a child's schema, resolves a reference into the child's object whose
first step is the key. -/
def ReadsSibling : Prop :=
  ∃ depth r, Reads env s depth (.reference r) ∧ r.stepInto? (depth + 1) outermost = some key

/-- A check by `s` resolves such a reference, and the search does not find it. -/
def Overlooks : Prop :=
  ∃ depth r, Reads env s depth (.reference r) ∧ r.stepInto? (depth + 1) outermost = some key ∧
    ¬(Follows s depth r ∧ r.target = .ancestor (depth + 1))

/-- A check by `s` looks at the child's object as a whole. -/
def ReadsWhole : Prop :=
  Reads env s 0 .parent ∨ ∃ depth r, Reads env s depth (.reference r) ∧
    (r.target = .ancestor (depth + 1) ∨ outermost = true ∧ r.target = .root) ∧ r.path = []

variable {env outermost s key}

/-- What a child reads is found by the search or overlooked. -/
theorem ReadsSibling.cases (h : s.ReadsSibling env outermost key) :
    key ∈ s.siblingRefs 1 ∨ s.Overlooks env outermost key := by
  obtain ⟨depth, r, hread, hstep⟩ := h
  by_cases hfollows : Follows s depth r ∧ r.target = .ancestor (depth + 1)
  · refine .inl (hfollows.1.mem_siblingRefs ?_)
    unfold Reference.stepInto? at hstep
    unfold Reference.firstStepAt?
    rw [if_pos (.inl hfollows.2)] at hstep
    rw [Nat.add_comm, if_pos hfollows.2]
    exact hstep
  · exact .inr ⟨depth, r, hread, hstep, hfollows⟩

theorem Overlooks.readsSibling (h : s.Overlooks env outermost key) :
    s.ReadsSibling env outermost key := by
  obtain ⟨depth, r, hread, hstep, -⟩ := h
  exact ⟨depth, r, hread, hstep⟩

/-! ### Where nothing is overlooked -/

/-- The node resolves references only where the search looks for them. -/
structure IsMirrored (s : Schema) : Prop where
  empty : s.node.empty = none
  rules : ∀ rule ∈ s.node.rules, rule.schemas = []
  patterns : ∀ f, s.node.form = .object f → f.patterns = []
  booleans : ∀ f, s.node.form = .boolean f → f.truthy.referenceItems ++ f.falsy.referenceItems = []
  notLazy : ∀ f, s.node.form ≠ .lazy f

theorem IsMirrored.ruleSchemas (h : s.IsMirrored) : s.node.rules.flatMap Rule.schemas = [] :=
  List.flatMap_eq_nil_iff.mpr h.rules

theorem IsMirrored.consulted (h : s.IsMirrored) {levels : Nat} {child : Schema}
    (hchild : (levels, child) ∈ s.visited) : (levels, child) ∈ s.consulted := by
  have hpatterns := h.patterns
  unfold Schema.visited Node.visited at hchild
  unfold Schema.consulted
  simp only [h.empty, h.ruleSchemas, Option.toList_none, List.map_nil, List.nil_append] at hchild ⊢
  revert hchild hpatterns
  cases s.node.form with
  | object f =>
    intro hpatterns hchild
    dsimp only [Form.schemas] at hchild
    rw [hpatterns f rfl, List.flatMap_nil, List.append_nil] at hchild
    exact hchild
  | alternatives f => exact fun _ hchild => hchild
  | array f => exact fun _ hchild => hchild
  | _ => exact fun _ hchild => absurd hchild (by simp [Form.schemas])

theorem IsMirrored.ownReferences (h : s.IsMirrored) {r : Reference} (hr : .reference r ∈ s.looks) :
    r ∈ s.ownReferences := by
  unfold Schema.ownReferences
  rcases List.mem_append.mp hr with hresolved | hdefault
  · -- what the rules, the sets and the form resolve
    obtain ⟨r', hin, heq⟩ := List.mem_map.mp hresolved
    obtain rfl : r' = r := Look.reference.inj heq
    rcases List.mem_append.mp hin with hsets | hform
    · refine List.mem_append_left _ (List.mem_append_left _ ?_)
      rcases List.mem_append.mp hsets with hsets | hdenied
      · refine List.mem_append_left _ ?_
        rcases List.mem_append.mp hsets with hrules | hallowed
        · obtain ⟨rule, hrule, hin⟩ := List.mem_flatMap.mp hrules
          exact List.mem_append_left _ (List.mem_flatMap.mpr ⟨rule, hrule, Rule.mem_references hin⟩)
        · exact List.mem_append_right _ hallowed
      · exact List.mem_append_right _ hdenied
    · refine List.mem_append_right _ ?_
      have hbooleans := h.booleans
      revert hform hbooleans
      cases s.node.form with
      | alternatives f => exact fun hform _ => hform
      -- the two values of a boolean that is mirrored are references that are listed too
      | boolean f =>
        intro hform hbooleans
        have hform : r' ∈ f.truthy.referenceItems ++ f.falsy.referenceItems := hform
        rw [hbooleans f rfl] at hform
        exact hform
      | _ => exact fun hform _ => hform
  · -- what stands in for the value
    refine List.mem_append_left _ (List.mem_append_right _ ?_)
    obtain ⟨d, hd, hin⟩ := List.mem_flatMap.mp hdefault
    refine List.mem_filterMap.mpr ⟨d, hd, ?_⟩
    cases d with
    | reference r' =>
      obtain rfl : r = r' := Look.reference.inj (List.mem_singleton.mp hin)
      rfl
    | function name => exact absurd (List.mem_singleton.mp hin) (by simp)
    | _ => exact absurd hin List.not_mem_nil

/-- Where every node is so, every reference is found. -/
theorem follows_of_mirrored (h : s.Everywhere IsMirrored) {depth : Nat} {r : Reference}
    (hr : Reads env s depth (.reference r)) : Follows s depth r := by
  obtain ⟨t, ht, hlook⟩ := hr
  have hfollowed : Followed s depth t ∧ s.Within t := by
    clear hlook
    induction ht with
    | self => exact ⟨.self, .self⟩
    | inner _ hchild ih =>
      exact ⟨.inner ih.1 ((h _ ih.2).consulted hchild) hchild,
        .inner ih.2 (Node.mem_inner_of_visited hchild)⟩
    | made _ hform ih => exact absurd hform ((h _ ih.2).notLazy _)
  exact ⟨t, hfollowed.1, (h t hfollowed.2).ownReferences hlook, hlook⟩

/-! ### What a child does not read -/

/-- Into an object it goes by key, and into nothing where the key is absent. -/
theorem reach_object (members : List (String × Value)) (key : String) (rest : List String) :
    (Value.object members).reach (key :: rest) =
      ((Members.get? members key).getD .undefined).reach rest := by
  have hget : (Value.object members).get? key = Members.get? members key := rfl
  rw [Value.reach, hget]
  cases Members.get? members key with
  | some next => rfl
  | none => cases rest <;> rfl

/-- One value exchanged among those around a check is seen by a reference only that starts from
it: as many levels up as it is, or at the root if nothing stands around it. -/
theorem reach_exchanged (r : Reference) (inside outer : List Value) {v v' : Value}
    (hstep : r.target = .ancestor (inside.length + 1) ∨ outer.isEmpty = true ∧ r.target = .root →
      v'.reach r.path = v.reach r.path)
    (value : Value) (prefs : Preferences) (path : List Segment)
    (adjust : String → Option (Value → Value)) :
    (r.start value ⟨⟨path, inside ++ v' :: outer⟩, prefs, adjust⟩).reach r.path =
      (r.start value ⟨⟨path, inside ++ v :: outer⟩, prefs, adjust⟩).reach r.path := by
  unfold Reference.start
  cases htarget : r.target with
  | context => rfl
  | root =>
    dsimp only [Position.rootValue?]
    rw [List.getLast?_append, List.getLast?_append, List.getLast?_cons, List.getLast?_cons]
    cases outer with
    | nil => exact hstep (.inr ⟨rfl, htarget⟩)
    | cons first rest =>
      rw [List.getLast?_cons]
      rfl
  | ancestor levels =>
    cases levels with
    | zero => rfl
    | succ n =>
      dsimp only [Position.ancestor?]
      -- further in than the value, the value itself, or further out
      rcases Nat.lt_trichotomy n inside.length with hlt | rfl | hgt
      · rw [List.getElem?_append_left hlt, List.getElem?_append_left hlt]
      · rw [List.getElem?_append_right (Nat.le_refl _), List.getElem?_append_right (Nat.le_refl _),
          Nat.sub_self]
        exact hstep (.inl htarget)
      · obtain ⟨further, rfl⟩ : ∃ further, n = inside.length + 1 + further :=
          ⟨n - (inside.length + 1), by omega⟩
        rw [List.getElem?_append_right (by omega), List.getElem?_append_right (by omega)]
        rw [show inside.length + 1 + further - inside.length = further + 1 by omega]
        rfl

/-- Objects that differ only under keys that a child does not read are one to its check. -/
theorem agree_of_members {p : Position} {members members' : List (String × Value)}
    (hwhole : ¬s.ReadsWhole env p.ancestors.isEmpty)
    (hmembers : ∀ key, s.ReadsSibling env p.ancestors.isEmpty key →
      (Members.get? members' key).getD .undefined = (Members.get? members key).getD .undefined)
    (segment : Segment) :
    Agree env s (p.nest segment (.object members)) (p.nest segment (.object members')) := by
  refine ⟨rfl, ?_⟩
  intro depth look hread inside hinside value prefs path
  cases look with
  | parent =>
    -- a look at the whole object, which the child does not take
    cases inside with
    | nil =>
      obtain rfl : 0 = depth := hinside
      exact absurd (.inl hread) hwhole
    | cons parent rest => rfl
  | reference r =>
    subst hinside
    refine congrArg (r.finish _) (reach_exchanged r inside p.ancestors (fun htarget => ?_) ..)
    cases hpath : r.path with
    | nil => exact absurd (.inr ⟨_, r, hread, htarget, hpath⟩) hwhole
    | cons key rest =>
      rw [reach_object, reach_object, hmembers key ⟨_, r, hread, ?_⟩]
      unfold Reference.stepInto?
      rw [if_pos htarget, hpath]
      rfl

end Schema

/-! ### The order in which siblings are read -/

namespace ObjectForm

variable {f : ObjectForm Schema} {check : Check} {site : Site} {p last result : ObjectPass}
  {w w' : Workshop} {visits : List Visit}

/-- When a child is checked, a declared sibling that it reads has been, unless it is read where the
search overlooks it. -/
theorem Checked.reads_early (h : f.Checked check site p w visits last result w') (env : Environment)
    (outermost : Bool) {before after : List Visit} {v : Visit}
    (hvisits : visits = before ++ v :: after)
    {key : String} (hread : v.schema.ReadsSibling env outermost key)
    (hdeclared : key ∈ Members.keys f.children) (hne : key ≠ v.key) :
    (∃ u ∈ before, u.key = key) ∨ v.schema.Overlooks env outermost key := by
  rcases hread.cases with hfound | hoverlooked
  · obtain ⟨u, hu, hkey, -⟩ := h.sees before v after hvisits key hfound hdeclared hne
    exact .inl ⟨u, hu, hkey⟩
  · exact .inr hoverlooked

end ObjectForm

/-- How a child stands to the siblings that it reads, those of `before` having been checked. -/
structure ObjectForm.Reading (f : ObjectForm Schema) (site : Site) (before : List Visit)
    (v : Visit) : Prop where
  /-- The declared siblings that the child reads have been checked if, and only if, those have that
  the search overlooks. -/
  early_iff :
    (∀ key, v.schema.ReadsSibling site.env site.position.ancestors.isEmpty key →
        key ∈ Members.keys f.children → key ≠ v.key → ∃ u ∈ before, u.key = key) ↔
      ∀ key, v.schema.Overlooks site.env site.position.ancestors.isEmpty key →
        key ∈ Members.keys f.children → key ≠ v.key → ∃ u ∈ before, u.key = key
  /-- None is overlooked where nodes resolve references only where the search looks for them,
  and none to the root. -/
  early : v.schema.Everywhere Schema.IsMirrored → ∀ key, v.schema.ReadsSibling site.env false key →
    key ∈ Members.keys f.children → key ≠ v.key → ∃ u ∈ before, u.key = key
  /-- What the child does not read has no bearing on it. -/
  unread : site.env.Steady → ¬v.schema.ReadsWhole site.env site.position.ancestors.isEmpty →
    ∀ fuel members, (∀ key, v.schema.ReadsSibling site.env site.position.ancestors.isEmpty key →
        (Members.get? members key).getD .undefined = v.seen.member key) →
      Matches site.env Eq
        (Check.within site.env fuel v.schema (v.seen.member v.key)
          (site.position.nest (.key v.key) v.seen.value) site.prefs)
        (Check.within site.env fuel v.schema (v.seen.member v.key)
          (site.position.nest (.key v.key) (.object members)) site.prefs)

namespace Schema

/-- In every object that comes of calls and descriptions, a child is checked after the declared
siblings that it reads if, and only if, it is checked after those that the search for references
overlooks. -/
theorem early_references {s t : Schema} (hmade : Made Built s) (hin : s.Within t)
    {f : ObjectForm Schema}
    (hform : t.node.form = .object f) {check : Check} {site : Site} {p result : ObjectPass}
    {w w' : Workshop} (hp : p.stopped = false)
    (hrun : (f.checkChildren check site p).run w = some (result, w')) :
    ∃ visits last, f.Checked check site p w visits last result w' ∧
      ∀ before v after, visits = before ++ v :: after → f.Reading site before v := by
  have hall : s.Everywhere HasOrder :=
    hmade.everywhere ordered_kept fun s ⟨m, registry, hbuild⟩ => Manifest.build_hasOrder hbuild
  obtain ⟨visits, last, hchecked⟩ := (hall t hin f hform).checked hp hrun
  refine ⟨visits, last, hchecked, ?_⟩
  intro before v after hvisits
  -- overlooked references are read, and what is read and not overlooked was checked before
  refine ⟨⟨?_, ?_⟩, ?_, ?_⟩
  · exact fun hearly key hoverlooked => hearly key hoverlooked.readsSibling
  · intro hearly key hread hdeclared hne
    rcases hchecked.reads_early site.env _ hvisits hread hdeclared hne with hdone | hoverlooked
    · exact hdone
    · exact hearly key hoverlooked hdeclared hne
  · intro hmirrored key hread hdeclared hne
    rcases hchecked.reads_early site.env false hvisits hread hdeclared hne with hdone | hoverlooked
    · exact hdone
    · obtain ⟨depth, r, hr, hstep, hnot⟩ := hoverlooked
      refine absurd ⟨follows_of_mirrored hmirrored hr, ?_⟩ hnot
      unfold Reference.stepInto? at hstep
      by_contra htarget
      rw [if_neg (by simp [htarget])] at hstep
      exact absurd hstep (by simp)
  · intro hsteady hwhole fuel members hmembers
    exact Check.check_agree hsteady fuel _ _ _ (agree_of_members hwhole hmembers _)

/-- What counts as missing under `a` is what stands under `b`. -/
def emptiedByPeer : Schema := any.withEmpty (any.valid [.reference (.ofKey "b")])

def emptiedForm : ObjectForm Schema where
  keys := some [("a", emptiedByPeer), ("b", number)]
  order := ["a", "b"]

def emptied : Schema := ofForm (.object emptiedForm)

theorem keys_emptied : object.keys [("a", emptiedByPeer), ("b", number)] = .ok emptied := by
  have hnumber : number.siblingRefs 1 = [] := by
    rw [siblingRefs_eq]
    rfl
  have hpeer : emptiedByPeer.siblingRefs 1 = [] := by
    rw [siblingRefs_eq]
    rfl
  have hgraph : ObjectForm.graph [("a", emptiedByPeer), ("b", number)] = ⟨["a", "b"], []⟩ := by
    unfold ObjectForm.graph
    rw [List.foldl_cons, List.foldl_cons, hnumber, hpeer]
    rfl
  have hset : ObjectForm.setChildren {} [("a", emptiedByPeer), ("b", number)] =
      .ok emptiedForm := by
    refine ObjectForm.setChildren_eq_ok.mpr ⟨_, ?_, rfl⟩
    show (ObjectForm.graph [("a", emptiedByPeer), ("b", number)]).sort = _
    rw [hgraph]
    rfl
  show (ObjectForm.setChildren {} _ >>= _) = _
  rw [hset]
  rfl

theorem made_emptied : Made Built emptied := by
  have hobject : Made Built object := .plain (by simp [plain])
  have hnumber : Made Built number := .plain (by simp [plain])
  have hvalid : Made Built (any.valid [.reference (.ofKey "b")]) := by
    refine .call (.valid [.reference (.ofKey "b")]) Made.any
      (fun _ h => absurd h List.not_mem_nil) ?_ rfl
    intro r hr
    obtain rfl := List.mem_singleton.mp hr
    exact .key "b" '.'
  have hpeer : Made Built emptiedByPeer := by
    refine .call (.empty (any.valid [.reference (.ofKey "b")])) Made.any ?_
      (fun _ h => absurd h List.not_mem_nil) rfl
    intro inner hinner
    obtain rfl := List.mem_singleton.mp hinner
    exact hvalid
  refine .call (.keys [("a", emptiedByPeer), ("b", number)]) hobject ?_
    (fun _ h => absurd h List.not_mem_nil) keys_emptied
  intro inner hinner
  rcases List.mem_cons.mp hinner with rfl | hinner
  · exact hpeer
  · obtain rfl := List.mem_singleton.mp hinner
    exact hnumber

def emptiedMembers : List (String × Value) := [("a", .number 5), ("b", .string "5")]

def emptiedSite : Site := ⟨{}, emptied, .root, {}, .object emptiedMembers⟩

theorem early_references_emptied : ∃ visits last result w',
    emptiedForm.Checked (Check.within {} 3) emptiedSite { members := emptiedMembers }
      {} visits last result w' ∧
      ∀ before v after, visits = before ++ v :: after →
        emptiedForm.Reading emptiedSite before v := by
  have hruns : ((emptiedForm.checkChildren (Check.within {} 3) emptiedSite
      { members := emptiedMembers }).run {}).isSome = true := by
    decide +kernel
  obtain ⟨⟨result, w'⟩, hrun⟩ := Option.isSome_iff_exists.mp hruns
  obtain ⟨visits, last, hchecked⟩ :=
    early_references made_emptied .self (f := emptiedForm) rfl rfl hrun
  exact ⟨visits, last, result, w', hchecked⟩

/-- A child reads a sibling that is checked after it: what the input has there decides, and not what
the sibling's check makes of it. -/
example :
    ((emptied.validate {} (.object emptiedMembers)).run {}).map
      (fun r => (r.1.value.get? "a").isSome) =
      some true ∧
    ((Check.within {} 3 emptiedByPeer (.number 5)
      (Position.root.nest (.key "a") (.object [("a", .number 5), ("b", .number 5)])) {}).run {}).map
      (fun r => r.1.value.isDefined) = some false := by
  decide +kernel

end Schema

end Conform
