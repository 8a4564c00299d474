import Conform.Proofs.ReorderedNode
import Conform.Proofs.WhereaboutsNode

/-!
# What each child reports

Where all failures are collected, a child's check is neither cut short nor repeated because of its
siblings. Children that look up nothing come to what they come to alone, in their order, and what
they report follows one another (`ObjectForm.checkChildren_collects`). Every report points below its
own child, so a child's own reports are found again among all of them by their paths
(`filter_groups`), and what comes after the children is about the object itself or about undeclared
keys (`ObjectForm.Elsewhere`).

A child of an object that collects its failures is checked whatever its siblings came to. What it
sees of them it sees only through references, so a child that looks up nothing comes to what it
would come to by itself, at its key and with its member of the input (`checkChildren_collects`). The
children's reports stand one group after another, and since every report points below the key of its
child, the group of a child can be picked out of all reports by looking at their paths.

What the object reports after its children is about keys that are not declared or about the object
itself. Such reports point at no declared child, nor below one, so they are not picked out with any
of the groups. In this way nothing that a child reports is masked, and nothing is put in its name.

Main statement: `ObjectForm.collecting_masks_no_child`.
-/

namespace Conform

/-! ### Reports by key -/

/-- Whether a report points at the member under a key or below it. -/
def Report.isBelow (path : List Segment) (key : String) (r : Report) : Bool :=
  decide (path ++ [.key key] <+: r.path)

/-- A report below one key is below no other one. -/
theorem Report.isBelow_eq {path : List Segment} {key : String} {r : Report}
    (h : path ++ [.key key] <+: r.path) (other : String) :
    r.isBelow path other = decide (other = key) := by
  unfold isBelow
  by_cases hkey : other = key
  · rw [hkey, decide_eq_true h, decide_eq_true rfl]
  · rw [decide_eq_false hkey, decide_eq_false]
    exact fun hother => hkey (Segment.key.inj (child_eq_of_below h hother))

/-- Of reports in groups, each below its own key, a key finds its group. -/
theorem filter_groups {α : Type} {path : List Segment} {key : α → String} {group : α → List Report}
    {items : List α} (hbelow : ∀ a ∈ items, ∀ r ∈ group a, path ++ [.key (key a)] <+: r.path)
    (hkeys : (items.map key).Nodup) {a : α} (ha : a ∈ items) :
    (items.flatMap group).filter (Report.isBelow path (key a)) = group a := by
  have hown (hin : a ∈ items) : (group a).filter (Report.isBelow path (key a)) = group a := by
    refine List.filter_eq_self.mpr fun r hr => ?_
    rw [Report.isBelow_eq (hbelow a hin r hr), decide_eq_true rfl]
  have hother (b : α) (hb : b ∈ items) (hne : key a ≠ key b) :
      (group b).filter (Report.isBelow path (key a)) = [] := by
    refine List.filter_eq_nil_iff.mpr fun r hr => ?_
    rw [Report.isBelow_eq (hbelow b hb r hr), decide_eq_false hne]
    exact Bool.false_ne_true
  induction items with
  | nil => exact absurd ha List.not_mem_nil
  | cons b rest ih =>
    obtain ⟨hnew, hrest⟩ := List.nodup_cons.mp hkeys
    have hlater (c : α) (hc : c ∈ rest) : c ∈ b :: rest := List.mem_cons_of_mem b hc
    rw [List.flatMap_cons, List.filter_append]
    rcases List.mem_cons.mp ha with rfl | ha
    · -- the own group is whole, and nothing after it has that key
      have hnone : (rest.flatMap group).filter (Report.isBelow path (key a)) = [] := by
        rw [List.filter_flatMap]
        refine List.flatMap_eq_nil_iff.mpr fun c hc => hother c (hlater c hc) fun hsame => hnew ?_
        exact hsame ▸ List.mem_map_of_mem hc
      rw [hown (List.mem_cons_self ..), hnone, List.append_nil]
    · have hne : key a ≠ key b := fun hsame => hnew (hsame ▸ List.mem_map_of_mem ha)
      rw [hother b (List.mem_cons_self ..) hne, List.nil_append]
      exact ih (fun c hc => hbelow c (hlater c hc)) hrest ha (fun hin => hown (hlater a hin))
        fun c hc => hother c (hlater c hc)

namespace ObjectForm

/-! ### The children -/

variable {check : Check} {site : Site} {form : ObjectForm Schema}

/-- What the children report follows one another. -/
theorem reports_takeAll (site : Site) (known : String × Schema → Outcome) (p : ObjectPass)
    (children : List (String × Schema)) :
    (takeAll site known p children).reports = p.reports ++ children.flatMap fun child =>
    (known child).reports := by
  induction children generalizing p with
  | nil => exact (List.append_nil _).symm
  | cons child rest ih =>
    rw [takeAll, List.foldl_cons, ← takeAll, ih, reports_takeChild,
      List.flatMap_cons, List.append_assoc]

/-- Where all failures are collected, every child is checked, with what it has in the input, and all
that they report is there in their order. -/
theorem checkChildren_collects (hordered : form.Ordered)
    (hfixed : ∀ child ∈ form.children, check.Fixed child.2)
    (hcollect : site.prefs.abortEarly = false) {start p : ObjectPass}
    (hstart : start.stopped = false)
    {w w₁ : Workshop} (hrun : (form.checkChildren check site start).run w = some (p, w₁)) :
    (∀ child ∈ form.children, childAnswer check site start child =
      some (known check site start child)) ∧
      p.reports = start.reports ++ form.orderedChildren.flatMap
        (fun child => (known check site start child).reports) ∧
      p.stopped = false := by
  have hin : ∀ child ∈ form.orderedChildren, check.Fixed child.2 := fun child hchild =>
    hfixed child (hordered.mem_orderedChildren.mp hchild)
  have hkeys : Members.Distinct form.orderedChildren := by
    unfold Members.Distinct Members.keys
    rw [hordered.keys_orderedChildren]
    exact hordered.nodup_order
  -- no child ends the check
  have hgoes : Leaves site.env (fun _ => True) (fun q => q.stopped = false)
      (start.forEach (checkChild check site) form.orderedChildren) := by
    refine ObjectPass.forEach_leaves (fun q hgo _ child _ => ?_) hstart
    refine (Leaves.anything _).bind fun o _ => .pure ?_
    rw [stopped_takeChild site child.1 o hgo, hcollect, Bool.and_false]
  obtain ⟨q, w₂, hloop, hdrop⟩ := Runs.bind_some hrun
  obtain ⟨rfl, -⟩ := Runs.pure_some hdrop
  have hgo : q.stopped = false := hgoes.out hloop
  have hsettles := settles_of_forEach hin hkeys hstart hloop hgo
  have hall := forEach_of_settles (w := w) hin hkeys start hstart (fun _ _ => rfl) hsettles
  obtain ⟨rfl, -⟩ := Prod.mk.inj (Option.some.inj (hloop.symm.trans hall))
  refine ⟨fun child hchild => ?_, ?_, ?_⟩
  · obtain ⟨o, hanswer, -⟩ := hsettles child (hordered.mem_orderedChildren.mpr hchild)
    rw [known, hanswer]
    rfl
  · rw [if_neg (by simp [hgo]), (ObjectPass.finds_eraseAll _ _).1, reports_takeAll]
  · rw [if_neg (by simp [hgo]), (ObjectPass.finds_eraseAll _ _).2]
    exact hgo

/-! ### What comes after the children -/

/-- A report about the object itself, or about a key of the input that is not declared. -/
def Elsewhere (site : Site) (form : ObjectForm Schema) (members : List (String × Value))
    (r : Report) : Prop :=
  r.path = site.position.path ∨ ∃ key ∈ Members.keys members, key ∉ Members.keys form.children ∧
    site.position.path ++ [.key key] <+: r.path

/-- Such a report is below no declared child. -/
theorem Elsewhere.isBelow {members : List (String × Value)} {r : Report}
    (h : Elsewhere site form members r)
    {key : String} (hkey : key ∈ Members.keys form.children) :
    r.isBelow site.position.path key = false := by
  rcases h with hpath | ⟨other, -, hother, hbelow⟩
  · refine decide_eq_false fun hbelow => not_above_of_below hbelow ?_
    rw [hpath]
  · rw [Report.isBelow_eq hbelow, decide_eq_false]
    exact fun hsame => hother (hsame ▸ hkey)

/-- Undeclared keys and dependencies only add such reports. -/
theorem afterChildren_adds (h : check.Inside site.env) (form : ObjectForm Schema)
    {members : List (String × Value)} {keys : List String}
    (hkeys : ∀ key ∈ keys, key ∈ Members.keys members ∧ key ∉ Members.keys form.children)
    (p : ObjectPass) : Leaves site.env (fun _ => True) (p.Adds (Elsewhere site form members))
      (do
        let q ← form.checkUnknown check site p keys
        if q.stopped then return q
        return form.checkDependencies site q) := by
  have hunder (key : String) (hkey : key ∈ keys) (r : Report)
      (hr : r.Under (site.position.path ++ [.key key])) : Elsewhere site form members r :=
    .inr ⟨key, (hkeys key hkey).1, (hkeys key hkey).2, hr.below⟩
  refine (checkUnknown_adds (T :=
    Elsewhere site form members) form (fun key hkey t value parent => ?_)
    (fun key hkey q => ?_) p).bind fun q hq => ?_
  · refine (h t value (site.position.nest (.key key) parent) site.prefs).mono fun o ho r hr => ?_
    exact hunder key hkey r (ho r hr)
  · exact hunder key hkey _ (unknownReport_under site q key)
  · split
    · exact .pure hq
    · refine .pure (hq.trans (checkDependencies_adds (fun code value context _ => ?_) form q))
      exact .inl rfl

/-! ### A whole object -/

/-- Where all failures are collected, each declared child reports what it reports alone, with what
the input has under its key and whatever stands around. The children's reports come first, in the
order of the children; after them come those about the object and about keys that it does not
declare. So the reports below a declared key are that child's. -/
theorem collecting_masks_no_child {site : Site} {form : ObjectForm Schema} (hordered : form.Ordered)
    (hrenames : form.renames = [])
    (hchildren : ∀ child ∈ form.children, child.2.Throughout site.env Schema.IsIsolated)
    (hcollect : site.prefs.abortEarly = false) (fuel : Nat) (members : List (String × Value))
    {p : ObjectPass} {w w₁ : Workshop}
    (hrun : (form.checkMembers (Check.within site.env fuel) site members).run w = some (p, w₁)) :
    ∃ (alone : String × Schema → Outcome) (rest : List Report),
      (∀ child ∈ form.children, ∀ ancestors w',
        (Check.within site.env fuel child.2 ((Members.get? members child.1).getD .undefined)
          ⟨site.position.path ++ [.key child.1], ancestors⟩ site.prefs).run w' =
            some (alone child, w')) ∧
      p.reports = form.orderedChildren.flatMap (fun child => (alone child).reports) ++ rest ∧
      (∀ child ∈ form.children,
        p.reports.filter (Report.isBelow site.position.path child.1) = (alone child).reports) ∧
      ∀ r ∈ rest, Elsewhere site form members r := by
  have hfixed : ∀ child ∈ form.children, (Check.within site.env fuel).Fixed child.2 :=
    fun child hchild =>
    Check.within_fixed (hchildren child hchild) fuel
  -- what the object does not declare is judged after the children, and by others
  have hundeclared : ∀ key ∈ (Members.keys members).filter fun key =>
      !(form.orderedChildren.map (·.1)).contains key,
      key ∈ Members.keys members ∧ key ∉ Members.keys form.children := by
    intro key hkey
    rw [List.mem_filter, hordered.keys_orderedChildren] at hkey
    refine ⟨hkey.1, fun hdeclared => ?_⟩
    have hin : key ∈ form.order := hordered.mem_order.mpr hdeclared
    simp [hin] at hkey
  unfold checkMembers at hrun
  rw [hrenames] at hrun
  obtain ⟨q, w₂, hloop, hafter⟩ := Runs.bind_some hrun
  obtain ⟨hanswers, hreports, hgo⟩ := checkChildren_collects hordered hfixed hcollect rfl hloop
  rw [if_neg (by simp [hgo])] at hafter
  obtain ⟨rest, hall, hrest⟩ :=
    (afterChildren_adds (Check.within_inside site.env fuel) form hundeclared q).out hafter
  -- an isolated child comes to one outcome, wherever it is asked and after whatever
  have halone : ∀ child ∈ form.children, ∀ ancestors w',
      (Check.within site.env fuel child.2 ((Members.get? members child.1).getD .undefined)
        ⟨site.position.path ++ [.key child.1], ancestors⟩ site.prefs).run w' =
        some (known (Check.within site.env fuel) site { members } child, w') := by
    intro child hchild ancestors w'
    rw [hfixed child hchild]
    exact congrArg (Option.map (·, w')) (hanswers child hchild)
  refine ⟨known (Check.within site.env fuel) site { members }, rest, halone, ?_,
    fun child hchild => ?_, hrest⟩
  · rw [hall, hreports]
    rfl
  · have hin := hordered.mem_orderedChildren.mpr hchild
    have hnone : rest.filter (Report.isBelow site.position.path child.1) = [] := by
      refine List.filter_eq_nil_iff.mpr fun r hr => ?_
      rw [(hrest r hr).isBelow (List.mem_map_of_mem hchild)]
      exact Bool.false_ne_true
    rw [hall, hreports, List.filter_append, hnone, List.append_nil]
    -- each group lies below its own key, and the keys of the children are distinct
    refine filter_groups (fun other hother r hr => ?_) ?_ hin
    · have hrun := halone other (hordered.mem_orderedChildren.mp hother) [] {}
      exact ((Check.within_inside site.env fuel _ _ _ _).out hrun r hr).below
    · rw [hordered.keys_orderedChildren]
      exact hordered.nodup_order

/-- Two numbers of which only one may be there. -/
def oneOfTwo : ObjectForm Schema :=
  { keys := some [("a", Schema.number), ("b", Schema.number)], order := ["a", "b"],
    dependencies := [{ relation := .nand, peers := ["a", "b"] }] }

/-- Two texts and a key that is not declared. -/
def twoTextsAndMore : List (String × Value) :=
  [("c", .bool true), ("b", .string "y"), ("a", .string "x")]

/-- All failures are to be collected. -/
def collectingSite : Site :=
  ⟨{}, Schema.ofForm (.object oneOfTwo), .root, { abortEarly := false }, .object twoTextsAndMore⟩

/-- Both numbers are reported, though each fails, and a key and a dependency fail as well. -/
theorem collecting_masks_no_child_oneOfTwo : ∃ (p : ObjectPass) (w : Workshop) (o : Outcome),
    (oneOfTwo.checkMembers (Check.within {} 1) collectingSite twoTextsAndMore).run {} =
      some (p, w) ∧
    p.reports.length = 4 ∧
    (Check.within {} 1 Schema.number (.string "y") ⟨[.key "b"], []⟩
      { abortEarly := false }).run {} = some (o, {}) ∧
    p.reports.filter (Report.isBelow [] "b") = o.reports := by
  have hfour :
      ((oneOfTwo.checkMembers (Check.within {} 1) collectingSite twoTextsAndMore).run {}).any
      (fun r => r.1.reports.length == 4) = true := by decide +kernel
  obtain ⟨⟨p, w⟩, hrun, hlength⟩ := (Option.any_eq_true _ _).mp hfour
  have hnumber : Schema.number.Throughout {} Schema.IsIsolated :=
    Schema.isolated_leaf rfl rfl (by decide)
  have hordered : oneOfTwo.Ordered := by
    obtain ⟨f, g, hreordered⟩ := Schema.reordered_twoFields
    obtain rfl := Form.object.inj hreordered.form
    exact hreordered.forms.left.of_same rfl rfl
  have hchildren : ∀ child ∈ oneOfTwo.children,
      child.2.Throughout collectingSite.env Schema.IsIsolated := by
    intro child hchild
    have hboth : child ∈ [("a", Schema.number), ("b", Schema.number)] := hchild
    rcases List.mem_cons.mp hboth with rfl | hlast
    · exact hnumber
    · exact List.mem_singleton.mp hlast ▸ hnumber
  obtain ⟨alone, rest, halone, -, hfilter, -⟩ :=
    collecting_masks_no_child hordered rfl hchildren rfl 1 twoTextsAndMore hrun
  have hb : ("b", Schema.number) ∈ oneOfTwo.children :=
    List.mem_cons_of_mem _ (List.mem_singleton_self _)
  have hget : (Members.get? twoTextsAndMore "b").getD .undefined = .string "y" := by
    simp [twoTextsAndMore, Members.get?]
  have hcheck := halone ("b", Schema.number) hb [] {}
  rw [hget] at hcheck
  exact ⟨p, w, alone ("b", Schema.number), hrun, eq_of_beq hlength, hcheck, hfilter _ hb⟩

end ObjectForm

end Conform
