import Conform.Check.Node
import Conform.Proofs.Built
import Conform.Proofs.Runs

/-!
# The phase of declared children

The children of an object are checked one after another over a working copy of its members.
A `Phase` is the record of such a run: which child was checked when, what stood around it,
and what came of it. It follows the children in their order, and breaks off only after a
failure that settles the check.

What a child that passed left under its key stays there until the phase is over
(`Phase.member_of_visited`), because every later child writes under its own key only. So a child
that references a sibling sees the sibling's final value.

The record is what the theorems about children are read off from. Each visit in it has the working
copy as the child found it, and the copies before and after are related by what one child does: it
writes, or erases, under its own key, and adds reports (`member_takeChild`, `member_takeChild_ne`).
So between two visits only keys of children in between are written under, and before its own visit a
key has the member that it had at the start.

Children that are to be stripped keep their value until the end of the phase. Siblings that are
checked later see it, and where the first failure settles the check it is not dropped at all, as the
check ends before that. The theorem on objects puts this together with the order of children, which
has every child after the siblings that its schema reads through references.

Main statement: `children_in_order`.
-/

namespace Conform

theorem Value.eq_undefined {v : Value} (h : v.isDefined = false) : v = .undefined := by
  cases v with
  | undefined => rfl
  | _ => exact absurd h (by simp [Value.isDefined])

/-- One child as it is checked. -/
structure Visit where
  key : String
  schema : Schema
  /-- The working copy, which the child sees as its parent. -/
  seen : ObjectPass
  outcome : Outcome

namespace Visit

def child (v : Visit) : String × Schema := (v.key, v.schema)

/-- Whether the child's value is to be dropped. -/
def isStripped (v : Visit) : Bool := v.outcome.isOk && v.outcome.strip

end Visit

/-- Children checked one after another, each on what the one before it left. -/
inductive Phase (check : Check) (site : Site) :
    ObjectPass → Workshop → List Visit → ObjectPass → Workshop → Prop
  | done {p : ObjectPass} {w : Workshop} : Phase check site p w [] p w
  | visit {p last : ObjectPass} {w w₁ w₂ : Workshop} {key : String} {schema : Schema}
      {outcome : Outcome} {visits : List Visit} :
      p.stopped = false →
      (check schema (p.member key) (site.position.nest (.key key) p.value) site.prefs).run w =
        some (outcome, w₁) →
      Phase check site (ObjectForm.takeChild site p key outcome) w₁ visits last w₂ →
      Phase check site p w (⟨key, schema, p, outcome⟩ :: visits) last w₂

namespace ObjectPass

@[simp] theorem member_write (p : ObjectPass) (key : String) (value : Value) :
    (p.write key value).member key = value := by
  unfold write member
  rw [Members.get?_insert, if_pos rfl]
  rfl

theorem member_write_ne (p : ObjectPass) {key other : String} (h : key ≠ other) (value : Value) :
    (p.write key value).member other = p.member other := by
  unfold write member
  rw [Members.get?_insert, if_neg h]

@[simp] theorem member_erase (p : ObjectPass) (key : String) :
    (p.erase key).member key = .undefined := by
  unfold erase member
  rw [Members.get?_erase, if_pos rfl]
  rfl

theorem member_erase_ne (p : ObjectPass) {key other : String} (h : key ≠ other) :
    (p.erase key).member other = p.member other := by
  unfold erase member
  rw [Members.get?_erase, if_neg h]

/-- Once ended, a check takes no further step. -/
theorem forEach_stopped {α : Type} {m : Type → Type} [Monad m]
    {step : ObjectPass → α → m ObjectPass}
    {p : ObjectPass} (h : p.stopped = true) (items : List α) : p.forEach step items = pure p := by
  cases items with
  | nil => rfl
  | cons first rest =>
    unfold forEach
    rw [if_pos h]

theorem member_of_not_contains (p : ObjectPass) {key : String}
    (h : Members.contains p.members key = false) : p.member key = .undefined := by
  unfold member
  cases hget : Members.get? p.members key with
  | none => rfl
  | some v => exact absurd h (by simp [Members.contains, hget])

theorem member_fail (p : ObjectPass) (site : Site) (reports : List Report) (key : String) :
    (p.fail site reports).member key = p.member key := by
  unfold fail
  split <;> rfl

theorem contains_eraseAll (keys : List String) (p : ObjectPass) {key : String}
    (h : key ∈ keys ∨ Members.contains p.members key = false) :
    Members.contains (p.eraseAll keys).members key = false := by
  induction keys generalizing p with
  | nil => exact h.resolve_left List.not_mem_nil
  | cons first rest ih =>
    refine ih (p.erase first) ?_
    have hget := Members.get?_erase p.members first key
    by_cases heq : first = key
    · rw [if_pos heq] at hget
      refine .inr ?_
      show (Members.get? (Members.erase p.members first) key).isSome = false
      rw [hget]
      rfl
    · rw [if_neg heq] at hget
      rcases h with hmem | hnone
      · exact .inl ((List.mem_cons.mp hmem).resolve_left (Ne.symm heq))
      · refine .inr ?_
        show (Members.get? (Members.erase p.members first) key).isSome = false
        rw [hget]
        exact hnone

end ObjectPass

namespace ObjectForm

/-- A child touches nothing but its own key. -/
theorem member_takeChild_ne (site : Site) (p : ObjectPass) {key other : String} (h : key ≠ other)
    (outcome : Outcome) : (takeChild site p key outcome).member other = p.member other := by
  unfold takeChild keepChild
  split
  · exact p.member_fail site _ other
  · split
    · dsimp only
      split
      · exact ObjectPass.member_write_ne _ h _
      · rfl
    · split
      · exact p.member_write_ne h _
      · split
        · exact p.member_erase_ne h
        · rfl

/-- A child that passes leaves its value under its key, whether or not it is to be stripped. -/
theorem member_takeChild (site : Site) (p : ObjectPass) (key : String) {outcome : Outcome}
    (h : outcome.isOk = true) : (takeChild site p key outcome).member key = outcome.value := by
  unfold takeChild keepChild
  rw [if_neg (by simp [h])]
  split
  · dsimp only
    split
    · exact ObjectPass.member_write _ key _
    next hnone =>
      -- nothing was there, and nothing came of it
      rw [Bool.or_eq_true, not_or, Bool.not_eq_true, Bool.not_eq_true] at hnone
      rw [Value.eq_undefined hnone.2]
      exact p.member_of_not_contains hnone.1
  · split
    · exact p.member_write key _
    next hundefined =>
      rw [Bool.not_eq_true] at hundefined
      rw [Value.eq_undefined hundefined]
      split
      · exact p.member_erase key
      next habsent =>
        rw [Bool.not_eq_true] at habsent
        exact Value.eq_undefined habsent

/-- What is to be stripped grows by the child if it passed and is to be. -/
theorem stripped_takeChild (site : Site) (p : ObjectPass) (key : String) (outcome : Outcome) :
    (takeChild site p key outcome).stripped =
      p.stripped ++ if outcome.isOk && outcome.strip then [key] else [] := by
  unfold takeChild keepChild
  cases hok : outcome.isOk with
  | false =>
    simp only [Bool.not_false, if_true, Bool.false_and, Bool.false_eq_true,
      if_false, List.append_nil]
    unfold ObjectPass.fail
    split <;> rfl
  | true =>
    cases hstrip : outcome.strip with
    | true =>
      simp only [Bool.not_true, Bool.false_eq_true, if_false, if_true, Bool.and_self]
      split <;> rfl
    | false =>
      simp only [Bool.not_true, Bool.false_eq_true, if_false, Bool.and_false, List.append_nil]
      split
      · rfl
      · split <;> rfl

/-- A child that passes adds no report and does not end the check. -/
theorem keepChild_same (p : ObjectPass) (key : String) (o : Outcome) :
    (keepChild p key o).reports = p.reports ∧ (keepChild p key o).stopped = p.stopped := by
  unfold keepChild
  split
  · dsimp only
    split <;> exact ⟨rfl, rfl⟩
  · split
    · exact ⟨rfl, rfl⟩
    · split <;> exact ⟨rfl, rfl⟩

/-- A child ends the phase by failing where the first failure settles the
check, and not otherwise. -/
theorem stopped_takeChild (site : Site) {p : ObjectPass} (key : String) (outcome : Outcome)
    (hp : p.stopped = false) :
    (takeChild site p key outcome).stopped = (!outcome.isOk && site.prefs.abortEarly) := by
  unfold takeChild
  cases hok : outcome.isOk with
  | false =>
    have hreports : outcome.reports.isEmpty = false := hok
    simp only [Bool.not_false, if_true, Bool.true_and, ObjectPass.fail,
      hreports, Bool.false_eq_true, if_false]
  | true =>
    simp only [Bool.not_true, Bool.false_eq_true, if_false, Bool.false_and]
    exact (keepChild_same p key outcome).2.trans hp

end ObjectForm

namespace Phase

variable {check : Check} {site : Site} {p last : ObjectPass} {w w' : Workshop} {visits : List Visit}

/-- Keys without a visit keep their member. -/
theorem member_of_unvisited (h : Phase check site p w visits last w') {key : String}
    (hkey : key ∉ visits.map Visit.key) : last.member key = p.member key := by
  induction h with
  | done => rfl
  | @visit p last w w₁ w₂ first schema outcome visits hstop hrun hrest ih =>
    rw [List.map_cons, List.mem_cons, not_or] at hkey
    rw [ih hkey.2]
    exact ObjectForm.member_takeChild_ne site p (Ne.symm hkey.1) outcome

/-- A record breaks at every visit, where the working copy is what that child saw. -/
theorem split {before after : List Visit} {v : Visit}
    (h : Phase check site p w (before ++ v :: after) last w') :
    ∃ w₁ w₂, Phase check site p w before v.seen w₁ ∧
      (check v.schema (v.seen.member v.key) (site.position.nest (.key v.key) v.seen.value)
        site.prefs).run w₁ = some (v.outcome, w₂) ∧
      Phase check site (ObjectForm.takeChild site v.seen v.key v.outcome) w₂ after last w' := by
  induction before generalizing p w with
  | nil =>
    cases h with
    | visit hstop hrun hrest => exact ⟨w, _, .done, hrun, hrest⟩
  | cons first before ih =>
    cases h with
    | visit hstop hrun hrest =>
      obtain ⟨w₁, w₂, hbefore, hcheck, hafter⟩ := ih hrest
      exact ⟨w₁, w₂, .visit hstop hrun hbefore, hcheck, hafter⟩

/-- What a child that passed left under its key is still there at the end. -/
theorem member_of_visited (h : Phase check site p w visits last w')
    (hdistinct : (visits.map Visit.key).Nodup) {v : Visit} (hv : v ∈ visits)
    (hok : v.outcome.isOk = true) : last.member v.key = v.outcome.value := by
  obtain ⟨before, after, rfl⟩ := List.append_of_mem hv
  obtain ⟨w₁, w₂, -, -, hafter⟩ := h.split
  have hkey : v.key ∉ after.map Visit.key := by
    rw [List.map_append, List.map_cons] at hdistinct
    exact (List.nodup_cons.mp (List.nodup_append.mp hdistinct).2.1).1
  rw [hafter.member_of_unvisited hkey]
  exact ObjectForm.member_takeChild site v.seen v.key hok

theorem stripped_eq (h : Phase check site p w visits last w') :
    last.stripped = p.stripped ++ (visits.filter Visit.isStripped).map Visit.key := by
  induction h with
  | done => exact (List.append_nil _).symm
  | @visit p last w w₁ w₂ key schema outcome visits hstop hrun hrest ih =>
    rw [ih, ObjectForm.stripped_takeChild, List.append_assoc, List.filter_cons]
    show _ = p.stripped ++ List.map Visit.key
      (if (outcome.isOk && outcome.strip) = true then _ else _)
    split <;> rfl

/-- A record is one of a run of the children that it is about, which ends early only after a failure
that settles the check. -/
theorem of_forEach {children : List (String × Schema)} (hp : p.stopped = false)
    (h : (p.forEach (ObjectForm.checkChild check site) children).run w = some (last, w')) :
    ∃ visits rest, children = visits.map Visit.child ++ rest ∧ Phase check site p w visits last w' ∧
      (last.stopped = false → rest = []) ∧
      (last.stopped = true → site.prefs.abortEarly = true ∧
        ∃ v ∈ visits.getLast?, v.outcome.isOk = false) := by
  induction children generalizing p w with
  | nil =>
    obtain ⟨rfl, rfl⟩ := Runs.pure_some h
    exact ⟨[], [], rfl, .done, fun _ => rfl, fun hstop => absurd hstop (by simp [hp])⟩
  -- the first child: the rest is skipped if it stops the phase
  | cons child rest ih =>
    obtain ⟨key, schema⟩ := child
    unfold ObjectPass.forEach at h
    rw [if_neg (by simp [hp])] at h
    obtain ⟨next, w₁, hchild, hrest⟩ := Runs.bind_some h
    obtain ⟨outcome, w₂, hrun, hnext⟩ := Runs.bind_some hchild
    obtain ⟨rfl, rfl⟩ := Runs.pure_some hnext
    have hstopped := ObjectForm.stopped_takeChild site key outcome hp
    cases hstop : (ObjectForm.takeChild site p key outcome).stopped with
    | true =>
      rw [ObjectPass.forEach_stopped hstop] at hrest
      obtain ⟨rfl, rfl⟩ := Runs.pure_some hrest
      rw [hstop, Eq.comm, Bool.and_eq_true, Bool.not_eq_true'] at hstopped
      exact ⟨[⟨key, schema, p, outcome⟩], rest, rfl, .visit hp hrun .done,
        fun hgoes => absurd hgoes (by simp [hstop]), fun _ => ⟨hstopped.2, _, rfl, hstopped.1⟩⟩
    | false =>
      obtain ⟨visits, left, rfl, hphase, hgoes, hends⟩ := ih hstop hrest
      refine ⟨⟨key, schema, p, outcome⟩ :: visits, left, rfl, .visit hp hrun hphase, hgoes, ?_⟩
      intro hlast
      obtain ⟨hearly, v, hv, hfail⟩ := hends hlast
      refine ⟨hearly, v, ?_, hfail⟩
      rw [List.getLast?_cons, Option.mem_def.mp hv]
      rfl

end Phase

namespace ObjectForm

theorem mem_of_pair_sublist {a b : String} {before after : List String}
    (hnodup : (before ++ b :: after).Nodup) (h : [a, b].Sublist (before ++ b :: after)) :
    a ∈ before := by
  have hb : b ∉ after := (List.nodup_cons.mp (List.nodup_append.mp hnodup).2.1).1
  obtain ⟨front, back, hsplit, hfront, hback⟩ := List.sublist_append_iff.mp h
  cases front with
  | nil =>
    obtain rfl : [a, b] = back := hsplit
    have hin : b ∈ after := by
      cases hback with
      | cons _ hrest => exact hrest.subset (List.mem_cons_of_mem _ (List.mem_singleton_self _))
      | cons_cons _ hrest => exact hrest.subset (List.mem_singleton_self _)
    exact absurd hin hb
  | cons first front =>
    obtain rfl : a = first := (List.cons.inj hsplit).1
    exact hfront.subset (List.mem_cons_self ..)

/-- What the phase of declared children did, and how it ended. -/
structure Checked (f : ObjectForm Schema) (check : Check) (site : Site) (p : ObjectPass)
    (w : Workshop) (visits : List Visit) (last result : ObjectPass) (w' : Workshop) : Prop where
  phase : Phase check site p w visits last w'
  /-- The children are taken in their order. -/
  inOrder : visits.map Visit.child <+: f.orderedChildren
  /-- No child is checked twice. -/
  once : (visits.map Visit.key).Nodup
  /-- A child sees, under the key of any sibling that it references, what came of that sibling. -/
  sees : ∀ before v after, visits = before ++ v :: after →
    ∀ peer ∈ v.schema.siblingRefs 1, peer ∈ Members.keys f.children → peer ≠ v.key →
      ∃ u ∈ before, u.key = peer ∧ (u.outcome.isOk = true → v.seen.member peer = u.outcome.value)
  /-- All children are checked unless a failure settles the check. -/
  all : last.stopped = false → (visits.map Visit.child).Perm f.children
  /-- Then those to be stripped are gone. -/
  drops : last.stopped = false → result = last.eraseAll last.stripped ∧
    ∀ v ∈ visits, v.isStripped = true → Members.contains result.members v.key = false
  /-- After a failure that settles the check nothing more happens. -/
  ends : last.stopped = true → result = last ∧ site.prefs.abortEarly = true ∧
    ∃ v ∈ visits.getLast?, v.outcome.isOk = false

variable {f : ObjectForm Schema} {check : Check} {site : Site} {p result : ObjectPass}
  {w w' : Workshop}

/-- The phase over children that are in order. -/
theorem Ordered.checked (hf : f.Ordered) (hp : p.stopped = false)
    (h : (f.checkChildren check site p).run w = some (result, w')) :
    ∃ visits last, f.Checked check site p w visits last result w' := by
  obtain ⟨last, w₁, heach, hresult⟩ := Runs.bind_some h
  obtain ⟨hvalue, rfl⟩ := Runs.pure_some hresult
  obtain ⟨visits, rest, hsplit, hphase, hgoes, hends⟩ := Phase.of_forEach hp heach
  -- what was visited is the front of the order
  have hkeys : visits.map Visit.key ++ rest.map (·.1) = f.order := by
    rw [← hf.keys_orderedChildren, hsplit, List.map_append, List.map_map]
    rfl
  have honce : (visits.map Visit.key).Nodup := by
    have hnodup := hf.nodup_order
    rw [← hkeys] at hnodup
    exact (List.nodup_append.mp hnodup).1
  refine ⟨visits, last, hphase, ⟨rest, hsplit.symm⟩, honce, ?_, ?_, ?_, ?_⟩
  · -- a peer that is declared stands in front, so it was visited before
    rintro before v after rfl peer hpeer hdeclared hne
    have hchild : v.child ∈ f.orderedChildren := by
      rw [hsplit]
      refine List.mem_append_left _ (List.mem_map_of_mem ?_)
      exact List.mem_append_right _ (List.mem_cons_self ..)
    have hafter :=
      hf.after v.key v.schema peer (hf.mem_orderedChildren.mp hchild) hpeer hdeclared hne
    have hplace : f.order = before.map Visit.key ++ v.key ::
        (after.map Visit.key ++ rest.map (·.1)) := by
      rw [← hkeys, List.map_append, List.map_cons, List.append_assoc]
      rfl
    have hearlier : peer ∈ before.map Visit.key :=
      mem_of_pair_sublist (hplace ▸ hf.nodup_order) (hplace ▸ hafter)
    obtain ⟨u, hu, rfl⟩ := List.mem_map.mp hearlier
    obtain ⟨w₁, w₂, hbefore, -, -⟩ := hphase.split
    rw [List.map_append] at honce
    exact ⟨u, hu, rfl, hbefore.member_of_visited (List.nodup_append.mp honce).1 hu⟩
  · intro hlast
    rw [hgoes hlast, List.append_nil] at hsplit
    rw [← hsplit]
    exact hf.perm_orderedChildren
  · -- the end was reached, and what is stripped is gone
    intro hlast
    rw [if_neg (by simp [hlast])] at hvalue
    refine ⟨hvalue.symm, fun v hv hstrip => ?_⟩
    rw [← hvalue]
    refine ObjectPass.contains_eraseAll _ _ (.inl ?_)
    rw [hphase.stripped_eq]
    exact List.mem_append_right _ (List.mem_map_of_mem (List.mem_filter.mpr ⟨hv, hstrip⟩))
  · -- stopped at the last visit
    intro hlast
    rw [if_pos hlast] at hvalue
    exact ⟨hvalue.symm, hends hlast⟩

end ObjectForm

namespace Schema

/-- Schemas built from descriptions. -/
def Built (s : Schema) : Prop := ∃ (m : Manifest) (registry : Registry), m.build registry = .ok s

/-- In every object that comes of calls and descriptions, children are in order, and their phase
checks them so: each at most once, after the siblings it references, whose values it sees, and all
of them unless a failure settles the check. -/
theorem children_in_order {s t : Schema} (hmade : Made Built s) (hin : s.Within t)
    {f : ObjectForm Schema} (hform : t.node.form = .object f) :
    f.Ordered ∧ ∀ (check : Check) (site : Site) (p result : ObjectPass) (w w' : Workshop),
      p.stopped = false → (f.checkChildren check site p).run w = some (result, w') →
        ∃ visits last, f.Checked check site p w visits last result w' := by
  have hall : s.Everywhere HasOrder :=
    hmade.everywhere ordered_kept fun s ⟨m, registry, hbuild⟩ => Manifest.build_hasOrder hbuild
  have hordered := hall t hin f hform
  exact ⟨hordered, fun check site p result w w' hp h => hordered.checked hp h⟩

/-- The form of an object whose first child is to be stripped. -/
def stripsFirstForm : ObjectForm Schema where
  keys := some [("a", number.strip), ("b", number)]
  order := ["a", "b"]

def stripsFirst : Schema := ofForm (.object stripsFirstForm)

theorem keys_stripsFirst :
    object.keys [("a", number.strip), ("b", number)] = .ok stripsFirst := by
  have hnumber : number.siblingRefs 1 = [] := by
    rw [siblingRefs_eq]
    rfl
  have hstrip : number.strip.siblingRefs 1 = [] := by
    rw [siblingRefs_eq]
    rfl
  have hgraph :
      ObjectForm.graph [("a", number.strip), ("b", number)] = ⟨["a", "b"], []⟩ := by
    unfold ObjectForm.graph
    rw [List.foldl_cons, List.foldl_cons, hnumber, hstrip]
    rfl
  have hset : ObjectForm.setChildren {} [("a", number.strip), ("b", number)] =
      .ok stripsFirstForm := by
    refine ObjectForm.setChildren_eq_ok.mpr ⟨_, ?_, rfl⟩
    show (ObjectForm.graph [("a", number.strip), ("b", number)]).sort = _
    rw [hgraph]
    rfl
  show (ObjectForm.setChildren {} _ >>= _) = _
  rw [hset]
  rfl

theorem made_stripsFirst : Made Built stripsFirst := by
  have hobject : Made Built object := .plain (by simp [plain])
  have hnumber : Made Built number := .plain (by simp [plain])
  have hstrip : Made Built number.strip :=
    hnumber.extended .strip rfl rfl rfl
  refine .call (.keys [("a", number.strip), ("b", number)]) hobject ?_
    (fun _ h => absurd h List.not_mem_nil) keys_stripsFirst
  intro inner hinner
  rcases List.mem_cons.mp hinner with rfl | hinner
  · exact hstrip
  · obtain rfl := List.mem_singleton.mp hinner
    exact hnumber

/-- A check of two numbers under that object. -/
def stripsFirstSite : Site :=
  ⟨{}, stripsFirst, .root, {}, .object [("a", .number 1), ("b", .number 2)]⟩

theorem children_in_order_pair : stripsFirstForm.Ordered ∧ ∃ visits last result w',
    stripsFirstForm.Checked (Check.within {} 2) stripsFirstSite
      { members := [("a", .number 1), ("b", .number 2)] } {} visits last result w' := by
  obtain ⟨hordered, hphase⟩ := children_in_order made_stripsFirst .self (f := stripsFirstForm) rfl
  refine ⟨hordered, ?_⟩
  have hruns : ((stripsFirstForm.checkChildren (Check.within {} 2) stripsFirstSite
      { members := [("a", .number 1), ("b", .number 2)] }).run {}).isSome = true := by
    decide +kernel
  obtain ⟨⟨result, w'⟩, hrun⟩ := Option.isSome_iff_exists.mp hruns
  obtain ⟨visits, last, hchecked⟩ := hphase _ _ _ result {} w' rfl hrun
  exact ⟨visits, last, result, w', hchecked⟩

/-- Where the first failure settles the check, a child that passed and is to be stripped stays. -/
theorem failure_keeps_stripped :
    object.keys [("a", number.strip), ("b", number)] = .ok stripsFirst ∧
    ((number.strip.check {} (.number 1) {}).run {}).map (fun r => (r.1.isOk, r.1.strip)) =
      some (true, true) ∧
    ((stripsFirst.validate {} (.object [("a", .number 1), ("b", .string "x")])).run {}).map
      (fun r => (r.1.isOk, (r.1.value.get? "a").isSome)) = some (false, true) :=
  ⟨keys_stripsFirst, by decide +kernel, by decide +kernel⟩

end Schema

end Conform
