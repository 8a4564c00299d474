import Mathlib.Data.List.TakeWhile
import Conform.Proofs.ReadOnly
import Conform.Proofs.TruncationArray

/-!
# The array walk changes nothing

A strict check of an array walks its members and collects those that it has passed, as they were,
unless it has reported something (`Walk.Kept`). One member is added at a time
(`Ground.step_leaves`), so at the end all of them are collected (`Ground.walk_leaves`), and the
ordered schemas that no member reached have no defaults to add.

The invariant is `Walk.Kept`. It compares the walk with the members that it has gone past: those are
what it has collected, unless something is missing among them or something was reported. The
exceptions matter. A walk that has reported something may go on and collect less than it was given,
and its result is then not looked at; and a hole among the members is reported or filled by nothing,
which is why only values without holes come back.

Each thing that may become of a member has a lemma that says how it moves the invariant on: the
member is collected as it is, or there is a report (`takeIncluded_kept` and its like). What is tried
before, and does not accept the member, leaves the walk alone. The schemas behind the last member
are asked for defaults, and those that change nothing have none.
-/

namespace Conform

namespace ArrayForm

/-- The walk goes by schemas of the array, and unless something is missing among the members gone
past, or something was reported, those members are what it has collected. -/
structure Walk.Kept (s : Schema) (past : List Value) (walk : Walk) : Prop where
  requireds : ∀ x ∈ walk.requireds, (1, x.2) ∈ s.visited
  ordereds : ∀ t ∈ walk.ordereds, (1, t) ∈ s.visited
  out : (Value.array past).isWhole = true → walk.reports = [] → walk.out = past

/-- What the next member may do to such a walk. -/
def Step.Kept (s : Schema) (past : List Value) (member : Value) (rest : List Value) : Step → Prop
  | .next walk => walk.Kept s (past ++ [member])
  | .finish walk => walk.Kept s (past ++ member :: rest)
  | .abort reports => reports ≠ []

section

variable {s : Schema} {past : List Value} {walk : Walk} {member : Value} {rest : List Value}

theorem isWhole_append {more : List Value} (h : (Value.array (past ++ more)).isWhole = true) :
    (Value.array past).isWhole = true ∧ (Value.array more).isWhole = true := by
  rw [Value.isWhole_array] at h
  constructor
  · exact Value.isWhole_array.mpr fun item hitem => h item (List.mem_append_left _ hitem)
  · exact Value.isWhole_array.mpr fun item hitem => h item (List.mem_append_right _ hitem)

namespace Walk.Kept

/-- After a report it does not matter what is collected. -/
theorem reported (h : walk.Kept s past) (hne : walk.reports ≠ []) (more out : List Value) :
    Walk.Kept s more { walk with out } :=
  ⟨h.requireds, h.ordereds, fun _ hnone => absurd hnone hne⟩

/-- The next member is collected as it is. -/
theorem push (h : walk.Kept s past) {value : Value}
    (hvalue : member.isWhole = true → value = member) :
    Walk.Kept s (past ++ [member]) { walk with out := walk.out ++ [value] } := by
  refine ⟨h.requireds, h.ordereds, fun hwhole hnone => ?_⟩
  obtain ⟨hpast, hmember⟩ := isWhole_append hwhole
  obtain ⟨-, hmember⟩ := Value.isWhole_array.mp hmember member (List.mem_singleton_self _)
  have hout : walk.out = past := h.out hpast hnone
  rw [hout, hvalue hmember]

theorem tail (h : walk.Kept s past) :
    Walk.Kept s past { walk with ordereds := walk.ordereds.tail } :=
  ⟨h.requireds, fun t ht => h.ordereds t (List.mem_of_mem_tail ht), h.out⟩

end Walk.Kept

namespace Ground

variable {g : Ground}

/-- A report ends the walk, or goes with it from then on. -/
theorem fail_kept (h : walk.Kept s past) {reports : List Report} (hne : reports ≠ [])
    {goOn : Walk → Step}
    (hgo : ∀ next : Walk, next.Kept s past → next.reports ≠ [] →
      (goOn next).Kept s past member rest) :
    (g.fail walk reports goOn).Kept s past member rest := by
  have hreports : walk.reports ++ reports ≠ [] := List.append_ne_nil_of_right_ne_nil _ hne
  unfold fail
  dsimp only
  split
  · exact hreports
  · exact hgo _ ⟨h.requireds, h.ordereds, fun _ hnone => absurd hnone hreports⟩ hreports

theorem takeIncluded_kept (h : walk.Kept s past) {i : Nat} {o : Outcome}
    (ho : Outcome.Returns member o)
    (hok : o.isOk = true) : (g.takeIncluded walk i o).Kept s past member rest := by
  unfold takeIncluded
  split
  next hstrip =>
    refine ⟨h.requireds, h.ordereds, fun hwhole => ?_⟩
    obtain ⟨-, hmember⟩ := isWhole_append hwhole
    obtain ⟨-, hmember⟩ := Value.isWhole_array.mp hmember member (List.mem_singleton_self _)
    rw [(ho hmember (.inl hok)).2] at hstrip
    exact absurd hstrip Bool.false_ne_true
  next =>
    split
    · exact fail_kept h (List.cons_ne_nil _ _) fun _ hnext hne => hnext.reported hne _ _
    · exact h.push fun hmember => (ho hmember (.inl hok)).1

theorem takeOrdered_kept (h : walk.Kept s past) {i : Nat} {o : Outcome}
    (ho : Outcome.Returns member o) : (g.takeOrdered walk i o).Kept s past member rest := by
  unfold takeOrdered
  split
  next hfails =>
    have hne : o.reports ≠ [] := by
      intro hnil
      rw [Outcome.isOk, hnil] at hfails
      exact absurd hfails (by simp)
    exact fail_kept h hne fun _ hnext hne => hnext.reported hne _ _
  next hok =>
    have hpasses : o.isOk = true := by simpa using hok
    exact takeIncluded_kept h ho hpasses

theorem takeRequired_kept (h : walk.Kept s past) {i : Nat} {o : Outcome}
    (ho : Outcome.Returns member o)
    (hok : o.isOk = true) : (g.takeRequired walk i o).Kept s past member rest := by
  unfold takeRequired
  dsimp only
  split
  · exact fail_kept h (List.cons_ne_nil _ _) fun _ hnext hne => hnext.reported hne _ _
  · exact h.push fun hmember => (ho hmember (.inl hok)).1

/-- A forbidden item schema is looked at as an optional one, and is as it was but for that. -/
theorem throughout_of_exclusion {site : Site} {form : ArrayForm Schema} {P : Schema → Prop}
    (hP : ∀ s, P s → P (s.updateFlags ({ · with presence := some .optional })))
    (h : site.schema.Throughout site.env P) (hform : site.node.form = .array form) {s : Schema}
    (hs : s ∈ form.exclusions) : s.Throughout site.env P := by
  obtain ⟨item, hitem, rfl⟩ := List.mem_map.mp hs
  have hin : (1, item) ∈ site.schema.visited :=
    visited_of_items hform (List.mem_append_left _ (List.mem_filter.mp hitem).1)
  intro depth t ht
  rcases ht.of_updateFlags with ⟨-, rfl⟩ | hoccurs
  · exact hP item (h.visited hin).self
  · exact h.visited hin depth t hoccurs

variable {check : Check} (h : g.site.Strict check) (hform : g.site.node.form = .array g.form)

include h

/-- A required schema that matches gives the member back; so would those that failed. -/
theorem tryRequireds_leaves (i : Nat) (member : Value) {before pending : List (Nat × Schema)}
    {failed : List (Nat × Outcome)} (hin : ∀ x ∈ pending, (1, x.2) ∈ g.site.schema.visited)
    (hfailed : ∀ n o, (n, o) ∈ failed → Outcome.Returns member o)
    (hbefore : ∀ x ∈ before, (1, x.2) ∈ g.site.schema.visited) :
    Leaves g.site.env Schema.IsReadOnly
      (fun
        | .matched o left => o.isOk = true ∧ Outcome.Returns member o ∧
            ∀ x ∈ left, (1, x.2) ∈ g.site.schema.visited
        | .failed failed => ∀ n o, (n, o) ∈ failed → Outcome.Returns member o)
      (g.tryRequireds check i member before failed pending) := by
  induction pending generalizing before failed with
  | nil => exact .pure hfailed
  | cons x rest ih =>
    obtain ⟨number, s⟩ := x
    have hs := hin _ (List.mem_cons_self ..)
    have hrest : ∀ x ∈ rest, (1, x.2) ∈ g.site.schema.visited := fun x hx =>
      hin x (List.mem_cons_of_mem _ hx)
    unfold tryRequireds
    refine (h.visited hs member _).bind fun o ho => ?_
    -- a required schema that failed is put aside with what it gave
    split
    next hok =>
      refine .pure ⟨hok, ho, fun x hx => ?_⟩
      exact (List.mem_append.mp hx).elim (hbefore x) (hrest x)
    next =>
      refine ih hrest ?_ ?_
      · intro n o' hmem
        rcases List.mem_append.mp hmem with hold | hnew
        · exact hfailed n o' hold
        · obtain ⟨rfl, rfl⟩ := Prod.mk.inj (List.mem_singleton.mp hnew)
          exact ho
      · intro x hx
        rcases List.mem_append.mp hx with hold | hnew
        · exact hbefore x hold
        · exact List.mem_singleton.mp hnew ▸ hs

/-- The item schema that matches gives the member back; if none does, the last one has failed. -/
theorem tryInclusions_leaves (i : Nat) (member : Value) {failed : List (Nat × Outcome)}
    (hfailed : ∀ n o, (n, o) ∈ failed → Outcome.Returns member o)
    {candidates : List (Option Nat × Schema)}
    (hin : ∀ c ∈ candidates, (1, c.2) ∈ g.site.schema.visited) (hne : candidates ≠ []) :
    Leaves g.site.env Schema.IsReadOnly
      (fun r => match r.1 with
        | some o => o.isOk = true ∧ Outcome.Returns member o
        | none => r.2.reports ≠ [])
      (g.tryInclusions check i member failed candidates) := by
  induction candidates with
  | nil => exact absurd rfl hne
  | cons c rest ih =>
    obtain ⟨number, s⟩ := c
    have houtcome : Leaves g.site.env Schema.IsReadOnly (Outcome.Returns member)
        (g.outcome check i member failed number s) := by
      unfold Ground.outcome
      -- a candidate that failed among the required ones is not asked again
      split
      next o hlook =>
        obtain ⟨n, -, hlook⟩ := Option.bind_eq_some_iff.mp hlook
        exact .pure (hfailed n o (mem_of_lookup hlook))
      next => exact h.visited (hin _ (List.mem_cons_self ..)) member _
    unfold tryInclusions
    refine houtcome.bind fun o ho => ?_
    by_cases hok : o.isOk = true
    · rw [if_pos hok]
      exact .pure ⟨hok, ho⟩
    · rw [if_neg hok]
      -- the last candidate fails with reports
      by_cases hlast : rest.isEmpty = true
      · rw [if_pos hlast]
        refine .pure fun hnil => hok ?_
        rw [Outcome.isOk, hnil]
        rfl
      · rw [if_neg hlast]
        exact ih (fun c hc => hin c (List.mem_cons_of_mem _ hc)) fun hnil =>
          hlast (by rw [hnil]; rfl)

include hform

theorem includeMember_leaves (hwalk : walk.Kept g.site.schema past) (i : Nat) (member : Value)
    {failed : List (Nat × Outcome)} (hfailed : ∀ n o, (n, o) ∈ failed → Outcome.Returns member o) :
    Leaves g.site.env Schema.IsReadOnly (Step.Kept g.site.schema past member rest)
      (g.includeMember check walk i member failed) := by
  unfold includeMember
  dsimp only
  by_cases hnone : g.candidates.isEmpty = true
  · rw [if_pos hnone]
    exact .pure (hwalk.push fun _ => rfl)
  · rw [if_neg hnone]
    have hne : g.candidates ≠ [] := fun hnil => hnone (by rw [hnil]; rfl)
    refine (tryInclusions_leaves h i member hfailed
      (fun c hc => visited_of_candidates hform hc) hne).bind ?_
    rintro ⟨_ | o, last⟩ hresult
    · -- no schema matches: nothing is stripped, so something is reported
      dsimp only
      rw [h.prefs.stripUnknown, if_neg Bool.false_ne_true]
      split
      · exact .pure (fail_kept hwalk hresult fun _ hnext hne => hnext.reported hne _ _)
      · exact .pure (fail_kept hwalk (List.cons_ne_nil _ _) fun _ hnext hne =>
          hnext.reported hne _ _)
    · exact .pure (takeIncluded_kept hwalk hresult.2 hresult.1)

theorem placeMember_leaves (hwalk : walk.Kept g.site.schema past) (i : Nat) (member : Value) :
    Leaves g.site.env Schema.IsReadOnly (Step.Kept g.site.schema past member rest)
      (g.placeMember check walk i member) := by
  unfold placeMember
  refine (tryRequireds_leaves h i member hwalk.requireds
    (fun _ _ hmem => absurd hmem List.not_mem_nil)
    fun _ hmem => absurd hmem List.not_mem_nil).bind fun tried htried => ?_
  cases tried with
  | matched o left =>
    obtain ⟨hok, ho, hleft⟩ := htried
    have hwalk : Walk.Kept g.site.schema past { walk with requireds := left } :=
      ⟨hleft, hwalk.ordereds, hwalk.out⟩
    exact .pure (takeRequired_kept hwalk ho hok)
  | failed failed => exact includeMember_leaves h hform hwalk i member htried

/-- One member. -/
theorem step_leaves (hwalk : walk.Kept g.site.schema past) (i : Nat) (member : Value)
    (rest : List Value) :
    Leaves g.site.env Schema.IsReadOnly (Step.Kept g.site.schema past member rest)
      (g.step check walk i member rest) := by
  have hskip : ∀ next : Walk, next.Kept g.site.schema past → next.reports ≠ [] →
      Step.Kept g.site.schema past member rest
      (.next { next with ordereds := next.ordereds.tail }) :=
    fun next hnext hne => hnext.tail.reported hne _ _
  have hexclusions : ∀ s ∈ g.form.exclusions, s.Throughout g.site.env Schema.IsReadOnly :=
    fun s hs => throughout_of_exclusion (fun _ h => h.withPresence _) h.throughout hform hs
  unfold step
  dsimp only
  split
  · -- a hole is reported
    exact .pure (fail_kept hwalk (List.cons_ne_nil _ _) hskip)
  · refine (leaves_isExcluded fun s hs => h.passes (hexclusions s hs) member _ h.prefs).bind
      fun excluded _ => ?_
    split
    · exact .pure (fail_kept hwalk (List.cons_ne_nil _ _) hskip)
    · split
      · exact placeMember_leaves h hform hwalk i member
      · cases hordereds : walk.ordereds with
        -- a place in order is left for the member, and may leave it out
        | cons s ordereds =>
          have hs := hwalk.ordereds
          rw [hordereds] at hs
          have hwalk : Walk.Kept g.site.schema past { walk with ordereds } :=
            ⟨hwalk.requireds, fun t ht => hs t (List.mem_cons_of_mem _ ht), hwalk.out⟩
          refine (h.visited (hs s (List.mem_cons_self ..)) member _).bind fun o ho => ?_
          exact .pure (takeOrdered_kept hwalk ho)
        | nil =>
          dsimp only
          split
          · exact .pure (fail_kept hwalk (List.cons_ne_nil _ _) fun _ hnext hne =>
              hnext.reported hne _ _)
          · exact placeMember_leaves h hform hwalk i member

/-- All members from some place on. -/
theorem walk_leaves (hwalk : walk.Kept g.site.schema past) (i : Nat) (members : List Value) :
    Leaves g.site.env Schema.IsReadOnly
      (fun
        | .ok walk => walk.Kept g.site.schema (past ++ members)
        | .error reports => reports ≠ [])
      (g.walk check walk i members) := by
  induction members generalizing past walk i with
  | nil =>
    refine .pure ?_
    rw [List.append_nil]
    exact hwalk
  | cons member rest ih =>
    unfold Ground.walk
    refine (step_leaves h hform hwalk i member rest).bind fun next hnext => ?_
    cases next with
    | next walk =>
      refine (ih hnext (i + 1)).mono fun r hr => ?_
      rw [List.append_assoc] at hr
      exact hr
    | finish walk => exact .pure hnext
    | abort reports => exact .pure hnext

omit hform in
/-- Behind the end there is nothing to add. -/
theorem defaultsFromEnd_leaves (size : Nat) (parent : Value) {ordereds : List (Schema × Nat)}
    (hin : ∀ x ∈ ordereds, (1, x.1) ∈ g.site.schema.visited) :
    Leaves g.site.env Schema.IsReadOnly (fun values => ∀ value ∈ values, value = .undefined)
      (g.defaultsFromEnd check size parent ordereds) := by
  induction ordereds with
  | nil => exact .pure (List.forall_mem_nil _)
  | cons x before ih =>
    unfold defaultsFromEnd
    refine (h.visited (hin x (List.mem_cons_self ..)) .undefined _).bind fun o ho => ?_
    refine (ih fun x hx => hin x (List.mem_cons_of_mem _ hx)).bind fun values hvalues => .pure ?_
    exact List.forall_mem_cons.mpr ⟨(ho rfl (.inr rfl)).1, hvalues⟩

omit hform in
theorem close_leaves (hwalk : walk.Kept g.site.schema past) :
    Leaves g.site.env Schema.IsReadOnly
      (fun r => (Value.array past).isWhole = true → r.2 = [] → r.1 = past)
        (g.close check walk) := by
  have hreports : g.reports walk = [] → walk.reports = [] := by
    intro hnil
    unfold Ground.reports at hnil
    exact (List.append_eq_nil_iff.mp (List.append_eq_nil_iff.mp hnil).1).1
  unfold close
  dsimp only
  split
  · -- with reports nothing is put in
    exact .pure fun hwhole hnil => hwalk.out hwhole (hreports hnil)
  next hgoOn =>
    have hordereds : ∀ x ∈ walk.ordereds.zipIdx.reverse, (1, x.1) ∈ g.site.schema.visited := by
      intro x hx
      exact hwalk.ordereds x.1 (List.fst_mem_of_mem_zipIdx (List.mem_reverse.mp hx))
    refine Leaves.bind (Q := fun values => values = []) ?_ fun values hvalues =>
      .pure fun hwhole _ => ?_
    · unfold Ground.defaults
      refine (defaultsFromEnd_leaves h _ _ hordereds).bind fun values hvalues => .pure ?_
      -- read-only schemas give no value where none was
      have hnone : (values.dropWhile fun value => !value.isDefined) = [] := by
        refine List.dropWhile_eq_nil_iff.mpr fun value hvalue => ?_
        rw [hvalues value hvalue]
        rfl
      rw [hnone]
      rfl
    · have hnil : g.reports walk = [] := by
        cases hcase : g.reports walk with
        | nil => rfl
        | cons first rest =>
          rw [hcase] at hgoOn
          exact absurd hgoOn (by simp)
      rw [hvalues, List.append_nil]
      exact hwalk.out hwhole (hreports hnil)

end Ground

end

variable {check : Check} {site : Site} {form : ArrayForm Schema} (h : site.Strict check)
  (hform : site.node.form = .array form)

include h hform

theorem checkMembers_leaves (members : List Value) :
    Leaves site.env Schema.IsReadOnly
      (fun r => (Value.array members).isWhole = true → r.2 = [] → r.1 = members)
      (form.checkMembers check site members) := by
  have hstart : Walk.Kept site.schema []
      { requireds := form.numberedRequireds, ordereds := form.ordered } := by
    refine ⟨fun x hx => Ground.visited_of_numbered (g := ⟨site, form, .array members⟩) hform hx, ?_,
      fun _ _ => rfl⟩
    exact fun t ht => Ground.visited_of_items hform (List.mem_append_right _ ht)
  unfold checkMembers
  refine (Ground.walk_leaves (g := ⟨site, form, .array members⟩) h hform hstart 0 members).bind
    fun r hr => ?_
  cases r with
  | ok walk => exact Ground.close_leaves (g := ⟨site, form, .array members⟩) h hr
  | error reports => exact .pure fun _ hnil => absurd hnil hr

theorem base_leaves (value : Value) :
    Leaves site.env Schema.IsReadOnly (Outcome.Returns value) (form.base check site value) := by
  have hsingle : form.single = false := by
    have hreadOnly := h.node.form
    rw [hform] at hreadOnly
    exact hreadOnly
  unfold base
  cases value with
  | array members =>
    show Leaves _ _ _ (if form.needsWalk then _ else _)
    split
    · refine (checkMembers_leaves h hform members).bind fun r hr => .pure fun hwhole hok => ?_
      have hreports : r.2 = [] := List.isEmpty_iff.mp (hok.resolve_right (by simp))
      refine ⟨?_, rfl⟩
      show Value.array r.1 = .array members
      rw [hr hwhole hreports]
    · exact .pure (.same _ _)
  | _ =>
    unfold members?
    dsimp only
    rw [hsingle]
    exact .pure (.same _ _)

end ArrayForm

end Conform
