import Conform.Proofs.ReadOnlyArray

/-!
# What an object's check finds

The phases of an object move members about and report what is wrong. What holds of the reports, and
of whether the check was ended, is a matter of the reporting alone: a property that does not look at
the members and stands every report (`ObjectPass.Tells`) holds through all phases
(`ObjectForm.checkMembers_tells`).

As a first use, only a report ends a check, and only where the first failure settles it
(`ObjectForm.checkMembers_ended`).

A pass through an object is a record with the working copy, the keys that were stripped, the
reports, and whether the check was ended. Two of these are about finding something, and most steps
change only the other two. `Finds` compares two passes in what they have found; a property that
respects it does not look at the working copy, so that every step which only moves members keeps it,
without having been looked at one by one.

What is left is the steps that report, and all of them go through one function with one report or a
list of reports. A property that stands these is carried through renames, patterns, children,
undeclared keys and dependencies in turn. The reports that come from inner checks have to be of a
kind that is assumed (`Site.Reports`), and so a use of the theorem supplies the property of reports,
and the same of inner checks.
-/

namespace Conform

namespace ObjectPass

/-- The second pass has found what the first one has; the working copies may differ. -/
def Finds (p q : ObjectPass) : Prop := q.reports = p.reports ∧ q.stopped = p.stopped

theorem finds_eraseAll (p : ObjectPass) (keys : List String) : p.Finds (p.eraseAll keys) := by
  induction keys generalizing p with
  | nil => exact ⟨rfl, rfl⟩
  | cons key rest ih => exact ih (p.erase key)

/-- A property of what has been found, which stands reports of which `R` holds, and single ones. -/
structure Tells (site : Site) (R : List Report → Prop) (Q : ObjectPass → Prop) : Prop where
  one : ∀ report, R [report]
  fail : ∀ p reports, p.stopped = false → Q p → R reports → Q (p.fail site reports)
  finds : ∀ p q, p.Finds q → Q p → Q q

variable {site : Site} {R : List Report → Prop} {Q : ObjectPass → Prop} {p : ObjectPass}

theorem Tells.failEach (h : Tells site R Q) (hp : Q p) (reports : List Report) :
    Q (p.failEach site reports) :=
  forEach_keeps (Q := Q) (fun p report hgo hp => h.fail p [report] hgo hp (h.one report)) hp

end ObjectPass

/-- The schemas inside make nothing that may not be kept, and report what `R` holds of. -/
structure Site.Reports (check : Check) (site : Site) (P : Schema → Prop)
    (R : List Report → Prop) : Prop where
  visited : ∀ levels t, (levels, t) ∈ site.schema.visited → ∀ value p,
    Leaves site.env P (fun o => R o.reports) (check t value p site.prefs)
  passes : ∀ levels t, (levels, t) ∈ site.schema.visited → ∀ value p (prefs : Preferences),
    Leaves site.env P (fun _ => True) (check.passes t value p prefs)

namespace ObjectForm

theorem finds_move (rename : Rename) (value : Value) (p : ObjectPass) :
    p.Finds (move rename value p) := by
  unfold move
  dsimp only
  split
  · split <;> exact ⟨rfl, rfl⟩
  · split <;> exact ⟨rfl, rfl⟩

theorem finds_keepChild (p : ObjectPass) (key : String) (o : Outcome) :
    p.Finds (keepChild p key o) := by
  unfold keepChild
  dsimp only
  split
  · split <;> exact ⟨rfl, rfl⟩
  · split
    · exact ⟨rfl, rfl⟩
    · split <;> exact ⟨rfl, rfl⟩

theorem finds_keepMatched (p : ObjectPass) (key : String) (o : Outcome) :
    p.Finds (keepMatched p key o) := by
  unfold keepMatched
  split <;> exact ⟨rfl, rfl⟩

section

variable {site : Site} {R : List Report → Prop} {Q : ObjectPass → Prop}
  (h : ObjectPass.Tells site R Q) {p : ObjectPass} (hp : Q p)

include h hp

theorem applyRenames_tells (taken : List String) (renames : List Rename) :
    Q (applyRenames site taken p renames) := by
  induction renames generalizing taken p with
  | nil => exact hp
  | cons rename rest ih =>
    unfold applyRenames
    cases hstopped : p.stopped with
    | true => exact hp
    | false =>
      rw [if_neg Bool.false_ne_true]
      split
      · exact ih hp taken
      · split
        · exact ih hp taken
        · split
          · exact ih (h.fail p _ hstopped hp (h.one _)) taken
          · exact ih (h.finds p _ (finds_move ..) hp) _

theorem takeChild_tells (hgo : p.stopped = false) (key : String) {o : Outcome} (ho : R o.reports) :
    Q (takeChild site p key o) := by
  unfold takeChild
  split
  · exact h.fail p _ hgo hp ho
  · exact h.finds p _ (finds_keepChild ..) hp

theorem takeMatched_tells (hgo : p.stopped = false) (key : String) {o : Outcome}
    (ho : R o.reports) : Q (takeMatched site p key o) := by
  unfold takeMatched
  split
  · exact h.fail p _ hgo hp ho
  · exact h.finds p _ (finds_keepMatched ..) hp

theorem settleUnknown_tells (form : ObjectForm Schema) (keys : List String) :
    Q (form.settleUnknown site p keys) := by
  unfold settleUnknown
  split
  · exact hp
  · split
    · exact h.finds p _ (ObjectPass.finds_eraseAll p keys) hp
    · split
      · exact hp
      · exact h.failEach hp _

/-- A dependency may have several reports, which come one by one. -/
theorem checkDependencies_tells (form : ObjectForm Schema) : Q (form.checkDependencies site p) :=
  ObjectPass.forEach_keeps (Q :=
    Q) (fun p d _ hp => h.failEach hp (dependencyReports site p.value d)) hp

end

variable {site : Site} {check : Check} {P : Schema → Prop} {R : List Report → Prop}
  {Q : ObjectPass → Prop}
  (h : ObjectPass.Tells site R Q) (hinner : site.Reports check P R) {form : ObjectForm Schema}
  (hform : site.node.form = .object form) {p : ObjectPass}

include h hinner

theorem checkPatterns_tells {patterns : List (KeyPattern Schema)}
    (hin : ∀ pattern ∈ patterns, ∀ t ∈ pattern.schemas, (1, t) ∈ site.schema.visited) (hp : Q p)
    (hgo : p.stopped = false) (key : String) :
    Leaves site.env P (fun next => ∀ p' ∈ next, Q p')
      (checkPatterns check site p key patterns) := by
  refine leaves_checkPatterns hin (fun t ht value position => hinner.passes 1 t ht value position _)
    fun t ht position => ?_
  exact (hinner.visited 1 t ht (p.member key) position).mono fun o ho =>
    takeMatched_tells h hp hgo key ho

include hform

theorem checkChildren_tells (hp : Q p) : Leaves site.env P Q (form.checkChildren check site p) := by
  have hchild : ∀ p : ObjectPass, p.stopped = false → Q p → ∀ child ∈ form.orderedChildren,
      Leaves site.env P Q (checkChild check site p child) := by
    intro p hgo hp child hchild
    refine (hinner.visited 1 _ (visited_of_child hform hchild) (p.member child.1) _).bind
      fun o ho => ?_
    exact .pure (takeChild_tells h hp hgo child.1 ho)
  unfold checkChildren
  refine (ObjectPass.forEach_leaves hchild hp).bind fun p hp => .pure ?_
  split
  · exact hp
  · exact h.finds p _ (ObjectPass.finds_eraseAll p _) hp

theorem checkUndeclared_tells (hp : Q p) (left keys : List String) :
    Leaves site.env P (fun r => Q r.1) (form.checkUndeclared check site p left keys) := by
  have hin : ∀ pattern ∈ form.patterns, ∀ t ∈ pattern.schemas, (1, t) ∈ site.schema.visited :=
    fun _ hpattern => visited_of_pattern hform hpattern
  induction keys generalizing p left with
  | nil => exact .pure hp
  | cons key rest ih =>
    unfold checkUndeclared
    cases hstopped : p.stopped with
    | true => exact .pure hp
    | false =>
      refine (checkPatterns_tells h hinner hin hp hstopped key).bind fun next hnext => ?_
      cases next with
      | none => exact ih hp _
      | some p' => exact ih (hnext p' rfl) left

/-- Through all phases. -/
theorem checkMembers_tells {members : List (String × Value)} (hstart : Q { members }) :
    Leaves site.env P Q (form.checkMembers check site members) := by
  have hrenamed := applyRenames_tells h hstart [] form.renames
  unfold checkMembers
  dsimp only
  split
  · exact .pure hrenamed
  · refine (checkChildren_tells h hinner hform hrenamed).bind fun p hp => ?_
    split
    · exact .pure hp
    · refine Leaves.bind (Q := Q) ?_ fun p hp => ?_
      · refine (checkUndeclared_tells h hinner hform hp [] _).bind fun r hr => .pure ?_
        split
        · exact hr
        · exact settleUnknown_tells h hr form _
      · split
        · exact .pure hp
        · exact .pure (checkDependencies_tells h hp form)

omit h hinner

/-- Only a report ends the check, and only where the first failure settles it. -/
theorem checkMembers_ended {members : List (String × Value)} {w w₁ : Workshop}
    (hrun : (form.checkMembers check site members).run w = some (p, w₁))
    (hstopped : p.stopped = true) : site.prefs.abortEarly = true ∧ p.reports ≠ [] := by
  have hany {α : Type} (x : Run α) : Leaves site.env (fun _ => True) (fun _ => True) x :=
    fun _ _ _ _ _ => ⟨trivial, fun _ _ _ _ _ _ => trivial⟩
  have hinner : site.Reports check (fun _ => True) (fun _ => True) :=
    ⟨fun _ _ _ _ _ => hany _, fun _ _ _ _ _ _ => hany _⟩
  -- the pass is ended only by a failure that has something to report
  have htells : ObjectPass.Tells site (fun _ => True)
      (fun p => p.stopped = true → site.prefs.abortEarly = true ∧ p.reports ≠ []) := by
    refine ⟨fun _ => trivial, fun p reports hgo hp _ hended => ?_, fun p q hfinds hp hended => ?_⟩
    · unfold ObjectPass.fail at hended ⊢
      by_cases hnone : reports.isEmpty = true
      · rw [if_pos hnone] at hended ⊢
        exact hp hended
      · rw [if_neg hnone] at hended ⊢
        refine ⟨hended, List.append_ne_nil_of_right_ne_nil _ fun hnil => hnone ?_⟩
        rw [hnil]
        rfl
    · rw [hfinds.2] at hended
      rw [hfinds.1]
      exact hp hended
  have hstart : ({ members } : ObjectPass).stopped = true →
      site.prefs.abortEarly = true ∧ ({ members } : ObjectPass).reports ≠ [] :=
      fun hended => nomatch hended
  have hkept : w.Keeps site.env fun _ => True := fun _ _ _ _ _ _ => trivial
  exact (checkMembers_tells htells hinner hform hstart w p w₁ hkept hrun).1 hstopped

end ObjectForm

end Conform
