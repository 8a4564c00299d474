import Conform.Proofs.Phase
import Conform.Proofs.Truncation

/-!
# Objects and the first failure

Two checks of the members of an object do the same in each phase until a child, a key or
a dependency fails. From there on the one that the first failure settles takes no
further step. The other goes on through the phases; it only ever adds reports, and
nothing ends it (`ObjectPass.GoesOn`).

Two relations carry the proof. `ObjectPass.Truncates` relates what the two checks have come to: the
same, or a failure in both with the same report in front where reports are to be the same (`exact`).
`ObjectPass.GoesOn` is about the second check alone, and says what a step of it may do once the
first check has ended. For each phase there is a lemma of either kind, named after the phase:
`…_goesOn` for the check that goes on alone, and `…_truncates` or `…_meets` for the two side by
side, the latter where inner schemas are checked. A phase is a loop over children, keys or
dependencies, so its lemma follows from that of a single turn by `forEach_goesOn` and by the
induction behind `next_meets`.

The inner checks are not opened here. `Site.Early` says of them what is to be proved of the whole,
so the lemmas of this module are one step of the induction on how deep schemas nest.

Main statement: `ObjectForm.base_meets`.
-/

namespace Conform

namespace ObjectPass

/-- What a check that collects failures makes of a pass: it keeps the reports and is not ended. -/
structure GoesOn (p q : ObjectPass) : Prop where
  reports : p.reports <+: q.reports
  going : q.stopped = false

/-- A phase that takes no step goes on from itself. -/
theorem GoesOn.refl {p : ObjectPass} (h : p.stopped = false) : p.GoesOn p := ⟨List.prefix_rfl, h⟩

/-- A step that neither reports nor ends the phases goes on. -/
theorem GoesOn.of_eq {p q : ObjectPass} (h : p.stopped = false)
    (hsame : q.reports = p.reports ∧ q.stopped = p.stopped) : p.GoesOn q :=
  ⟨hsame.1 ▸ List.prefix_rfl, hsame.2.trans h⟩

/-- What goes on from what goes on goes on. -/
theorem GoesOn.trans {p q r : ObjectPass} (h : p.GoesOn q) (hnext : q.GoesOn r) : p.GoesOn r :=
  ⟨h.reports.trans hnext.reports, hnext.going⟩

/-- How far two checks have come: to the same pass without a failure, or one is ended and both have
failed. -/
inductive Truncates (exact : Prop) : ObjectPass → ObjectPass → Prop
  | clean {p : ObjectPass} : p.reports = [] → p.stopped = false → Truncates exact p p
  | ended {p q : ObjectPass} : p.stopped = true → q.stopped = false →
      p.reports ≠ [] → q.reports ≠ [] →
      (exact → firstPlace q.reports = firstPlace p.reports) → Truncates exact p q

/-- The check that collects all reports has never ended its phases. -/
theorem going_right {exact : Prop} {p q : ObjectPass} (h : Truncates exact p q) :
    q.stopped = false := by
  cases h with
  | clean _ hgoing => exact hgoing
  | ended _ hgoing _ _ _ => exact hgoing

/-- Once one check is ended, the other may go on. -/
theorem ended_goesOn {exact : Prop} {p q r : ObjectPass} (h : Truncates exact p q)
    (hended : p.stopped = true) (hnext : q.GoesOn r) : Truncates exact p r := by
  cases h with
  | clean _ hgoing =>
    rw [hgoing] at hended
    exact absurd hended (by simp)
  | ended _ _ hp hq hfirst =>
    have hne : r.reports ≠ [] := by
      intro hnil
      have hprefix := hnext.reports
      rw [hnil] at hprefix
      exact hq (List.prefix_nil.mp hprefix)
    refine .ended hended hnext.going hp hne fun hexact => ?_
    rw [firstPlace_kept hq hnext.reports, hfirst hexact]

/-- Where the first check is not ended, nothing failed in either. -/
theorem eq_of_going {exact : Prop} {p q : ObjectPass} (h : Truncates exact p q)
    (hgoing : ¬p.stopped = true) : q = p ∧ p.reports = [] ∧ p.stopped = false := by
  cases h with
  | clean hp hstopped => exact ⟨rfl, hp, hstopped⟩
  | ended hended _ _ _ _ => exact absurd hended hgoing

variable {site : Site} {p : ObjectPass} {reports : List Report}

/-- A failure only adds reports where all are collected. -/
theorem fail_goesOn (hp : p.stopped = false) : p.GoesOn (p.fail site.collecting reports) := by
  unfold fail
  split
  · exact .refl hp
  · exact ⟨List.prefix_append _ _, rfl⟩

/-- The first failure ends the one check and not the other; both have the same report in front. -/
theorem fail_truncates {exact : Prop} {reports' : List Report}
    (hearly : site.prefs.abortEarly = true)
    (hclean : p.reports = []) (hne : reports ≠ []) (hne' : reports' ≠ [])
    (hfirst : exact → firstPlace reports' = firstPlace reports) :
    Truncates exact (p.fail site reports) (p.fail site.collecting reports') := by
  have hempty {reports : List Report} (hne : reports ≠ []) : reports.isEmpty = false :=
    List.isEmpty_eq_false_iff.mpr hne
  unfold fail
  rw [hempty hne, hempty hne', hclean]
  exact .ended hearly rfl hne hne' hfirst

/-- Collecting takes the reports in, one after another. -/
theorem failEach_collecting (hp : p.stopped = false) :
    p.failEach site.collecting reports = { p with reports := p.reports ++ reports } := by
  unfold failEach
  induction reports generalizing p with
  | nil =>
    show p = { p with reports := p.reports ++ [] }
    rw [List.append_nil]
  | cons first rest ih =>
    have hrest := ih (p := p.fail site.collecting [first]) rfl
    unfold forEach
    rw [hp]
    refine hrest.trans ?_
    show { p with reports := (p.reports ++ [first]) ++ rest, stopped := false } = _
    rw [List.append_assoc, ← hp]
    rfl

/-- Of several reports only the first one counts where it settles the check. -/
theorem failEach_early (hearly : site.prefs.abortEarly = true)
    (hp : p.stopped = false) (first : Report)
    (rest : List Report) : p.failEach site (first :: rest) = p.fail site [first] := by
  unfold failEach forEach
  rw [hp]
  have hended : (p.fail site [first]).stopped = true := hearly
  exact forEach_stopped (m := Id) hended rest

/-- Several failures only add reports where all are collected. -/
theorem failEach_goesOn (hp : p.stopped = false) :
    p.GoesOn (p.failEach site.collecting reports) := by
  rw [failEach_collecting hp]
  exact ⟨List.prefix_append _ _, hp⟩

/-- Of several failures at once the one check reports the first, and ends. -/
theorem failEach_truncates {exact : Prop} (hearly : site.prefs.abortEarly = true)
    (hclean : p.reports = [])
    (hp : p.stopped = false) :
    Truncates exact (p.failEach site reports) (p.failEach site.collecting reports) := by
  cases reports with
  | nil => exact .clean hclean hp
  | cons first rest =>
    rw [failEach_early hearly hp, failEach_collecting hp]
    exact .ended hearly hp (by simp [fail]) (by simp) fun _ => by simp [fail, hclean, firstPlace]

/-! ### Steps taken in turn -/

section

variable {env : Environment} {α : Type} {items : List α}

/-- Unless a phase ended the check, the next one follows. -/
theorem next_goesOn {next : Run ObjectPass} {p q : ObjectPass} (hq : p.GoesOn q)
    (hgo : q.stopped = false → Ends env q.GoesOn next) :
    Ends env p.GoesOn (if q.stopped = true then pure q else next) := by
  rw [hq.going]
  exact (hgo hq.going).mono fun _ hr => hq.trans hr

/-- The next step is taken in both checks if neither has ended; otherwise
the other goes on alone. -/
theorem next_meets {exact : Prop} {next next' : Run ObjectPass} {p q : ObjectPass}
    (hpq : Truncates exact p q) (hgo : q.stopped = false → Ends env q.GoesOn next')
    (hnext : q = p → p.reports = [] → p.stopped = false → Meets env (Truncates exact) next next') :
    Meets env (Truncates exact) (if p.stopped = true then pure p else next)
      (if q.stopped = true then pure q else next') := by
  rw [going_right hpq]
  by_cases hended : p.stopped = true
  · rw [if_pos hended]
    exact .pure_left ((hgo (going_right hpq)).mono fun _ hr => ended_goesOn hpq hended hr)
  · obtain ⟨hsame, hclean, hgoing⟩ := eq_of_going hpq hended
    rw [if_neg hended]
    exact hnext hsame hclean hgoing

/-- Steps that go on one by one go on together. -/
theorem forEach_goesOn {step : ObjectPass → α → Run ObjectPass}
    (hstep : ∀ p, ∀ item ∈ items, p.stopped = false → Ends env p.GoesOn (step p item))
    {p : ObjectPass} (hp : p.stopped = false) : Ends env p.GoesOn (p.forEach step items) := by
  induction items generalizing p with
  | nil => exact .pure (.refl hp)
  | cons item rest ih =>
    unfold forEach
    rw [hp]
    refine (hstep p item (List.mem_cons_self ..) hp).bind fun q hq => ?_
    have hrest := ih (fun p item hitem => hstep p item (List.mem_cons_of_mem _ hitem)) hq.going
    exact hrest.mono fun _ hr => hq.trans hr

/-- Steps that look at the state alone go on together. -/
theorem forEach_pure_goesOn {step : ObjectPass → α → ObjectPass}
    (hstep : ∀ (p : ObjectPass) item, p.stopped = false → p.GoesOn (step p item))
    (items : List α) {p : ObjectPass}
    (hp : p.stopped = false) :
    p.GoesOn (Id.run (p.forEach (fun p item => pure (step p item)) items)) := by
  induction items generalizing p with
  | nil => exact .refl hp
  | cons item rest ih =>
    unfold forEach
    rw [hp]
    have hfirst := hstep p item hp
    exact hfirst.trans (ih hfirst.going)

/-- If single steps go together until the first failure, so do all of them. -/
theorem forEach_pure_truncates {exact : Prop} {step step' : ObjectPass → α → ObjectPass}
    (hstep : ∀ p item, p.reports = [] → p.stopped = false →
      Truncates exact (step p item) (step' p item))
    (hgo : ∀ (p : ObjectPass) item, p.stopped = false → p.GoesOn (step' p item))
    (items : List α) {p : ObjectPass} (hclean : p.reports = []) (hp : p.stopped = false) :
    Truncates exact (Id.run (p.forEach (fun p item => pure (step p item)) items))
      (Id.run (p.forEach (fun p item => pure (step' p item)) items)) := by
  induction items generalizing p with
  | nil => exact .clean hclean hp
  | cons item rest ih =>
    unfold forEach
    rw [hp]
    have hfirst := hstep p item hclean hp
    by_cases hended : (step p item).stopped = true
    · have hrest := forEach_pure_goesOn hgo rest (going_right hfirst)
      have hstopped : (step p item).forEach (m := Id) (fun p item => pure (step p item)) rest =
          pure (step p item) := forEach_stopped hended rest
      show Truncates exact (Id.run ((step p item).forEach _ rest))
        (Id.run ((step' p item).forEach _ rest))
      rw [hstopped]
      exact ended_goesOn hfirst hended hrest
    · obtain ⟨hsame, hclean, hgoing⟩ := eq_of_going hfirst hended
      have hrest := ih hclean hgoing
      show Truncates exact (Id.run ((step p item).forEach _ rest))
        (Id.run ((step' p item).forEach _ rest))
      rw [hsame]
      exact hrest

/-- Phases whose steps check inner schemas are the same up to the first
failure if their steps are. -/
theorem forEach_meets {exact : Prop} {step step' : ObjectPass → α → Run ObjectPass}
    (hstep : ∀ p, ∀ item ∈ items, p.reports = [] → p.stopped = false →
      Meets env (Truncates exact) (step p item) (step' p item))
    (hgo : ∀ p, ∀ item ∈ items, p.stopped = false → Ends env p.GoesOn (step' p item))
    {p : ObjectPass} (hclean : p.reports = []) (hp : p.stopped = false) :
    Meets env (Truncates exact) (p.forEach step items) (p.forEach step' items) := by
  induction items generalizing p with
  | nil => exact .pure (.clean hclean hp)
  | cons item rest ih =>
    have hgo' : ∀ p, ∀ item ∈ rest, p.stopped = false → Ends env p.GoesOn (step' p item) :=
      fun p item hitem => hgo p item (List.mem_cons_of_mem _ hitem)
    unfold forEach
    rw [hp]
    refine (hstep p item (List.mem_cons_self ..) hclean hp).bind fun q q' hq => ?_
    by_cases hended : q.stopped = true
    · rw [forEach_stopped hended]
      exact .pure_left
        ((forEach_goesOn hgo' (going_right hq)).mono fun _ hr => ended_goesOn hq hended hr)
    · obtain ⟨rfl, hclean, hgoing⟩ := eq_of_going hq hended
      exact ih (fun p item hitem => hstep p item (List.mem_cons_of_mem _ hitem)) hgo' hclean hgoing

end

/-- Taking keys away reports nothing. -/
@[simp] theorem reports_eraseAll (keys : List String) (p : ObjectPass) :
    (p.eraseAll keys).reports = p.reports := by
  unfold eraseAll
  induction keys generalizing p with
  | nil => rfl
  | cons key rest ih => exact ih (p.erase key)

@[simp] theorem stopped_eraseAll (keys : List String) (p : ObjectPass) :
    (p.eraseAll keys).stopped = p.stopped := by
  unfold eraseAll
  induction keys generalizing p with
  | nil => rfl
  | cons key rest ih => exact ih (p.erase key)

/-- Taking keys away goes on. -/
theorem eraseAll_goesOn (keys : List String) {p : ObjectPass} (hp : p.stopped = false) :
    p.GoesOn (p.eraseAll keys) :=
  .of_eq hp ⟨reports_eraseAll keys p, stopped_eraseAll keys p⟩

end ObjectPass

namespace ObjectForm

open ObjectPass

variable {check : Check} {site : Site}

/-! ### Renames -/

/-- Renames go on: a conflict is a report more. -/
theorem applyRenames_goesOn (renames : List Rename) (taken : List String) {p : ObjectPass}
    (hp : p.stopped = false) : p.GoesOn (applyRenames site.collecting taken p renames) := by
  induction renames generalizing taken p with
  | nil => exact .refl hp
  | cons rename rest ih =>
    have hmove (value : Value) : p.GoesOn (move rename value p) := by
      unfold move
      dsimp only
      split <;> split <;> exact ⟨List.prefix_rfl, hp⟩
    unfold applyRenames
    rw [hp]
    dsimp only
    rw [if_neg (by simp)]
    split
    · exact ih taken hp
    · split
      · exact ih taken hp
      · split
        · exact (fail_goesOn hp).trans (ih taken (fail_goesOn hp).going)
        · exact (hmove _).trans (ih _ (hmove _).going)

/-- The first conflict of names settles the one check, and stands in front in the other. -/
theorem applyRenames_truncates {exact : Prop} (hearly : site.prefs.abortEarly = true)
    (renames : List Rename)
    (taken : List String) {p : ObjectPass} (hclean : p.reports = []) (hp : p.stopped = false) :
    Truncates exact (applyRenames site taken p renames)
      (applyRenames site.collecting taken p renames) := by
  induction renames generalizing taken p with
  | nil => exact .clean hclean hp
  | cons rename rest ih =>
    -- a rename that is made reports nothing
    have hmove (value : Value) : (move rename value p).reports = [] ∧
        (move rename value p).stopped = false := by
      unfold move
      dsimp only
      split <;> split <;> exact ⟨hclean, hp⟩
    have hended (q : ObjectPass) (hq : q.stopped = true) : applyRenames site taken q rest = q := by
      cases rest with
      | nil => rfl
      | cons next rest =>
        unfold applyRenames
        rw [if_pos hq]
    unfold applyRenames
    rw [hp]
    dsimp only
    rw [if_neg (by simp)]
    split
    · exact ih taken hclean hp
    · split
      · exact ih taken hclean hp
      · split
        next code _ =>
          let report := site.report code p.value
            [("from", Value.string rename.source), ("to", .string rename.target)]
          have hfail : Truncates exact (p.fail site [report]) (p.fail site.collecting [report]) :=
            fail_truncates hearly hclean (List.cons_ne_nil _ _) (List.cons_ne_nil _ _) fun _ => rfl
          -- where the first failure settles the check, the renames after it are left out
          rw [hended _ hearly]
          exact ended_goesOn hfail hearly (applyRenames_goesOn rest taken rfl)
        next => exact ih _ (hmove _).1 (hmove _).2

/-! ### What comes of a child or of an undeclared key -/

section

variable {p : ObjectPass} (hp : p.stopped = false) {taken : Outcome → ObjectPass}
  (htaken : ∀ o, (taken o).reports = p.reports ∧ (taken o).stopped = p.stopped)

include hp htaken

/-- Failures are added to the pass, and what passes is taken in. -/
theorem orFail_goesOn (o : Outcome) :
    p.GoesOn (if (!o.isOk) = true then p.fail site.collecting o.reports else taken o) := by
  split
  · exact fail_goesOn hp
  · exact .of_eq hp (htaken o)

/-- What is checked is taken over if it passed, and reported if not; it passes in both
checks or in neither. -/
theorem orFail_truncates {exact : Prop} {o o' : Outcome} (hearly : site.prefs.abortEarly = true)
    (hclean : p.reports = []) (ho : Outcome.Truncates exact o o') :
    ObjectPass.Truncates exact (if (!o.isOk) = true then p.fail site o.reports else taken o)
      (if (!o'.isOk) = true then p.fail site.collecting o'.reports else taken o') := by
  by_cases hok : o.isOk = true
  · rw [ho.eq_of_ok hok, hok]
    exact .clean ((htaken o).1.trans hclean) ((htaken o).2.trans hp)
  · obtain ⟨hne, hne'⟩ := ho.reports_ne hok
    rw [ho.ok, if_pos (by simpa using hok), if_pos (by simpa using hok)]
    exact fail_truncates hearly hclean hne hne' ho.first

end

/-- Keeping what an undeclared key holds neither reports nor ends the phases. -/
theorem keepMatched_same (p : ObjectPass) (key : String) (o : Outcome) :
    (keepMatched p key o).reports = p.reports ∧ (keepMatched p key o).stopped = p.stopped := by
  unfold keepMatched
  split <;> exact ⟨rfl, rfl⟩

/-- What comes of a child goes on. -/
theorem takeChild_goesOn {p : ObjectPass} (hp : p.stopped = false) (key : String) (o : Outcome) :
    p.GoesOn (takeChild site.collecting p key o) :=
  orFail_goesOn hp (keepChild_same p key) o

/-- A child that fails settles the one check. -/
theorem takeChild_truncates {exact : Prop} {o o' : Outcome} (hearly : site.prefs.abortEarly = true)
    {p : ObjectPass} (hp : p.stopped = false) (hclean : p.reports = []) (key : String)
    (ho : Outcome.Truncates exact o o') :
    ObjectPass.Truncates exact (takeChild site p key o) (takeChild site.collecting p key o') :=
  orFail_truncates hp (keepChild_same p key) hearly hclean ho

/-- What comes of an undeclared key goes on. -/
theorem takeMatched_goesOn {p : ObjectPass} (hp : p.stopped = false) (key : String) (o : Outcome) :
    p.GoesOn (takeMatched site.collecting p key o) :=
  orFail_goesOn hp (keepMatched_same p key) o

/-- An undeclared key that fails settles the one check. -/
theorem takeMatched_truncates {exact : Prop} {o o' : Outcome}
    (hearly : site.prefs.abortEarly = true)
    {p : ObjectPass} (hp : p.stopped = false) (hclean : p.reports = []) (key : String)
    (ho : Outcome.Truncates exact o o') :
    ObjectPass.Truncates exact (takeMatched site p key o) (takeMatched site.collecting p key o') :=
  orFail_truncates hp (keepMatched_same p key) hearly hclean ho

/-! ### Phases -/

section

variable (h : site.Early check) {form : ObjectForm Schema} (hform : site.node.form = .object form)

include h

/-- The check of a child goes on, whatever it comes to. -/
theorem checkChild_goesOn {p : ObjectPass} (hp : p.stopped = false) (child : String × Schema) :
    Ends site.env p.GoesOn (checkChild check site.collecting p child) :=
  (h.ends_check _ _ _ _).bind fun o _ => .pure (takeChild_goesOn hp child.1 o)

/-- The phase of all children goes on. -/
theorem checkChildren_goesOn (form : ObjectForm Schema) {p : ObjectPass} (hp : p.stopped = false) :
    Ends site.env p.GoesOn (form.checkChildren check site.collecting p) := by
  refine (forEach_goesOn (fun _ child _ hp => checkChild_goesOn h hp child) hp).bind fun q hq =>
    .pure ?_
  rw [hq.going]
  exact hq.trans (eraseAll_goesOn q.stripped hq.going)

/-- The pattern that is about a key is the same one in both checks. -/
theorem isAbout_self (position : Position) (key : String) (matcher : KeyMatcher Schema) :
    Matches site.env Eq (isAbout check site position key matcher)
      (isAbout check site.collecting position key matcher) := by
  cases matcher with
  | pattern pattern => exact .pure rfl
  | schema schema => exact h.passes_self schema (.string key) position site.prefs

/-- The search goes on for a pattern that an undeclared key matches. -/
theorem checkPatterns_goesOn {p : ObjectPass} (hp : p.stopped = false) (key : String)
    (patterns : List (KeyPattern Schema)) :
    Ends site.env (fun x => ∀ q ∈ x, p.GoesOn q)
      (checkPatterns check site.collecting p key patterns) := by
  induction patterns with
  | nil => exact .pure fun _ hq => absurd hq (Option.not_mem_none _)
  | cons pattern rest ih =>
    have habout :=
      (isAbout_self h (site.position.nest (.key key) p.value) key pattern.matcher).symm.ends
    unfold checkPatterns
    refine habout.bind fun about _ => ?_
    cases about with
    | false => exact ih
    | true =>
      refine (h.ends_check _ _ _ _).bind fun o _ => .pure fun q hq => ?_
      obtain rfl := Option.some.inj hq
      exact takeMatched_goesOn hp key o

/-- The phase of undeclared keys goes on. -/
theorem checkUndeclared_goesOn (form : ObjectForm Schema) (left keys : List String) {p : ObjectPass}
    (hp : p.stopped = false) :
    Ends site.env (fun x => p.GoesOn x.1)
      (form.checkUndeclared check site.collecting p left keys) := by
  induction keys generalizing p left with
  | nil => exact .pure (.refl hp)
  | cons key rest ih =>
    unfold checkUndeclared
    rw [hp]
    refine (checkPatterns_goesOn h hp key form.patterns).bind fun matched hmatched => ?_
    cases matched with
    | none => exact ih (left ++ [key]) hp
    | some q =>
      have hq := hmatched q rfl
      exact (ih left hq.going).mono fun _ hr => hq.trans hr

omit h in
/-- Keys that nothing is about are kept, taken away or reported, and the phases go on. -/
theorem settleUnknown_goesOn (form : ObjectForm Schema) {p : ObjectPass} (hp : p.stopped = false)
    (keys : List String) : p.GoesOn (form.settleUnknown site.collecting p keys) := by
  unfold settleUnknown
  split
  · exact .refl hp
  · split
    · exact eraseAll_goesOn keys hp
    · split
      · exact .refl hp
      · exact failEach_goesOn hp

/-- Both steps about keys that are not declared go on. -/
theorem checkUnknown_goesOn (form : ObjectForm Schema) {p : ObjectPass} (hp : p.stopped = false)
    (keys : List String) :
    Ends site.env p.GoesOn (form.checkUnknown check site.collecting p keys) := by
  refine (checkUndeclared_goesOn h form [] keys hp).bind fun x hx => .pure ?_
  rw [hx.going]
  exact hx.trans (settleUnknown_goesOn form hx.going x.2)

omit h in
/-- Dependencies go on: one that fails is a report more. -/
theorem checkDependencies_goesOn (form : ObjectForm Schema) {p : ObjectPass}
    (hp : p.stopped = false) : p.GoesOn (form.checkDependencies site.collecting p) :=
  forEach_pure_goesOn (fun _ _ hp => failEach_goesOn hp) form.dependencies hp

omit h in
/-- The first dependency that fails settles the one check. -/
theorem checkDependencies_truncates {exact : Prop} (hearly : site.prefs.abortEarly = true)
    (form : ObjectForm Schema) {p : ObjectPass} (hclean : p.reports = []) (hp : p.stopped = false) :
    ObjectPass.Truncates exact (form.checkDependencies site p)
      (form.checkDependencies site.collecting p) :=
  forEach_pure_truncates (fun _ _ hclean hp => failEach_truncates hearly hclean hp)
    (fun _ _ hp => failEach_goesOn hp) form.dependencies hclean hp

omit h in
/-- The first key that nothing is about settles the one check. -/
theorem settleUnknown_truncates {exact : Prop} (hearly : site.prefs.abortEarly = true)
    (form : ObjectForm Schema) {p : ObjectPass} (hclean : p.reports = []) (hp : p.stopped = false)
    (keys : List String) :
    ObjectPass.Truncates exact (form.settleUnknown site p keys)
      (form.settleUnknown site.collecting p keys) := by
  have hreports : keys.map (unknownReport site.collecting p) =
      keys.map (unknownReport site p) := rfl
  unfold settleUnknown
  rw [hreports]
  show ObjectPass.Truncates exact _
    (if _ then p else if site.prefs.stripUnknown.objects && _ then _ else
    if form.unknown.getD site.prefs.allowUnknown then p else _)
  split
  · exact .clean hclean hp
  · split
    · exact .clean ((reports_eraseAll ..).trans hclean) ((stopped_eraseAll ..).trans hp)
    · split
      · exact .clean hclean hp
      · exact failEach_truncates hearly hclean hp

/-- Patterns are tried in the same order, and a key matches the same pattern in both checks. -/
theorem checkPatterns_meets {patterns : List (KeyPattern Schema)}
    (hin : ∀ pattern ∈ patterns, ∀ t ∈ pattern.schemas, (1, t) ∈ site.schema.visited)
    {p : ObjectPass} (hclean : p.reports = []) (hp : p.stopped = false) (key : String) :
    Meets site.env (Option.Rel (ObjectPass.Truncates site.IsExact))
      (checkPatterns check site p key patterns)
      (checkPatterns check site.collecting p key patterns) := by
  induction patterns with
  | nil => exact .pure .none
  | cons pattern rest ih =>
    have ih := ih fun pattern hpattern => hin pattern (List.mem_cons_of_mem _ hpattern)
    unfold checkPatterns
    refine (isAbout_self h _ key pattern.matcher).meets.bind ?_
    rintro about _ rfl
    cases about with
    | false => exact ih
    | true =>
      have hschema := hin pattern (List.mem_cons_self ..) pattern.schema
        (List.mem_append_right _ (List.mem_singleton_self _))
      refine (h.visited hschema _ _).bind fun o o' ho => .pure (.some ?_)
      exact takeMatched_truncates h.early hp hclean key ho

include hform

/-- Up to the first child that fails, the children come to the same in both checks. -/
theorem checkChildren_meets {p : ObjectPass} (hclean : p.reports = []) (hp : p.stopped = false) :
    Meets site.env (ObjectPass.Truncates site.IsExact) (form.checkChildren check site p)
      (form.checkChildren check site.collecting p) := by
  have hchildren : Meets site.env (ObjectPass.Truncates site.IsExact)
      (p.forEach (checkChild check site) form.orderedChildren)
      (p.forEach (checkChild check site.collecting) form.orderedChildren) := by
    refine forEach_meets ?_ (fun _ child _ hp => checkChild_goesOn h hp child) hclean hp
    intro p child hchild hclean hp
    refine (h.visited (visited_of_child hform hchild) _ _).bind fun o o' ho => .pure ?_
    exact takeChild_truncates h.early hp hclean child.1 ho
  refine hchildren.bind fun p q hpq => .pure ?_
  rw [going_right hpq]
  by_cases hended : p.stopped = true
  · rw [if_pos hended]
    exact ended_goesOn hpq hended (eraseAll_goesOn q.stripped (going_right hpq))
  · obtain ⟨rfl, hclean, hgoing⟩ := eq_of_going hpq hended
    rw [hgoing]
    exact .clean ((reports_eraseAll ..).trans hclean) ((stopped_eraseAll ..).trans hgoing)

/-- Both checks find the same keys that nothing is about, unless one is ended. -/
theorem checkUndeclared_meets (left keys : List String) {p : ObjectPass} (hclean : p.reports = [])
    (hp : p.stopped = false) :
    Meets site.env (fun x y => ObjectPass.Truncates site.IsExact x.1 y.1 ∧
      (x.1.stopped = false → y.2 = x.2))
      (form.checkUndeclared check site p left keys)
        (form.checkUndeclared check site.collecting p left keys) := by
  have hin : ∀ pattern ∈ form.patterns, ∀ t ∈ pattern.schemas, (1, t) ∈ site.schema.visited :=
    fun _ hpattern => visited_of_pattern hform hpattern
  induction keys generalizing p left with
  | nil => exact .pure ⟨.clean hclean hp, fun _ => rfl⟩
  | cons key rest ih =>
    unfold checkUndeclared
    rw [hp]
    refine (checkPatterns_meets h hin hclean hp key).bind ?_
    intro matched matched' hmatched
    cases hmatched with
    | none => exact ih _ hclean hp
    | @some q q' hq =>
      by_cases hended : q.stopped = true
      · -- the first check is over, and the other only adds reports
        have hrest : form.checkUndeclared check site q left rest = pure (q, left) := by
          cases rest with
          | nil => rfl
          | cons next rest =>
            unfold checkUndeclared
            rw [if_pos hended]
        dsimp only
        rw [hrest]
        refine .pure_left
          ((checkUndeclared_goesOn h form left rest (going_right hq)).mono fun x hx => ?_)
        refine ⟨ended_goesOn hq hended hx, fun hgoing => ?_⟩
        rw [hended] at hgoing
        exact absurd hgoing (by simp)
      · obtain ⟨rfl, hclean, hgoing⟩ := eq_of_going hq hended
        exact ih left hclean hgoing

/-- Up to the first failure, undeclared keys come to the same in both checks. -/
theorem checkUnknown_meets (keys : List String) {p : ObjectPass} (hclean : p.reports = [])
    (hp : p.stopped = false) :
    Meets site.env (ObjectPass.Truncates site.IsExact) (form.checkUnknown check site p keys)
      (form.checkUnknown check site.collecting p keys) := by
  refine (checkUndeclared_meets h hform [] keys hclean hp).bind fun x y hxy => .pure ?_
  obtain ⟨q, left⟩ := x
  obtain ⟨q', left'⟩ := y
  obtain ⟨hq, hleft⟩ := hxy
  dsimp only at hq hleft ⊢
  rw [going_right hq]
  by_cases hended : q.stopped = true
  · rw [if_pos hended]
    exact ended_goesOn hq hended (settleUnknown_goesOn form (going_right hq) left')
  · obtain ⟨rfl, hclean, hgoing⟩ := eq_of_going hq hended
    rw [hleft hgoing, hgoing]
    exact settleUnknown_truncates h.early form hclean hgoing left

/-- The phases follow each other, each from where the last one left off in both checks. -/
theorem checkMembers_meets (members : List (String × Value)) :
    Meets site.env (ObjectPass.Truncates site.IsExact) (form.checkMembers check site members)
      (form.checkMembers check site.collecting members) := by
  have hrenames : ObjectPass.Truncates site.IsExact (applyRenames site [] { members } form.renames)
      (applyRenames site.collecting [] { members } form.renames) :=
    applyRenames_truncates h.early form.renames [] rfl rfl
  -- once the first check is over, the other goes through the remaining phases
  have hafter (keys : List String) {p : ObjectPass} (hp : p.stopped = false) :
      Ends site.env p.GoesOn (form.checkUnknown check site.collecting p keys >>= fun p =>
        if p.stopped = true then pure p else pure (form.checkDependencies site.collecting p)) := by
    refine (checkUnknown_goesOn h form hp keys).bind fun q hq => next_goesOn hq ?_
    intro hgoing
    exact .pure (checkDependencies_goesOn form hgoing)
  unfold checkMembers
  dsimp only
  refine next_meets hrenames ?_ ?_
  · intro hp
    exact (checkChildren_goesOn h form hp).bind fun q hq =>
      next_goesOn hq fun hgoing => hafter _ hgoing
  · intro hsame hclean hp
    rw [hsame]
    refine (checkChildren_meets h hform hclean hp).bind fun p q hpq => ?_
    refine next_meets hpq (fun hgoing => hafter _ hgoing) ?_
    rintro rfl hclean hp
    refine (checkUnknown_meets h hform _ hclean hp).bind fun p q hpq => ?_
    refine next_meets hpq (fun hgoing => .pure (checkDependencies_goesOn form hgoing)) ?_
    rintro rfl hclean hp
    exact .pure (checkDependencies_truncates h.early form hclean hp)

theorem base_meets (value : Value) :
    Meets site.env (Outcome.Truncates site.IsExact) (form.base check site value)
      (form.base check site.collecting value) := by
  unfold base
  cases value with
  | object members =>
    dsimp only
    split
    · exact .pure (.refl _)
    · refine (checkMembers_meets h hform members).bind fun p q hpq => .pure ?_
      cases hpq with
      | clean _ _ => exact .refl _
      | ended _ _ hne hne' hfirst => exact .failed hne hne' hfirst
  | _ => exact .pure (.refl _)

end

end ObjectForm

end Conform
