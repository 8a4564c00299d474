import Conform.Proofs.MirrorArray
import Conform.Proofs.Truncation

/-!
# Arrays and the first failure

Two walks over the members of an array are the same up to the first failure, which ends the one that
it settles. The other walk goes on and keeps the reports it has. No schema may have a place of its
own here: what a schema makes of a place not reached shows the preferences it was checked under.

There are two things to say of each step, and they go through the definitions side by side.
While neither walk has failed, a step leads both to the same walk, or ends the one with what
is the first report of the other (`Step.Truncates`; the lemmas with `_meets` and
`_truncates`). Once the collecting walk has failed, whatever it does next leaves the reports
it has at the head (`Step.GoesOn`; the lemmas with `_goesOn`), so that its first report is
still the one that settled the other walk.

A schema that is tried on a member and fails is remembered, and its outcome is taken up again when
the member is let in by nothing. The two walks remember outcomes that differ as the checks do: the
same if it passed, and else with the same first place (`Failed`).

Main statement: `ArrayForm.base_meets`.
-/

namespace Conform.ArrayForm

/-- A walk without a failure so far, over an array without places. -/
structure Walk.Clean (form : ArrayForm Schema) (walk : Walk) : Prop where
  reports : walk.reports = []
  ordereds : walk.ordereds = []
  pending : ∀ x ∈ walk.requireds, x ∈ form.numberedRequireds

/-- What a member does to two walks that were the same: they are the same still, or one has ended
and both have failed. -/
inductive Step.Truncates (form : ArrayForm Schema) (exact : Prop) : Step → Step → Prop
  | next {walk : Walk} : walk.Clean form → Step.Truncates form exact (.next walk) (.next walk)
  | abort {reports : List Report} {walk : Walk} : reports ≠ [] → walk.reports ≠ [] →
      (exact → firstPlace walk.reports = firstPlace reports) →
      Step.Truncates form exact (.abort reports) (.next walk)

/-- A step that keeps the reports and goes on. -/
def Step.GoesOn (walk : Walk) (step : Step) : Prop :=
  ∃ after : Walk, step = .next after ∧ walk.reports <+: after.reports

namespace Ground

/-- The same walk where no failure settles the check. -/
def collecting (g : Ground) : Ground := { g with site := g.site.collecting }

variable {g : Ground} {check : Check} {exact : Prop}

/-- A walk that collects keeps the reports it has when it fails. -/
theorem fail_goesOn {walk : Walk} (reports : List Report) {goOn : Walk → Step}
    (hgo : ∀ walk, (goOn walk).GoesOn walk) :
    (g.collecting.fail walk reports goOn).GoesOn walk := by
  obtain ⟨after, hafter, hreports⟩ := hgo { walk with reports := walk.reports ++ reports }
  exact ⟨after, hafter, (List.prefix_append _ _).trans hreports⟩

/-- A failure ends the one walk, and the other has it as its first. -/
theorem fail_truncates (hearly : g.site.prefs.abortEarly = true) {walk : Walk}
    (hclean : walk.Clean g.form)
    {reports reports' : List Report} (hne : reports ≠ []) (hne' : reports' ≠ [])
    (hfirst : exact → firstPlace reports' = firstPlace reports) {goOn : Walk → Step}
    (hgo : ∀ walk, (goOn walk).GoesOn walk) :
    Step.Truncates g.form exact (g.fail walk reports goOn)
      (g.collecting.fail walk reports' goOn) := by
  obtain ⟨after, hafter, hreports⟩ := hgo { walk with reports := walk.reports ++ reports' }
  have hkept : reports' <+: after.reports := by
    rw [show ({ walk with reports := walk.reports ++ reports' } : Walk).reports = reports' by
      dsimp only
      rw [hclean.reports, List.nil_append]] at hreports
    exact hreports
  have hstep : g.fail walk reports goOn = .abort reports := by
    unfold fail
    dsimp only
    rw [if_pos hearly, hclean.reports, List.nil_append]
  have hstep' : g.collecting.fail walk reports' goOn = .next after := hafter
  rw [hstep, hstep']
  refine .abort hne ?_ fun hexact => ?_
  · intro hnil
    rw [hnil] at hkept
    exact hne' (List.prefix_nil.mp hkept)
  · rw [firstPlace_kept hne' hkept, hfirst hexact]

/-- A step that adds no report goes on. -/
theorem next_goesOn {walk after : Walk} (h : after.reports = walk.reports) :
    (Step.next after).GoesOn walk :=
  ⟨after, rfl, h ▸ List.prefix_rfl⟩

/-! ### What becomes of a member -/

/-- A member that is required keeps the reports there were. -/
theorem takeRequired_goesOn (walk : Walk) (i : Nat) (o : Outcome) :
    (g.collecting.takeRequired walk i o).GoesOn walk := by
  unfold takeRequired
  dsimp only
  split
  · exact fail_goesOn _ fun _ => next_goesOn rfl
  · exact next_goesOn rfl

/-- A required schema ends the one walk if the member fails, and takes the member in both if not. -/
theorem takeRequired_truncates (hearly : g.site.prefs.abortEarly = true) {walk : Walk}
    (hclean : walk.Clean g.form) (i : Nat) (o : Outcome) :
    Step.Truncates g.form exact (g.takeRequired walk i o) (g.collecting.takeRequired walk i o) := by
  unfold takeRequired
  dsimp only
  show Step.Truncates g.form exact _ (if g.isHole o.value then _ else _)
  split
  · exact fail_truncates hearly hclean (List.cons_ne_nil _ _) (List.cons_ne_nil _ _) (fun _ => rfl)
      fun _ => next_goesOn rfl
  · exact .next ⟨hclean.reports, hclean.ordereds, hclean.pending⟩

/-- A member that is let in keeps the reports there were. -/
theorem takeIncluded_goesOn (walk : Walk) (i : Nat) (o : Outcome) :
    (g.collecting.takeIncluded walk i o).GoesOn walk := by
  unfold takeIncluded
  split
  · exact next_goesOn rfl
  · split
    · exact fail_goesOn _ fun _ => next_goesOn rfl
    · exact next_goesOn rfl

/-- An item schema ends the one walk if the member fails, and takes the member in both if not. -/
theorem takeIncluded_truncates (hearly : g.site.prefs.abortEarly = true) {walk : Walk}
    (hclean : walk.Clean g.form) (i : Nat) (o : Outcome) :
    Step.Truncates g.form exact (g.takeIncluded walk i o) (g.collecting.takeIncluded walk i o) := by
  unfold takeIncluded
  split
  · exact .next ⟨hclean.reports, hclean.ordereds, hclean.pending⟩
  · show Step.Truncates g.form exact _ (if g.isHole o.value then _ else _)
    split
    · exact fail_truncates hearly hclean (List.cons_ne_nil _ _)
        (List.cons_ne_nil _ _) (fun _ => rfl) fun _ => next_goesOn rfl
    · exact .next ⟨hclean.reports, hclean.ordereds, hclean.pending⟩

/-! ### Trying schemas -/

/-- Failures with their numbers, of two checks. -/
def Failed (exact : Prop) : List (Nat × Outcome) → List (Nat × Outcome) → Prop :=
  List.Forall₂ fun x y => y.1 = x.1 ∧ Outcome.Truncates exact x.2 y.2 ∧ ¬x.2.isOk = true

/-- What came of trying the required schemas in two checks. -/
inductive Tried.Truncates (form : ArrayForm Schema) (exact : Prop) : Tried → Tried → Prop
  | matched (o : Outcome) {left : List (Nat × Schema)} : (∀ x ∈ left, x ∈ form.numberedRequireds) →
      Tried.Truncates form exact (.matched o left) (.matched o left)
  | failed {failed failed' : List (Nat × Outcome)} : Failed exact failed failed' →
      Tried.Truncates form exact (.failed failed) (.failed failed')

/-- Entries of the same numbers are found together. -/
theorem lookup_related {α β : Type} {R : α → β → Prop} {entries : List (Nat × α)}
    {entries' : List (Nat × β)}
    (h : List.Forall₂ (fun x y => y.1 = x.1 ∧ R x.2 y.2) entries entries') (n : Nat) :
    Option.Rel R (entries.lookup n) (entries'.lookup n) := by
  induction h with
  | nil => exact .none
  | @cons x y rest rest' hxy _ ih =>
    obtain ⟨number, a⟩ := x
    obtain ⟨number', b⟩ := y
    obtain ⟨hnumber, hab⟩ := hxy
    obtain rfl : number' = number := hnumber
    rw [List.lookup_cons, List.lookup_cons]
    split
    · exact .some hab
    · exact ih

/-- Checks that failed are remembered in both walks, each as it ended there. -/
theorem Failed.lookup {failed failed' : List (Nat × Outcome)}
    (h : Failed exact failed failed') (n : Nat) :
    Option.Rel (Outcome.Truncates exact) (failed.lookup n) (failed'.lookup n) :=
  lookup_related (h.imp fun _ _ hxy => ⟨hxy.1, hxy.2.1⟩) n

section

variable (h : g.site.Early check)

include h

/-- Whether a member is excluded is asked in the same way in both checks. -/
theorem isExcluded_self (i : Nat) (member : Value) (exclusions : List Schema) :
    Matches g.site.env Eq (g.isExcluded check i member exclusions)
      (g.collecting.isExcluded check i member exclusions) := by
  have hexcluded := isExcluded_lockstep (f := id) (k := g.collecting) fun s (_ : s ∈ exclusions) =>
    matches_iff_lockstep.mp (h.passes_self s member (g.position i) g.site.prefs)
  rw [List.map_id] at hexcluded
  exact matches_iff_lockstep.mpr hexcluded

/-- Trying the required schemas comes to an end. -/
theorem tryRequireds_ends (i : Nat) (member : Value) (before : List (Nat × Schema))
    (failed : List (Nat × Outcome)) (pending : List (Nat × Schema)) :
    Ends g.site.env (fun _ => True)
      (g.collecting.tryRequireds check i member before failed pending) := by
  induction pending generalizing before failed with
  | nil => exact .pure trivial
  | cons x rest ih =>
    unfold tryRequireds
    refine (h.ends_check x.2 member _ _).bind fun o _ => ?_
    split
    · exact .pure trivial
    · exact ih _ _

/-- Trying the item schemas comes to an end. -/
theorem tryInclusions_ends (i : Nat) (member : Value) (failed : List (Nat × Outcome))
    (candidates : List (Option Nat × Schema)) :
    Ends g.site.env (fun _ => True)
      (g.collecting.tryInclusions check i member failed candidates) := by
  induction candidates with
  | nil => exact .pure trivial
  | cons c rest ih =>
    have houtcome : Ends g.site.env (fun _ => True)
        (g.collecting.outcome check i member failed c.1 c.2) := by
      unfold Ground.outcome
      split
      · exact .pure trivial
      · exact h.ends_check c.2 member _ _
    unfold tryInclusions
    refine houtcome.bind fun o _ => ?_
    split
    · exact .pure trivial
    · split
      · exact .pure trivial
      · exact ih

/-- A member without a required schema keeps the reports there were. -/
theorem includeMember_goesOn (walk : Walk) (i : Nat) (member : Value)
    (failed : List (Nat × Outcome)) :
    Ends g.site.env (Step.GoesOn walk) (g.collecting.includeMember check walk i member failed) := by
  unfold includeMember
  dsimp only
  split
  · exact .pure (next_goesOn rfl)
  · refine (tryInclusions_ends h i member failed _).bind fun x _ => ?_
    obtain ⟨found, last⟩ := x
    cases found with
    | some o => exact .pure (takeIncluded_goesOn walk i o)
    | none =>
      dsimp only
      split
      · exact .pure (next_goesOn rfl)
      · split
        · exact .pure (fail_goesOn _ fun _ => next_goesOn rfl)
        · exact .pure (fail_goesOn _ fun _ => next_goesOn rfl)

/-- A member keeps the reports there were, wherever it goes. -/
theorem placeMember_goesOn (walk : Walk) (i : Nat) (member : Value) :
    Ends g.site.env (Step.GoesOn walk) (g.collecting.placeMember check walk i member) := by
  refine (tryRequireds_ends h i member [] [] walk.requireds).bind fun tried _ => ?_
  cases tried with
  | matched o left => exact .pure (takeRequired_goesOn { walk with requireds := left } i o)
  | failed failed => exact includeMember_goesOn h walk i member failed

/-- One step of the walk keeps the reports there were. -/
theorem step_goesOn (hplaces : g.form.ordered = []) (walk : Walk) (i : Nat) (member : Value)
    (rest : List Value) :
    Ends g.site.env (Step.GoesOn walk) (g.collecting.step check walk i member rest) := by
  unfold Ground.step
  dsimp only
  split
  · exact .pure (fail_goesOn _ fun _ => next_goesOn rfl)
  · refine (isExcluded_self h i member _).symm.ends.bind fun excluded _ => ?_
    split
    · exact .pure (fail_goesOn _ fun _ => next_goesOn rfl)
    · rw [if_pos (show g.collecting.form.ordered.isEmpty = true from List.isEmpty_iff.mpr hplaces)]
      exact placeMember_goesOn h walk i member

/-- A walk that collects failures keeps them and comes to the end of the members. -/
theorem walk_goesOn (hplaces : g.form.ordered = []) (members : List Value) (walk : Walk) (i : Nat) :
    Ends g.site.env (fun x => ∃ after : Walk, x = .ok after ∧ walk.reports <+: after.reports)
      (g.collecting.walk check walk i members) := by
  induction members generalizing walk i with
  | nil => exact .pure ⟨walk, rfl, List.prefix_rfl⟩
  | cons member rest ih =>
    unfold Ground.walk
    refine (step_goesOn h hplaces walk i member rest).bind fun step hstep => ?_
    obtain ⟨after, rfl, hreports⟩ := hstep
    refine (ih after (i + 1)).mono fun x hx => ?_
    obtain ⟨last, rfl, hlast⟩ := hx
    exact ⟨last, rfl, hreports.trans hlast⟩

/-! ### The walk -/

variable (hform : g.site.node.form = .array g.form)

include hform

/-- Both walks find the same required schema, or none with the same failures remembered. -/
theorem tryRequireds_meets (i : Nat) (member : Value) {before pending : List (Nat × Schema)}
    {failed failed' : List (Nat × Outcome)} (hbefore : ∀ x ∈ before, x ∈ g.form.numberedRequireds)
    (hpending : ∀ x ∈ pending, x ∈ g.form.numberedRequireds)
    (hfailed : Failed g.site.IsExact failed failed') :
    Meets g.site.env (Tried.Truncates g.form g.site.IsExact)
      (g.tryRequireds check i member before failed pending)
      (g.collecting.tryRequireds check i member before failed' pending) := by
  induction pending generalizing before failed failed' with
  | nil => exact .pure (.failed hfailed)
  | cons x rest ih =>
    have hx := hpending x (List.mem_cons_self ..)
    have hrest : ∀ y ∈ rest, y ∈ g.form.numberedRequireds := fun y hy =>
      hpending y (List.mem_cons_of_mem _ hy)
    unfold tryRequireds
    refine (h.visited (visited_of_numbered hform hx) member _).bind fun o o' ho => ?_
    rw [ho.ok]
    split
    next hok =>
      rw [ho.eq_of_ok hok]
      refine .pure (.matched o fun y hy => ?_)
      rcases List.mem_append.mp hy with hold | hnew
      · exact hbefore y hold
      · exact hrest y hnew
    -- a failure in both is kept for later in both
    next hfails =>
      refine ih ?_ hrest (List.rel_append hfailed (.cons ⟨rfl, ho, hfails⟩ .nil))
      intro y hy
      rcases List.mem_append.mp hy with hold | hnew
      · exact hbefore y hold
      · exact List.mem_singleton.mp hnew ▸ hx

omit hform in
/-- Either the same candidate matches in both checks, or the last one fails in both. -/
theorem tryInclusions_meets (i : Nat) (member : Value) {failed failed' : List (Nat × Outcome)}
    (hfailed : Failed g.site.IsExact failed failed') {candidates : List (Option Nat × Schema)}
    (hin : ∀ c ∈ candidates, (1, c.2) ∈ g.site.schema.visited) (hne : candidates ≠ []) :
    Meets g.site.env
      (fun x y => (∃ o, x = (some o, o) ∧ y = x) ∨
        ∃ o o', x = (none, o) ∧ y = (none, o') ∧
          Outcome.Truncates g.site.IsExact o o' ∧ ¬o.isOk = true)
      (g.tryInclusions check i member failed candidates)
      (g.collecting.tryInclusions check i member failed' candidates) := by
  induction candidates with
  | nil => exact absurd rfl hne
  | cons c rest ih =>
    obtain ⟨number, s⟩ := c
    -- a failure kept for later is looked up in both or in neither
    have houtcome : Meets g.site.env (Outcome.Truncates g.site.IsExact)
        (g.outcome check i member failed number s)
        (g.collecting.outcome check i member failed' number s) := by
      have hcheck := h.visited (hin _ (List.mem_cons_self ..)) member (g.position i)
      unfold Ground.outcome
      cases number with
      | none => exact hcheck
      | some n =>
        have hlook := hfailed.lookup n
        dsimp only [Option.bind]
        revert hlook
        cases failed.lookup n with
        | none =>
          cases failed'.lookup n with
          | none => exact fun _ => hcheck
          | some o' => exact fun hlook => nomatch hlook
        | some o =>
          cases failed'.lookup n with
          | none => exact fun hlook => nomatch hlook
          | some o' =>
            intro hlook
            cases hlook with
            | some ho => exact .pure ho
    unfold tryInclusions
    refine houtcome.bind fun o o' ho => ?_
    rw [ho.ok]
    split
    next hok =>
      rw [ho.eq_of_ok hok]
      exact .pure (.inl ⟨o, rfl, rfl⟩)
    next hfails =>
      split
      · exact .pure (.inr ⟨o, o', rfl, rfl, ho, hfails⟩)
      next hmore =>
        refine ih (fun c hc => hin c (List.mem_cons_of_mem _ hc)) ?_
        rintro rfl
        exact hmore rfl

/-- A member without a required schema is the same to both walks, up to the first failure. -/
theorem includeMember_meets {walk : Walk} (hclean : walk.Clean g.form) (i : Nat) (member : Value)
    {failed failed' : List (Nat × Outcome)} (hfailed : Failed g.site.IsExact failed failed') :
    Meets g.site.env (Step.Truncates g.form g.site.IsExact)
      (g.includeMember check walk i member failed)
      (g.collecting.includeMember check walk i member failed') := by
  unfold includeMember
  dsimp only
  rw [show g.collecting.candidates = g.candidates from rfl]
  split
  · exact .pure (.next ⟨hclean.reports, hclean.ordereds, hclean.pending⟩)
  next hnonempty =>
    have hne : g.candidates ≠ [] := fun hnil => hnonempty (by rw [hnil]; rfl)
    refine (tryInclusions_meets h i member hfailed (fun _ hc => visited_of_candidates hform hc)
      hne).bind fun x y hxy => ?_
    rcases hxy with ⟨o, rfl, rfl⟩ | ⟨o, o', rfl, rfl, ho, hfails⟩
    · exact .pure (takeIncluded_truncates h.early hclean i o)
    · obtain ⟨hreports, hreports'⟩ := ho.reports_ne hfails
      dsimp only
      show Meets _ _ _ (if g.site.prefs.stripUnknown.arrays then _ else _)
      split
      · exact .pure (.next hclean)
      · split
        · exact .pure
            (fail_truncates h.early hclean hreports hreports' ho.first fun _ => next_goesOn rfl)
        · exact .pure (fail_truncates h.early hclean (List.cons_ne_nil _ _) (List.cons_ne_nil _ _)
            (fun _ => rfl) fun _ => next_goesOn rfl)

/-- A member is the same to both walks, up to the first failure. -/
theorem placeMember_meets {walk : Walk} (hclean : walk.Clean g.form) (i : Nat) (member : Value) :
    Meets g.site.env (Step.Truncates g.form g.site.IsExact) (g.placeMember check walk i member)
      (g.collecting.placeMember check walk i member) := by
  refine (tryRequireds_meets h hform i member
    (fun _ hx => absurd hx List.not_mem_nil) hclean.pending .nil).bind fun x y hxy => ?_
  cases hxy with
  | @matched o left hleft =>
    have hrest : ({ walk with requireds := left } : Walk).Clean g.form :=
      ⟨hclean.reports, hclean.ordereds, hleft⟩
    exact .pure (takeRequired_truncates h.early hrest i o)
  | failed hfailed => exact includeMember_meets h hform hclean i member hfailed

variable (hplaces : g.form.ordered = [])

include hplaces

/-- One step of both walks is the same, up to the first failure. -/
theorem step_meets {walk : Walk} (hclean : walk.Clean g.form) (i : Nat) (member : Value)
    (rest : List Value) :
    Meets g.site.env (Step.Truncates g.form g.site.IsExact) (g.step check walk i member rest)
      (g.collecting.step check walk i member rest) := by
  have hskip {code : String} {context : List (String × Value)} :
      Step.Truncates g.form g.site.IsExact
        (g.fail walk [g.memberReport code i member context]
          fun walk => .next { walk with ordereds := walk.ordereds.tail })
        (g.collecting.fail walk [g.memberReport code i member context]
          fun walk => .next { walk with ordereds := walk.ordereds.tail }) :=
    fail_truncates h.early hclean (List.cons_ne_nil _ _) (List.cons_ne_nil _ _) (fun _ => rfl)
      fun _ => next_goesOn rfl
  unfold Ground.step
  dsimp only
  show Meets _ _ _ (if g.isHole member then _ else _)
  split
  · exact .pure hskip
  · refine (isExcluded_self h i member _).meets.bind ?_
    rintro excluded _ rfl
    split
    · exact .pure hskip
    · rw [if_pos (List.isEmpty_iff.mpr hplaces),
        if_pos (show g.collecting.form.ordered.isEmpty = true from List.isEmpty_iff.mpr hplaces)]
      exact placeMember_meets h hform hclean i member

/-- Two walks come to the end alike, or one is ended and both have failed. -/
theorem walk_meets (members : List Value) {walk : Walk} (hclean : walk.Clean g.form) (i : Nat) :
    Meets g.site.env
      (fun x y => (∃ last : Walk, x = .ok last ∧ y = .ok last ∧ last.Clean g.form) ∨
        ∃ reports last, x = .error reports ∧ y = .ok last ∧ reports ≠ [] ∧ last.reports ≠ [] ∧
          (g.site.IsExact → firstPlace last.reports = firstPlace reports))
      (g.walk check walk i members) (g.collecting.walk check walk i members) := by
  induction members generalizing walk i with
  | nil => exact .pure (.inl ⟨walk, rfl, rfl, hclean⟩)
  | cons member rest ih =>
    unfold Ground.walk
    refine (step_meets h hform hplaces hclean i member rest).bind fun step step' hstep => ?_
    cases hstep with
    | next hclean => exact ih hclean (i + 1)
    | @abort reports walk hne hne' hfirst =>
      refine .pure_left ((walk_goesOn h hplaces rest walk (i + 1)).mono fun x hx => .inr ?_)
      obtain ⟨last, rfl, hkept⟩ := hx
      refine ⟨reports, last, rfl, rfl, hne, ?_, fun hexact => ?_⟩
      · intro hnil
        rw [hnil] at hkept
        exact hne' (List.prefix_nil.mp hkept)
      · rw [firstPlace_kept hne' hkept, hfirst hexact]

end

end Ground

/-! ### The whole -/

section

variable {check : Check} {site : Site} (h : site.Early check) {form : ArrayForm Schema}
  (hform : site.node.form = .array form)

include h hform

/-- Both checks of all members come to the same, or both report, from the same place on. -/
theorem checkMembers_meets (members : List Value) :
    Meets site.env
      (fun x y => y = x ∨ x.2 ≠ [] ∧ y.2 ≠ [] ∧ (site.IsExact → firstPlace y.2 = firstPlace x.2))
      (form.checkMembers check site members) (form.checkMembers check site.collecting members) := by
  have hplaces : form.ordered = [] := h.truncatable.self.unordered form hform
  have hstart : Walk.Clean form { requireds := form.numberedRequireds, ordereds := form.ordered } :=
    ⟨rfl, hplaces, fun _ hx => hx⟩
  have hground : (⟨site, form, .array members⟩ : Ground).site.Early check := h
  unfold checkMembers
  refine (Ground.walk_meets hground hform hplaces members hstart 0).bind fun x y hxy => ?_
  -- the first report ends one check and goes on in the other, or there is none
  rcases hxy with ⟨last, rfl, rfl, hclean⟩ | ⟨reports, last, rfl, rfl, hne, hne', hfirst⟩
  · have hclose : ((⟨site, form, .array members⟩ : Ground).close check last) =
        pure (last.out, (⟨site, form, .array members⟩ : Ground).reports last) := by
      unfold Ground.close
      dsimp only
      rw [if_pos (by rw [hclean.ordereds]; rfl)]
    have hclose' : ((⟨site.collecting, form, .array members⟩ : Ground).close check last) =
        pure (last.out, (⟨site, form, .array members⟩ : Ground).reports last) := by
      unfold Ground.close
      dsimp only
      rw [if_pos (by rw [hclean.ordereds]; rfl)]
      rfl
    dsimp only
    rw [hclose, hclose']
    exact .pure (.inl rfl)
  · -- what was reported first stays in front
    have hkept :
        last.reports <+: (⟨site.collecting, form, .array members⟩ : Ground).reports last := by
      unfold Ground.reports
      dsimp only
      rw [List.append_assoc]
      exact List.prefix_append _ _
    have hreports : (⟨site.collecting, form, .array members⟩ : Ground).reports last ≠ [] := by
      intro hnil
      rw [hnil] at hkept
      exact hne' (List.prefix_nil.mp hkept)
    have hclose : ((⟨site.collecting, form, .array members⟩ : Ground).close check last) =
        pure (last.out, (⟨site.collecting, form, .array members⟩ : Ground).reports last) := by
      unfold Ground.close
      dsimp only
      rw [if_pos (by rw [List.isEmpty_eq_false_iff.mpr hreports, Bool.not_false, Bool.or_true])]
    dsimp only
    rw [hclose]
    refine .pure (.inr ⟨hne, hreports, fun hexact => ?_⟩)
    rw [firstPlace_kept hne' hkept, hfirst hexact]

/-- Both checks of an array come to the same, up to the first failure. -/
theorem base_meets (value : Value) :
    Meets site.env (Outcome.Truncates site.IsExact) (form.base check site value)
      (form.base check site.collecting value) := by
  unfold base
  split
  · exact .pure (.refl _)
  · split
    · refine (checkMembers_meets h hform _).bind fun x y hxy => .pure ?_
      rcases hxy with rfl | ⟨hne, hne', hfirst⟩
      · exact .refl _
      · exact .failed hne hne' hfirst
    · exact .pure (.refl _)

end

end Conform.ArrayForm
