import Conform.Proofs.TruncationNode
import Conform.Proofs.Whereabouts

/-!
# Reports stay inside

The walk of an array collects the reports of its members and adds its own, about a member or about
the array (`Walk.Inside`); a node puts together what its type and its rules report and may replace
all of it by one report of its own. So one node whose inner checks report inside their positions
reports inside its own (`Site.run_inside`), and by induction on how deep nodes stand inside one
another every check does.

A walk holds reports in more places than one: those that it has collected, and those of checks
that failed and may be taken up again when nothing lets the member in. Both are part of the
invariant. A report about a member names the member by its index in the context and in the path,
and the context that it brings along must not have an entry of that name already, which is asked
of each report where it is made.

What is said of a report is more than that its path begins with the path of the position. Its label
and its key have to agree with where it is as well, so that a reader can find from the report alone
what it is about; both follow because reports are only made at a site, by one function.

Main statement: `Schema.reports_stay_inside`, for every schema, also for those that lazy nodes make.
-/

namespace Conform

/-! ### Arrays -/

namespace ArrayForm

/-- What was reported on the way is about the array or its members. -/
def Walk.Inside (g : Ground) (walk : Walk) : Prop := AllUnder g.site.position.path walk.reports

/-- The walk that goes on, or the reports that end it, stay inside. -/
def Step.Inside (g : Ground) : Step → Prop
  | .next walk => walk.Inside g
  | .finish walk => walk.Inside g
  | .abort reports => AllUnder g.site.position.path reports

/-- A walk comes to its end, or the reports that ended it. -/
def Walk.Ended (g : Ground) : Except (List Report) Walk → Prop
  | .ok walk => walk.Inside g
  | .error reports => AllUnder g.site.position.path reports

/-- What trying schemas reported. -/
def Failed.Inside (g : Ground) (failed : List (Nat × Outcome)) : Prop :=
  ∀ n o, (n, o) ∈ failed → AllUnder g.site.position.path o.reports

namespace Ground

/-- What matches has nothing to report. -/
def Tried.Inside (g : Ground) : Tried → Prop
  | .matched _ _ => True
  | .failed outcomes => Failed.Inside g outcomes

variable {g : Ground} {walk : Walk}

/-- What is reported goes with the walk, or ends it. -/
theorem fail_inside (hwalk : walk.Inside g) {reports : List Report}
    (hreports : AllUnder g.site.position.path reports) {goOn : Walk → Step}
    (hgo : ∀ next : Walk, next.Inside g → (goOn next).Inside g) :
    (g.fail walk reports goOn).Inside g := by
  have hall : AllUnder g.site.position.path (walk.reports ++ reports) := hwalk.append hreports
  unfold fail
  dsimp only
  split
  · exact hall
  · exact hgo _ hall

/-- What is reported about a member is inside the array. -/
theorem fail_member_inside (hwalk : walk.Inside g) (code : String) (i : Nat) (member : Value)
    {context : List (String × Value)} (hkey : "key" ∉ Members.keys context) {goOn : Walk → Step}
    (hgo : ∀ next : Walk, next.Inside g → (goOn next).Inside g) :
    (g.fail walk [g.memberReport code i member context] goOn).Inside g := by
  have hkey : "key" ∉ Members.keys (("pos", Value.ofNat i) :: context) := by
    simpa [Members.keys] using hkey
  exact fail_inside hwalk (.one (reportAt_nest_under _ _ _ _ _ _ hkey)) hgo

/-- A member that is let in keeps a walk inside. -/
theorem takeIncluded_inside (hwalk : walk.Inside g) (i : Nat) (o : Outcome) :
    (g.takeIncluded walk i o).Inside g := by
  unfold takeIncluded
  split
  · exact hwalk
  · split
    · exact fail_member_inside hwalk _ i _ List.not_mem_nil fun _ hnext => hnext
    · exact hwalk

/-- A member that goes by its place keeps a walk inside. -/
theorem takeOrdered_inside (hwalk : walk.Inside g) (i : Nat) {o : Outcome}
    (ho : AllUnder g.site.position.path o.reports) : (g.takeOrdered walk i o).Inside g := by
  unfold takeOrdered
  split
  · exact fail_inside hwalk ho fun _ hnext => hnext
  · exact takeIncluded_inside hwalk i o

/-- A member that is required keeps a walk inside. -/
theorem takeRequired_inside (hwalk : walk.Inside g) (i : Nat) (o : Outcome) :
    (g.takeRequired walk i o).Inside g := by
  unfold takeRequired
  dsimp only
  split
  · exact fail_member_inside hwalk _ i _ List.not_mem_nil fun _ hnext => hnext
  · exact hwalk

variable {check : Check} (h : check.Inside g.site.env)

include h

/-- Trying the required schemas leaves failures whose reports are inside. -/
theorem tryRequireds_inside (i : Nat) (member : Value) (before : List (Nat × Schema))
    {failed : List (Nat × Outcome)} (hfailed : Failed.Inside g failed)
    (pending : List (Nat × Schema)) : Leaves g.site.env (fun _ => True) (Tried.Inside g)
      (g.tryRequireds check i member before failed pending) := by
  induction pending generalizing before failed with
  | nil => exact .pure hfailed
  | cons x rest ih =>
    obtain ⟨number, s⟩ := x
    unfold tryRequireds
    refine (h.nest s member g.site.position (.index i) g.parent g.site.prefs).bind fun o ho => ?_
    split
    · exact .pure trivial
    · refine ih _ fun n other hmem => ?_
      rcases List.mem_append.mp hmem with hold | hnew
      · exact hfailed n other hold
      · rw [(Prod.mk.inj (List.mem_singleton.mp hnew)).2]
        exact ho

/-- The last outcome, which reports if it is the only one. -/
theorem tryInclusions_inside (i : Nat) (member : Value) {failed : List (Nat × Outcome)}
    (hfailed : Failed.Inside g failed) (candidates : List (Option Nat × Schema)) :
    Leaves g.site.env (fun _ => True) (fun r => AllUnder g.site.position.path r.2.reports)
      (g.tryInclusions check i member failed candidates) := by
  induction candidates with
  | nil => exact .pure .nil
  | cons c rest ih =>
    obtain ⟨number, s⟩ := c
    have houtcome : Leaves g.site.env (fun _ => True)
        (fun o => AllUnder g.site.position.path o.reports)
        (g.outcome check i member failed number s) := by
      unfold Ground.outcome
      split
      next o hlook =>
        obtain ⟨n, -, hlook⟩ := Option.bind_eq_some_iff.mp hlook
        exact .pure (hfailed n o (mem_of_lookup hlook))
      next => exact h.nest s member g.site.position (.index i) g.parent g.site.prefs
    unfold tryInclusions
    refine houtcome.bind fun o ho => ?_
    split
    · exact .pure ho
    · split
      · exact .pure ho
      · exact ih

/-- A member without a required schema keeps a walk inside. -/
theorem includeMember_inside (hwalk : walk.Inside g) (i : Nat) (member : Value)
    {failed : List (Nat × Outcome)} (hfailed : Failed.Inside g failed) :
    Leaves g.site.env (fun _ => True) (Step.Inside g)
      (g.includeMember check walk i member failed) := by
  unfold includeMember
  dsimp only
  split
  · exact .pure hwalk
  · refine (tryInclusions_inside h i member hfailed g.candidates).bind fun r hr => ?_
    obtain ⟨found, last⟩ := r
    cases found with
    | some o => exact .pure (takeIncluded_inside hwalk i o)
    | none =>
      dsimp only
      split
      · exact .pure hwalk
      · split
        · exact .pure (fail_inside hwalk hr fun _ hnext => hnext)
        · exact .pure (fail_member_inside hwalk _ i _ List.not_mem_nil fun _ hnext => hnext)

/-- A member keeps a walk inside, wherever it goes. -/
theorem placeMember_inside (hwalk : walk.Inside g) (i : Nat) (member : Value) :
    Leaves g.site.env (fun _ => True) (Step.Inside g) (g.placeMember check walk i member) := by
  unfold placeMember
  refine (tryRequireds_inside h i member [] (fun _ _ hmem => absurd hmem List.not_mem_nil) _).bind
    fun tried htried => ?_
  cases tried with
  | matched o left =>
    have hleft : Walk.Inside g { walk with requireds := left } := hwalk
    exact .pure (takeRequired_inside hleft i o)
  | failed failed => exact includeMember_inside h hwalk i member htried

/-- One member. -/
theorem step_inside (hwalk : walk.Inside g) (i : Nat) (member : Value) (rest : List Value) :
    Leaves g.site.env (fun _ => True) (Step.Inside g) (g.step check walk i member rest) := by
  unfold step
  dsimp only
  split
  · exact .pure (fail_member_inside hwalk _ i _ List.not_mem_nil fun _ hnext => hnext)
  · refine (Leaves.anything _).bind fun excluded _ => ?_
    split
    · exact .pure (fail_member_inside hwalk _ i _ List.not_mem_nil fun _ hnext => hnext)
    · split
      · exact placeMember_inside h hwalk i member
      · cases walk.ordereds with
        | cons s ordereds =>
          refine (h.nest s member g.site.position (.index i) g.parent g.site.prefs).bind fun o ho =>
            .pure ?_
          have hrest : Walk.Inside g { walk with ordereds } := hwalk
          exact takeOrdered_inside hrest i ho
        | nil =>
          dsimp only
          split
          · exact .pure
              (fail_member_inside hwalk _ i _ (by simp [Members.keys]) fun _ hnext => hnext)
          · exact placeMember_inside h hwalk i member

/-- All members from some place on. -/
theorem walk_inside (hwalk : walk.Inside g) (i : Nat) (members : List Value) :
    Leaves g.site.env (fun _ => True) (Walk.Ended g) (g.walk check walk i members) := by
  induction members generalizing walk i with
  | nil => exact .pure hwalk
  | cons member rest ih =>
    unfold Ground.walk
    refine (step_inside h hwalk i member rest).bind fun next hnext => ?_
    cases next with
    | next walk => exact ih hnext (i + 1)
    | finish walk => exact .pure hnext
    | abort reports => exact .pure hnext

omit h in
/-- What a walk reports at its end is inside the array. -/
theorem reports_inside (hwalk : walk.Inside g) :
    AllUnder g.site.position.path (g.reports walk) := by
  have hmissed (value : Value) (missed : List Schema) :
      AllUnder g.site.position.path (missedReports g.site value missed) := by
    unfold missedReports
    split
    · exact .nil
    · refine .one ?_
      unfold missedReport
      dsimp only
      split
      · exact g.site.report_inside _ _ (by simp [Members.keys])
      · split
        · exact g.site.report_inside _ _ (by simp [Members.keys])
        · exact g.site.report_inside _ _ (by simp [Members.keys])
  exact (hwalk.append (hmissed _ _)).append (hmissed _ _)

omit h in
/-- Where defaults are added, nothing is reported. -/
theorem close_inside (hwalk : walk.Inside g) :
    Leaves g.site.env (fun _ => True) (fun r => AllUnder g.site.position.path r.2)
      (g.close check walk) := by
  unfold close
  dsimp only
  split
  · exact .pure (reports_inside hwalk)
  · exact (Leaves.anything _).bind fun _ _ => .pure .nil

end Ground

variable {check : Check} {site : Site}

/-- The check of an array reports inside the array. -/
theorem base_inside (h : check.Inside site.env) (form : ArrayForm Schema) (value : Value) :
    Leaves site.env (fun _ => True) (fun o => AllUnder site.position.path o.reports)
      (form.base check site value) := by
  unfold base
  split
  · exact .pure (.one (site.report_inside _ _ List.not_mem_nil))
  next members _ =>
    split
    · have hstart : Walk.Inside ⟨site, form, .array members⟩
          { requireds := form.numberedRequireds, ordereds := form.ordered } := .nil
      unfold checkMembers
      rw [bind_assoc]
      refine (Ground.walk_inside (g := ⟨site, form, .array members⟩) h hstart 0 members).bind
        fun r hr => ?_
      cases r with
      | ok walk =>
        exact (Ground.close_inside (g := ⟨site, form, .array members⟩) hr).bind
          fun closed hclosed => .pure hclosed
      | error reports => exact .pure hr
    · exact .pure .nil

/-- The rules of arrays report inside the array. -/
theorem rule_inside (name : String) (given : Given) (value : Value) :
    Leaves site.env (fun _ => True) (Rejects site.position.path)
      (rule check site name given value) := by
  have hhas : Leaves site.env (fun _ => True) (Rejects site.position.path)
      (hasRule check site given value) := by
    unfold hasRule
    split
    · refine (Leaves.anything _).bind fun found _ => ?_
      split
      · exact .pure (.ok _)
      · split
        · exact .pure (.own _ _ _ (by simp [Members.keys]))
        · exact .pure (.own _ _ _ List.not_mem_nil)
    · exact .pure (.ok _)
  unfold rule
  dsimp only
  split
  · exact .pure (.requireSize ..)
  · exact .pure (.requireSize ..)
  · exact .pure (.requireSize ..)
  · exact .pure (.uniqueRule ..)
  · exact hhas
  · exact .pure (.ok _)

end ArrayForm

/-! ### One node -/

/-- What an assertion is about stands at the site or below. -/
theorem ObjectForm.rule_inside {check : Check} {site : Site} (name : String)
    (given : Given) (value : Value) :
    Leaves site.env (fun _ => True) (Rejects site.position.path)
      (rule check site name given value) := by
  have hassert : Leaves site.env (fun _ => True) (Rejects site.position.path)
      (assertRule check site given value) := by
    unfold assertRule
    split
    · dsimp only
      refine (Leaves.anything _).bind fun passed _ => ?_
      split
      · exact .pure (.ok _)
      · refine .pure (.error (reportAt_under ?_ _ _ _ (by simp [Members.keys])))
        exact List.prefix_append _ _
    · exact .pure (.ok _)
  unfold rule
  dsimp only
  split
  · exact .pure (.requireSize ..)
  · exact .pure (.requireSize ..)
  · exact .pure (.requireSize ..)
  · exact hassert
  · exact .pure (.ok _)

namespace Site

variable {check : Check} {site : Site}

/-- A rule reports inside the position of its node. -/
theorem applyRule_inside (value : Value) (rule : Rule Schema) :
    Leaves site.env (fun _ => True) (Rejects site.position.path)
      (site.applyRule check value rule) := by
  have htype (name : String) (given : Given) :
      Leaves site.env (fun _ => True) (Rejects site.position.path)
      (site.typeRule check name given value) := by
    unfold typeRule
    split
    · exact ArrayForm.rule_inside name given value
    · exact .pure (.of_answer _ (.binaryRule ..))
    · exact .pure (.of_answer _ (.dateRule ..))
    · exact .pure (.of_answer _ (.numberRule ..))
    · exact ObjectForm.rule_inside name given value
    · exact .pure (.of_answer _ (.stringRule ..))
    · exact .pure (.ok _)
  unfold applyRule
  split
  · exact .pure (.ok _)
  next spec _ =>
    split
    next report hreport =>
      exact .pure (.error
        ((Rejects.resolveArguments site value spec.parameters rule.args).under report hreport))
    next given _ =>
      split
      · exact .pure (.customRule ..)
      · exact htype spec.name given

/-- Rules report inside the position of their node. -/
theorem applyRules_inside (value : Value) {reports : List Report}
    (hreports : AllUnder site.position.path reports) (rules : List (Rule Schema)) :
    Leaves site.env (fun _ => True) (fun r => AllUnder site.position.path r.2)
      (site.applyRules check value reports rules) := by
  induction rules generalizing value reports with
  | nil => exact .pure hreports
  | cons rule rest ih =>
    unfold applyRules
    refine (applyRule_inside value rule).bind fun r hr => ?_
    cases r with
    | ok next => exact ih next hreports
    | error report =>
      have hall : AllUnder site.position.path (reports ++ [report]) :=
        hreports.append (.one (hr.under report rfl))
      dsimp only
      split
      · exact .pure hall
      · exact ih value hall

/-- The finish drops the reports, puts its own in their place, or adds one on the default. -/
theorem finish_inside (value : Value) {reports : List Report}
    (hreports : AllUnder site.position.path reports)
    (strip : Bool) : AllUnder site.position.path (site.finish value reports strip).reports := by
  intro report hreport
  rcases mem_finish hreport with hgiven | ⟨first, -, value, _, rfl⟩ | ⟨_, rfl⟩
  · exact hreports report hgiven
  · have hown : (site.report first.code value).Under site.position.path :=
      site.report_inside _ _ List.not_mem_nil
    exact ⟨hown.below, hown.label, hown.key⟩
  · exact site.report_inside _ _ (by simp [Members.keys])

/-- The check of the type reports inside the position of the node. -/
theorem checkBase_inside (h : check.Inside site.env) (value : Value) :
    Leaves site.env (fun _ => True) (fun o => AllUnder site.position.path o.reports)
      (site.checkBase check value) := by
  by_cases hscalar : site.node.form.isScalar = true
  · obtain ⟨o, hrun, hbase⟩ := checkBase_scalar hscalar check value
    rw [hrun]
    refine .pure ?_
    cases hbase with
    | same | anew => exact .nil
    | failure hkey => exact .one (site.report_inside _ _ hkey)
  · unfold checkBase
    cases hform : site.node.form with
    | alternatives form =>
      exact AlternativesForm.tryEntries_inside h form value (List.forall_mem_nil _) form.entries
    | array form => exact ArrayForm.base_inside h form value
    | object form => exact ObjectForm.base_inside h form value
    | lazy form => exact (Leaves.anything _).bind fun s _ => h s value site.position site.prefs
    | _ => exact absurd (by rw [hform]; rfl) hscalar

/-- The type and the rules report inside the position of the node. -/
theorem checkContent_inside (h : check.Inside site.env) (value : Value) {reports : List Report}
    (hreports : AllUnder site.position.path reports) :
    Leaves site.env (fun _ => True) (fun o => AllUnder site.position.path o.reports)
      (site.checkContent check value reports) := by
  unfold checkContent
  refine (checkBase_inside h value).bind fun base hbase => ?_
  split
  · exact .pure (finish_inside _ (hreports.append hbase) _)
  · exact (applyRules_inside base.value hreports _).bind fun r hr => .pure (finish_inside _ hr _)

/-- The check of a value that is there reports inside the position of the node. -/
theorem checkPresent_inside (h : check.Inside site.env) (value : Value) :
    Leaves site.env (fun _ => True) (fun o => AllUnder site.position.path o.reports)
      (site.checkPresent check value) := by
  have hdenials : AllUnder site.position.path (site.denials value) := by
    intro report hreport
    rcases mem_denials hreport with ⟨code, -, rfl⟩ | rfl
    · exact site.report_inside _ _ (by simp [Members.keys])
    · exact site.report_inside _ _ (by simp [Members.keys])
  unfold checkPresent
  split
  · exact .pure (finish_inside _ .nil _)
  · split
    next report rest hdenied _ =>
      rw [hdenied] at hdenials
      exact .pure (finish_inside _ (.one (hdenials report (List.mem_cons_self ..))) _)
    next => exact checkContent_inside h value hdenials

/-- All steps of a node. -/
theorem run_inside (h : check.Inside site.env) :
    Leaves site.env (fun _ => True) (fun o => AllUnder site.position.path o.reports)
      (site.run check) := by
  have hconvert : Rejects site.position.path (site.convert site.input) := by
    unfold convert
    split
    · exact .ok _
    · split
      · exact .ok _
      · exact .ok _
      · exact .ok _
      · exact .ok _
      · unfold NumberCheck.coerce
        split
        · split
          · exact .ok _
          · exact .own _ _ _ List.not_mem_nil
          · exact .ok _
        · exact .ok _
      · exact .ok _
      · exact .ok _
      · exact .ok _
  have hpresence (value : Value) (reports : List Report)
      (hfails : site.checkPresence value = .error reports) :
      AllUnder site.position.path reports := by
    rcases checkPresence_error hfails with rfl | ⟨code, -, rfl⟩
    · exact .nil
    · exact .one (site.report_inside _ _ List.not_mem_nil)
  unfold run
  split
  next report hreport => exact .pure (finish_inside _ (.one (hconvert.under report hreport)) _)
  next value _ =>
    refine (Leaves.anything _).bind fun value _ => ?_
    split
    next reports hreports => exact .pure (finish_inside _ (hpresence value reports hreports) _)
    next value _ => exact checkPresent_inside h value

end Site

/-! ### Whole checks -/

/-- Every check reports inside the position at which it is made. -/
theorem Check.within_inside (env : Environment) (fuel : Nat) :
    (Check.within env fuel).Inside env := by
  induction fuel with
  | zero => exact fun _ _ _ _ => .failure
  | succ fuel ih =>
    intro s value position prefs
    have hsite : (Check.within env fuel).Inside
      (Site.mk env s position (prefs.merged s.node.prefs) value).env := ih
    exact Site.run_inside hsite

namespace Schema

/-- Every report points at the position of the check or below it, says what the value is called, and
names the last step of its path, where it has one. So a report on a child of anything is about no
other child of it, nor about what the child stands in. -/
theorem reports_stay_inside (env : Environment) (fuel : Nat) (s : Schema) (value : Value)
    (position : Position) (prefs : Preferences) {w w₁ : Workshop} {o : Outcome}
    (hrun : (Check.within env fuel s value position prefs).run w = some (o, w₁)) :
    ∀ r ∈ o.reports,
      position.path <+: r.path ∧ Members.contains r.context "label" = true ∧
      Members.get? r.context "key" = r.path.getLast?.map Segment.toValue ∧
      ∀ parent segment, position.path = parent ++ [segment] →
        ¬r.path <+: parent ∧ ∀ other, other ≠ segment → ¬parent ++ [other] <+: r.path := by
  intro r hr
  have hunder : r.Under position.path :=
    (Check.within_inside env fuel s value position prefs).out hrun r hr
  refine ⟨hunder.below, hunder.label, hunder.key, fun parent segment hpath => ?_⟩
  have hbelow : parent ++ [segment] <+: r.path := hpath ▸ hunder.below
  exact ⟨not_above_of_below hbelow, fun other hne hother => hne (child_eq_of_below hbelow hother)⟩

/-- Two texts where numbers should be, under the key `item` of something. -/
theorem reports_stay_inside_item : ∃ o w,
    (Check.within {} 2 twoFields twoTexts ⟨[.key "item"], []⟩ {}).run {} = some (o, w) ∧
      o.reports ≠ [] ∧ ∀ r ∈ o.reports, [Segment.key "item"] <+: r.path ∧
        ¬[Segment.key "other"] <+: r.path := by
  have hfails : ((Check.within {} 2 twoFields twoTexts ⟨[.key "item"], []⟩ {}).run {}).any
      (fun r => !r.1.reports.isEmpty) = true := by decide +kernel
  obtain ⟨⟨o, w⟩, hrun, hsome⟩ := (Option.any_eq_true _ _).mp hfails
  refine ⟨o, w, hrun, fun hnone => ?_, fun r hr => ?_⟩
  · rw [hnone] at hsome
    exact absurd hsome (by decide)
  · obtain ⟨hbelow, -, -, happart⟩ := reports_stay_inside {} 2 twoFields twoTexts _ {} hrun r hr
    exact ⟨hbelow, (happart [] (.key "item") rfl).2 (.key "other") (by decide)⟩

end Schema

end Conform
