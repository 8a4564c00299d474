import Conform.Proofs.NodeReports
import Conform.Proofs.ReadOnlyNode
import Conform.Proofs.SingleReport

/-!
# Checks with one report

The rules of a node come one after another, so the first one that fails ends them, and the finish
adds a report to others only where a default function fails. With what is known of objects and
arrays this makes one node. The whole check follows by induction on how deep nodes stand inside one
another; lazy nodes are no exception, whatever their generators make.

A step is said to be single if it adds one report at most and ends the check with it. For the
rules that follows from how they answer, whatever they look at. For the finish there are three
things that may be put in the place of a value, and of these only the function behind a default
can fail; its report comes after those that were found before. An array is the other exception,
since the required schemas that no member has matched and the places that no member has reached
are reported one after the other.

So the statement has a general form, in which after the first report only such reports may stand,
and a special one for schemas without either (`IsSparing`), of which there is exactly one.
Preferences of inner nodes could switch the early end off again, and alternatives check several
schemas; both are excluded by hypothesis.

Main statement: `Schema.early_failure_single`.
-/

namespace Conform

section

variable {check : Check} {extra : String → Prop} {site : Site}
  (h : site.Single check extra) {given : Given}
  (hgiven : ∀ t ∈ given.schema? "schema", (1, t) ∈ site.schema.visited)

include h hgiven

/-! ### Rules -/

theorem ArrayForm.rule_single (name : String) (value : Value) :
    Leaves site.env (Schema.EndsAtOnce site.env extra) (fun _ => True)
      (rule check site name given value) := by
  unfold rule
  dsimp only
  split
  case h_5 =>
    unfold hasRule
    split
    next members schema hschema =>
      have hasks (i : Nat) (member : Value) :=
        h.visited_passes (hgiven schema hschema) member
          (site.position.nest (.index i) (.array members)) site.prefs
      refine (leaves_anyMatches hasks 0 members).bind fun found _ => ?_
      split
      · exact .pure trivial
      · split <;> exact .pure trivial
    next => exact .pure trivial
  all_goals exact .pure trivial

theorem ObjectForm.rule_single (name : String) (value : Value) :
    Leaves site.env (Schema.EndsAtOnce site.env extra) (fun _ => True)
      (rule check site name given value) := by
  unfold rule
  dsimp only
  split
  case h_4 =>
    unfold assertRule
    split
    next subject schema hsubject hschema =>
      dsimp only
      refine (h.passes (h.throughout.visited (hgiven schema hschema)) _ _ _).bind fun passed _ => ?_
      split <;> exact .pure trivial
    next => exact .pure trivial
  all_goals exact .pure trivial

namespace Site

omit hgiven

/-- A rule may hold a value against a schema, but all that it says is a value or one report. -/
theorem applyRule_single {rule : Rule Schema} (hrule : rule ∈ site.node.rules) (value : Value) :
    Leaves site.env (Schema.EndsAtOnce site.env extra) (fun _ => True)
      (site.applyRule check value rule) := by
  unfold applyRule
  split
  · exact .pure trivial
  next spec _ =>
    split
    · exact .pure trivial
    next given hgiven =>
      split
      · exact .pure trivial
      · unfold typeRule
        cases site.node.form with
        | array form =>
          exact ArrayForm.rule_single h (visited_of_given hrule hgiven) spec.name value
        | object form =>
          exact ObjectForm.rule_single h (visited_of_given hrule hgiven) spec.name value
        | _ => exact .pure trivial

theorem applyRules_single {rules : List (Rule Schema)}
    (hrules : ∀ rule ∈ rules, rule ∈ site.node.rules) (value : Value) :
    Leaves site.env (Schema.EndsAtOnce site.env extra) (fun r => FirstOnly extra r.2)
      (site.applyRules check value [] rules) := by
  induction rules generalizing value with
  | nil => exact .pure .nil
  | cons rule rest ih =>
    have ih := ih fun rule hrule => hrules rule (List.mem_cons_of_mem _ hrule)
    unfold applyRules
    refine (applyRule_single h (hrules rule (List.mem_cons_self ..)) value).bind fun r _ => ?_
    cases r with
    | ok next => exact ih next
    | error report =>
      dsimp only
      rw [if_pos h.early]
      exact .pure (.one report)

/-! ### The steps of a node -/

/-- A default that cannot be made is reported after what was found before. -/
theorem fillIn_single (value : Value) {reports : List Report} (hreports : FirstOnly extra reports) :
    FirstOnly extra (site.fillIn value reports).2 := by
  unfold fillIn
  split
  · exact hreports
  · split
    · exact hreports
    · exact hreports
    next report hdefault =>
      refine hreports.add (.one report) fun _ r hr => ?_
      obtain rfl := List.mem_singleton.mp hr
      obtain ⟨default, hflag, hfails⟩ := Option.map_eq_some_iff.mp hdefault
      -- of the defaults only functions fail
      cases default with
      | function name =>
        simp only [defaultValue] at hfails
        split at hfails
        · exact absurd hfails (by simp)
        next f hf =>
          split at hfails
          · exact absurd hfails (by simp)
          next reason hreason =>
            obtain rfl := Except.error.inj hfails
            refine h.throughout.self.repeats _ (.inl ⟨rfl, ?_⟩)
            exact ⟨name, f, _, _, reason, hflag, hf, hreason⟩
      | _ => exact absurd hfails (by simp [defaultValue])

theorem finish_single (value : Value) {reports : List Report} (strip : Bool)
    (hreports : FirstOnly extra reports) :
    FirstOnly extra (site.finish value reports strip).reports := by
  have hrecover : FirstOnly extra (site.recover value reports).2 := by
    unfold recover
    split
    · exact hreports
    · split
      · exact .nil
      · exact hreports
  unfold finish
  refine fillIn_single h _ ?_
  unfold withOwnMessage
  split
  · exact .one _
  · exact hrecover

theorem checkBase_single (value : Value) :
    Leaves site.env (Schema.EndsAtOnce site.env extra) (fun o => FirstOnly extra o.reports)
      (site.checkBase check value) := by
  by_cases hscalar : site.node.form.isScalar = true
  · obtain ⟨o, hrun, hbase⟩ := checkBase_scalar hscalar check value
    rw [hrun]
    refine .pure ?_
    cases hbase with
    | same | anew => exact .nil
    | failure _ => exact .one _
  · unfold checkBase
    cases hform : site.node.form with
    | alternatives form =>
      have hkind : site.schema.kind = .alternatives := congrArg Form.kind hform
      exact absurd hkind h.throughout.self.kind
    | array form => exact ArrayForm.base_single h hform value
    | object form => exact ObjectForm.base_single h hform value
    | lazy form =>
      refine (Environment.force_leaves Schema.endsAtOnce_congr h.throughout hform).bind fun s hs =>
        ?_
      exact h.inner s hs value site.position site.prefs h.early
    | _ => exact absurd (by rw [hform]; rfl) hscalar

theorem checkContent_single (value : Value) :
    Leaves site.env (Schema.EndsAtOnce site.env extra) (fun o => FirstOnly extra o.reports)
      (site.checkContent check value []) := by
  unfold checkContent
  refine (checkBase_single h value).bind fun base hbase => ?_
  split
  · exact .pure (finish_single h _ _ hbase)
  · refine (applyRules_single h (fun _ hrule => hrule) base.value).bind fun r hr => .pure ?_
    exact finish_single h _ _ hr

/-- A value that is denied is not checked any further. -/
theorem checkPresent_single (value : Value) :
    Leaves site.env (Schema.EndsAtOnce site.env extra) (fun o => FirstOnly extra o.reports)
      (site.checkPresent check value) := by
  unfold checkPresent
  rw [h.early]
  split
  · exact .pure (finish_single h _ _ .nil)
  · cases site.denials value with
    | nil => exact checkContent_single h value
    | cons report rest => exact .pure (finish_single h _ _ (.one report))

theorem run_single :
    Leaves site.env (Schema.EndsAtOnce site.env extra) (fun o => FirstOnly extra o.reports)
      (site.run check) := by
  have hpresence (value : Value) (reports : List Report)
      (hreports : site.checkPresence value = .error reports) : FirstOnly extra reports := by
    rcases checkPresence_error hreports with rfl | ⟨code, -, rfl⟩
    · exact .nil
    · exact .one _
  have hempty (value : Value) : Leaves site.env (Schema.EndsAtOnce site.env extra) (fun _ => True)
      (site.dropEmpty check value) := by
    unfold dropEmpty
    split
    next empty hempty =>
      split
      · exact (h.visited_passes (visited_of_empty hempty) value _ _).bind fun _ _ => .pure trivial
      · exact .pure trivial
    · exact .pure trivial
  unfold run
  split
  · exact .pure (finish_single h _ _ (.one _))
  next value _ =>
    refine (hempty value).bind fun value _ => ?_
    split
    next reports hreports => exact .pure (finish_single h _ _ (hpresence value reports hreports))
    next value _ => exact checkPresent_single h value

end Site

end

/-! ### Whole checks -/

theorem Check.within_single {env : Environment} {extra : String → Prop} (fuel : Nat) :
    ∀ s : Schema, s.Throughout env (Schema.EndsAtOnce env extra) →
      ∀ value position (prefs : Preferences), prefs.abortEarly = true →
      Leaves env (Schema.EndsAtOnce env extra) (fun o => FirstOnly extra o.reports)
        (Check.within env fuel s value position prefs) := by
  induction fuel with
  | zero => exact fun _ _ _ _ _ _ => .failure
  | succ fuel ih =>
    intro s hs value position prefs hearly
    -- no patch asks for all failures
    have hmerged : (prefs.merged s.node.prefs).abortEarly = true := by
      have hpatch := hs.self.patch
      cases hprefs : s.node.prefs with
      | none => exact hearly
      | some patch =>
        rw [Preferences.merged_some]
        show patch.abortEarly.getD prefs.abortEarly = true
        cases hown : patch.abortEarly with
        | none => exact hearly
        | some own =>
          cases own with
          | true => rfl
          | false => exact absurd hown (hpatch patch hprefs)
    have hsite : Site.Single (Check.within env fuel) extra
        ⟨env, s, position, prefs.merged s.node.prefs, value⟩ := ⟨hmerged, hs, ih⟩
    exact Site.run_single hsite

namespace Schema

/-- Default functions of the node do not fail, and an array does not miss required schemas twice. -/
structure IsSparing (env : Environment) (s : Schema) : Prop where
  default : ¬s.node.MayLackDefault env
  missed : s.node.form.requiresTwice = false

theorem IsEager.endsAtOnce {env : Environment} {s : Schema} (h : s.IsEager) :
    s.EndsAtOnce env fun code => code = "any.default" ∨ code ∈ ArrayForm.missedCodes :=
  ⟨h, fun _ hcode => hcode.imp And.left And.left⟩

theorem IsSparing.endsAtOnce {env : Environment} {s : Schema} (h : s.IsSparing env)
    (heager : s.IsEager) : s.EndsAtOnce env fun _ => False := by
  refine ⟨heager, fun code hcode => ?_⟩
  rcases hcode with ⟨-, hdefault⟩ | ⟨-, htwice⟩
  · exact h.default hdefault
  · rw [h.missed] at htwice
    exact absurd htwice (by simp)

/-- Where the first failure settles the check, and neither alternatives nor a patch of the
preferences stands against that, a failure has one report; after it there may only be that a default
function has failed, or that an array has missed ordered schemas besides items. Where this cannot
be, there is nothing after it. -/
theorem early_failure_single {env : Environment} {s : Schema}
    (hs : s.Throughout env IsEager) (value : Value)
    {prefs : Preferences} (hearly : prefs.abortEarly = true) (renderer : Messages.Renderer)
    {w w₁ : Workshop} (hw : w.Keeps env IsEager) {verdict : Verdict}
    (hrun : (s.validate env value prefs renderer).run w = some (verdict, w₁))
    (hfails : verdict.isOk = false) : ∃ first rest, verdict.failures = first :: rest ∧
      (∀ d ∈ rest, d.code = "any.default" ∨ d.code ∈ ArrayForm.missedCodes) ∧
      (s.Throughout env (IsSparing env) → w.Keeps env (IsSparing env) → rest = []) := by
  obtain ⟨o, w₂, hcheck, hverdict⟩ := Runs.bind_some hrun
  obtain ⟨rfl, rfl⟩ := Runs.pure_some hverdict
  have hne : o.reports ≠ [] := by
    intro hnil
    rw [Verdict.isOk] at hfails
    rw [hnil] at hfails
    exact absurd hfails (by simp)
  obtain ⟨first, rest, hreports⟩ := List.exists_cons_of_ne_nil hne
  refine ⟨Messages.detail prefs.messages.entries renderer first,
    rest.map (Messages.detail prefs.messages.entries renderer), ?_,
    ?_, ?_⟩
  · show o.reports.map _ = _
    rw [hreports, List.map_cons]
  · -- the two codes that may follow
    have hkept : w.Keeps env (EndsAtOnce env fun code => code = "any.default" ∨
        code ∈ ArrayForm.missedCodes) :=
      fun form t ht => (hw form t ht).mono fun _ h => h.endsAtOnce
    have hthroughout : s.Throughout env (EndsAtOnce env fun code => code = "any.default" ∨
        code ∈ ArrayForm.missedCodes) := hs.mono fun _ h => h.endsAtOnce
    obtain ⟨honly, -⟩ :=
      Check.within_single nestingLimit s hthroughout value .root prefs hearly w o w₂ hkept hcheck
    intro d hd
    obtain ⟨report, hreport, rfl⟩ := List.mem_map.mp hd
    refine honly report ?_
    rw [hreports]
    exact hreport
  · -- neither may follow
    intro hsparing hshop
    have hkept : w.Keeps env (EndsAtOnce env fun _ => False) := fun form t ht depth u hu =>
      (hshop form t ht depth u hu).endsAtOnce (hw form t ht depth u hu)
    have hthroughout : s.Throughout env (EndsAtOnce env fun _ => False) := fun depth u hu =>
      (hsparing depth u hu).endsAtOnce (hs depth u hu)
    obtain ⟨honly, -⟩ :=
      Check.within_single nestingLimit s hthroughout value .root prefs hearly w o w₂ hkept hcheck
    have hlength := honly.length_le fun _ hnever => hnever
    rw [hreports, List.length_cons] at hlength
    rw [List.length_eq_zero_iff.mp (by omega : rest.length = 0)]
    rfl

theorem early_failure_single_twoFields : ∃ verdict w,
    (twoFields.validate {} twoTexts {}).run {} = some (verdict, w) ∧ verdict.isOk = false ∧
      ∃ first, verdict.failures = [first] := by
  have hfails : ((twoFields.validate {} twoTexts {}).run {}).any (fun r => !r.1.isOk) = true := by
    decide +kernel
  obtain ⟨⟨verdict, w⟩, hrun, hfails⟩ := (Option.any_eq_true _ _).mp hfails
  rw [Bool.not_eq_true'] at hfails
  have heager {s : Schema} (hkind : s.kind ≠ .alternatives) (hprefs : s.node.prefs = none) :
      s.IsEager :=
    ⟨hkind, by rw [hprefs]; exact fun _ h => nomatch h⟩
  have hsparing {s : Schema} (hflags : s.node.flags = {})
      (hmissed : s.node.form.requiresTwice = false) : s.IsSparing {} := by
    refine ⟨?_, hmissed⟩
    rintro ⟨name, f, value, prefs, reason, hdefault, -⟩
    rw [hflags] at hdefault
    exact absurd hdefault (by simp)
  have hs : twoFields.Throughout {} IsEager :=
    throughout_twoFields (heager (by decide) rfl) (heager (by decide) rfl)
  have hs' : twoFields.Throughout {} (IsSparing {}) :=
    throughout_twoFields (hsparing rfl rfl) (hsparing rfl rfl)
  obtain ⟨first, rest, hfailures, -, hrest⟩ := early_failure_single hs twoTexts rfl _
    (Workshop.keeps_new {} _) hrun hfails
  rw [hrest hs' (Workshop.keeps_new {} _)] at hfailures
  exact ⟨verdict, w, hrun, hfails, first, hfailures⟩

end Schema

end Conform
