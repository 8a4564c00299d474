import Conform.Proofs.NodeReports
import Conform.Proofs.ReadOnlyArray
import Conform.Proofs.Regular
import Conform.Proofs.TruncationNode

/-!
# Strict checks change nothing

A rule that passes a value passes it as it is (`Unchanged`), date texts included where nothing is
converted, and the finish of a node has nothing to put in. With what is known of alternatives,
objects and arrays this makes one node; the whole check follows by induction on how deep nodes stand
inside one another, and lazy nodes are no exception.

Most rules answer with the value that they were given or with a report, and that much is known of
them already. The exceptions make their value anew: rules that change a text, rounding, sorting, and
the reading of dates. Each of them does so only where conversion is on, and else tests whether the
value is as it would have to be; so with conversion off they are like the others.

A node without default and failover has only two ways to end. A value that is there is passed on
through the type and the rules, and if there are no reports it is what it was; a value that is
missing stays missing or is reported. What the preferences of inner nodes say is part of the
hypothesis, since a patch could switch conversion on again further down.

Main statement: `Schema.strict_unchanged`.
-/

namespace Conform

/-! ### Rules -/

/-- What passes, passes as it is. -/
structure Unchanged (value : Value) (r : Except Report Value) : Prop where
  eq : ∀ v, r = .ok v → v = value

namespace Unchanged

variable {value : Value}

theorem ok : Unchanged value (.ok value) :=
  ⟨fun _ h => (Except.ok.inj h).symm⟩

theorem error (report : Report) : Unchanged value (.error report) :=
  ⟨fun _ h => nomatch h⟩

/-- A rule that does not make the value anew. -/
theorem of_answer {site : Site} {codes : String → Prop} {anew : Prop} {r : Except Report Value}
    (h : Answer site value codes anew r) (hnever : ¬ anew) : Unchanged value r := by
  cases h with
  | same => exact .ok
  | anew other hanew => exact absurd hanew hnever
  | report _ _ => exact .error _

theorem requireSize (site : Site) (code : String) (limit : Nat) (passes : Bool) :
    Unchanged value (site.requireSize code value limit passes) :=
  have answer : Answer site value (fun _ => True) False
    (site.requireSize code value limit passes) :=
    .requireSize trivial limit passes
  .of_answer answer id

end Unchanged

section

variable {check : Check} {site : Site} (h : site.Strict check) {given : Given}
  (hgiven : ∀ t ∈ given.schema? "schema", (1, t) ∈ site.schema.visited)

include h hgiven

namespace ArrayForm

theorem rule_leaves (name : String) (value : Value) :
    Leaves site.env Schema.IsReadOnly (Unchanged value) (rule check site name given value) := by
  -- a repeated member is reported, and none is taken out
  have hunique : Unchanged value (uniqueRule site given value) := by
    unfold uniqueRule
    split
    · dsimp only
      split
      · exact .ok
      · exact .error _
    · exact .ok
  have hhas : Leaves site.env Schema.IsReadOnly (Unchanged value)
      (hasRule check site given value) := by
    unfold hasRule
    split
    next members schema hschema =>
      have hasks (i : Nat) (member : Value) :=
        h.visited_passes (hgiven schema hschema) member
          (site.position.nest (.index i) (.array members))
      refine (leaves_anyMatches hasks 0 members).bind fun found _ => ?_
      split
      · exact .pure .ok
      · split <;> exact .pure (.error _)
    next => exact .pure .ok
  unfold rule
  dsimp only
  split
  · exact .pure (.requireSize ..)
  · exact .pure (.requireSize ..)
  · exact .pure (.requireSize ..)
  · exact .pure hunique
  · exact hhas
  · exact .pure .ok

end ArrayForm

theorem ObjectForm.rule_leaves (name : String) (value : Value) :
    Leaves site.env Schema.IsReadOnly (Unchanged value) (rule check site name given value) := by
  have hassert : Leaves site.env Schema.IsReadOnly (Unchanged value)
      (assertRule check site given value) := by
    unfold assertRule
    split
    next subject schema hsubject hschema =>
      have hprefs : ({ site.prefs with allowUnknown := true } : Preferences).IsStrict :=
        ⟨h.prefs.convert, h.prefs.stripUnknown⟩
      dsimp only
      refine (h.passes (h.throughout.visited (hgiven schema hschema)) _ _ hprefs).bind
        fun passed _ => ?_
      split
      · exact .pure .ok
      · exact .pure (.error _)
    next => exact .pure .ok
  unfold rule
  dsimp only
  split
  · exact .pure (.requireSize ..)
  · exact .pure (.requireSize ..)
  · exact .pure (.requireSize ..)
  · exact hassert
  · exact .pure .ok

namespace Site

theorem typeRule_leaves (name : String) (value : Value) :
    Leaves site.env Schema.IsReadOnly (Unchanged value) (site.typeRule check name given value) := by
  unfold typeRule
  cases site.node.form with
  | array form => exact ArrayForm.rule_leaves h hgiven name value
  | object form => exact ObjectForm.rule_leaves h hgiven name value
  | binary encoding => exact .pure (.of_answer (.binaryRule ..) id)
  | date format => exact .pure (.of_answer (.dateRule ..) id)
  | number allowUnsafe => exact .pure (.of_answer (.numberRule ..) id)
  | string form =>
    have hlate : ¬(site.prefs.convert = true ∧ name = "isoDate") := fun hanew =>
      Bool.false_ne_true (h.prefs.convert.symm.trans hanew.1)
    exact .pure (.of_answer (.stringRule ..) hlate)
  | _ => exact .pure .ok

omit hgiven

theorem applyRule_leaves {rule : Rule Schema} (hrule : rule ∈ site.node.rules) (value : Value) :
    Leaves site.env Schema.IsReadOnly (Unchanged value) (site.applyRule check value rule) := by
  unfold applyRule
  cases hspec : site.node.kind.rule? rule.name with
  | none => exact .pure .ok
  | some spec =>
    dsimp only
    cases hgiven : site.resolveArguments value spec.parameters rule.args with
    | error report => exact .pure (.error _)
    | ok given =>
      have hname : spec.name ≠ "custom" := by
        rw [Kind.rule?_name hspec]
        exact h.node.rules rule hrule
      dsimp only
      rw [if_neg hname]
      exact typeRule_leaves h (visited_of_given hrule hgiven) spec.name value

/-- After all rules the value is what it was; they only add reports. -/
theorem applyRules_leaves {rules : List (Rule Schema)}
    (hrules : ∀ rule ∈ rules, rule ∈ site.node.rules) (value : Value) (reports : List Report) :
    Leaves site.env Schema.IsReadOnly (fun r => r.1 = value)
      (site.applyRules check value reports rules) := by
  induction rules generalizing reports with
  | nil => exact .pure rfl
  | cons rule rest ih =>
    have ih := ih fun rule hrule => hrules rule (List.mem_cons_of_mem _ hrule)
    unfold applyRules
    refine (applyRule_leaves h (hrules rule (List.mem_cons_self ..)) value).bind fun r hr => ?_
    cases r with
    | ok next =>
      rw [hr.eq next rfl]
      exact ih reports
    | error report =>
      dsimp only
      split
      · exact .pure rfl
      · exact ih _

/-! ### The steps of a node -/

/-- The finish puts nothing in, and hides no report. -/
theorem finish_returns {value : Value} {reports : List Report} {strip : Bool}
    (ho : Outcome.Returns site.input { value, reports, strip }) :
    Outcome.Returns site.input (site.finish value reports strip) := by
  -- there is no failover and no default
  have hrecover : site.recover value reports = (value, reports) := by
    unfold recover replacement?
    rw [h.node.failover]
    split <;> rfl
  have hfill (reports : List Report) : site.fillIn value reports = (value, reports) := by
    unfold fillIn
    rw [h.node.default]
    split <;> rfl
  have hmessage : (site.withOwnMessage value reports).isEmpty = reports.isEmpty := by
    unfold withOwnMessage
    cases reports with
    | nil => rfl
    -- a message replaces reports and does not hide them
    | cons first rest => cases site.node.flags.message <;> rfl
  intro hwhole hok
  unfold finish at hok ⊢
  rw [hrecover] at hok ⊢
  dsimp only at hok ⊢
  rw [hfill] at hok ⊢
  rw [Outcome.isOk, hmessage] at hok
  obtain ⟨hvalue, hstrip⟩ := ho hwhole hok
  have hvalue : value = site.input := hvalue
  have hstrip : strip = false := hstrip
  refine ⟨?_, ?_⟩
  · show (if site.node.flags.raw then site.input else value) = site.input
    rw [hvalue, ite_self]
  · show (strip || site.node.flags.strip) = false
    rw [hstrip, h.node.strip]
    rfl

theorem finish_same (reports : List Report) :
    Outcome.Returns site.input (site.finish site.input reports) :=
  finish_returns h (.same site.input reports)

theorem checkBase_leaves (value : Value) :
    Leaves site.env Schema.IsReadOnly (Outcome.Returns value) (site.checkBase check value) := by
  by_cases hscalar : site.node.form.isScalar = true
  · obtain ⟨o, hrun, hbase⟩ := checkBase_scalar hscalar check value
    rw [hrun]
    refine .pure ?_
    cases hbase with
    | same => exact .same _ _
    | anew other hconvert => exact absurd (h.prefs.convert.symm.trans hconvert) Bool.false_ne_true
    | failure _ => exact .same _ _
  · unfold checkBase
    cases hform : site.node.form with
    | alternatives form =>
      exact AlternativesForm.tryEntries_leaves h hform (fun _ hentry => hentry) value []
    | array form => exact ArrayForm.base_leaves h hform value
    | object form => exact ObjectForm.base_leaves h hform value
    | lazy form =>
      refine (Environment.force_leaves Schema.isReadOnly_congr h.throughout hform).bind fun s hs =>
        ?_
      exact h.inner s hs value site.position site.prefs h.prefs
    | _ => exact absurd (by rw [hform]; rfl) hscalar

theorem checkContent_leaves (reports : List Report) :
    Leaves site.env Schema.IsReadOnly (Outcome.Returns site.input)
      (site.checkContent check site.input reports) := by
  unfold checkContent
  refine (checkBase_leaves h site.input).bind fun base hbase => ?_
  by_cases hok : base.isOk = true
  · rw [hok]
    refine (applyRules_leaves h (fun _ hrule => hrule) base.value reports).bind fun r hr => .pure ?_
    refine finish_returns h fun hwhole _ => ?_
    obtain ⟨hvalue, hstrip⟩ := hbase hwhole (.inl hok)
    exact ⟨hr.trans hvalue, hstrip⟩
  · rw [Bool.not_eq_true] at hok
    rw [hok]
    refine .pure (finish_returns h fun hwhole hpasses => ?_)
    -- the type has failed, so nothing is known but of a missing value
    refine hbase hwhole (hpasses.imp_left fun hpasses => ?_)
    have hnil : reports ++ base.reports = [] := List.isEmpty_iff.mp hpasses
    exact List.isEmpty_iff.mpr (List.append_eq_nil_iff.mp hnil).2

theorem checkPresent_leaves :
    Leaves site.env Schema.IsReadOnly (Outcome.Returns site.input)
      (site.checkPresent check site.input) := by
  have hallowed : ∀ value, site.allowed? site.input = some value → value = site.input := by
    intro value hvalue
    unfold allowed? at hvalue
    rw [h.prefs.convert] at hvalue
    obtain ⟨found, -, heq⟩ := Option.map_eq_some_iff.mp hvalue
    exact heq.symm
  unfold checkPresent
  split
  next value hvalue =>
    rw [hallowed value hvalue]
    exact .pure (finish_same h _)
  next =>
    split
    · exact .pure (finish_same h _)
    · exact checkContent_leaves h _

theorem run_leaves :
    Leaves site.env Schema.IsReadOnly (Outcome.Returns site.input) (site.run check) := by
  -- nothing is converted, nothing counts as empty, and no default stands in
  have hconvert : site.convert site.input = .ok site.input := by
    unfold convert
    rw [h.prefs.convert]
    rfl
  have hempty : site.dropEmpty check site.input = pure site.input := by
    unfold dropEmpty
    rw [h.node.empty]
  have hpresence : ∀ value, site.checkPresence site.input = .ok value → value = site.input := by
    intro value hvalue
    have hdeep : site.isDeep = false := by
      unfold isDeep
      rw [h.node.default, Bool.and_false]
    unfold checkPresence at hvalue
    rw [hdeep] at hvalue
    split at hvalue
    · exact absurd hvalue (by simp)
    · exact absurd hvalue (by simp)
    · exact absurd hvalue (by simp)
    · exact absurd hvalue (by simp)
    · exact (Except.ok.inj hvalue).symm
  unfold run
  rw [hconvert]
  dsimp only
  rw [hempty, pure_bind]
  split
  next reports _ => exact .pure (finish_same h _)
  next value hvalue =>
    rw [hpresence value hvalue]
    exact checkPresent_leaves h

end Site

end

/-! ### Whole checks -/

theorem Check.within_returns {env : Environment} (fuel : Nat) :
    ∀ s : Schema, s.Throughout env Schema.IsReadOnly → ∀ value position (prefs : Preferences),
      prefs.IsStrict →
      Leaves env Schema.IsReadOnly (Outcome.Returns value)
        (Check.within env fuel s value position prefs) := by
  induction fuel with
  | zero => exact fun _ _ _ _ _ _ => .failure
  | succ fuel ih =>
    intro s hs value position prefs hprefs
    have hsite : Site.Strict (Check.within env fuel)
        ⟨env, s, position, prefs.merged s.node.prefs, value⟩ := ⟨hprefs.merged hs.self, hs, ih⟩
    exact Site.run_leaves hsite

namespace Schema

/-- Where nothing is converted or stripped, by schemas that put nothing in, take nothing away and
call no function, a value without holes that passes comes back as it was. -/
theorem strict_unchanged {env : Environment} {s : Schema}
    (hs : s.Throughout env IsReadOnly) {value : Value}
    (hwhole : value.isWhole = true) {prefs : Preferences} (hprefs : prefs.IsStrict)
    (renderer : Messages.Renderer) {w w₁ : Workshop}
    (hw : w.Keeps env IsReadOnly) {verdict : Verdict}
    (hrun : (s.validate env value prefs renderer).run w = some (verdict, w₁))
    (hok : verdict.isOk = true) : verdict.value = value := by
  obtain ⟨o, w₂, hcheck, hverdict⟩ := Runs.bind_some hrun
  obtain ⟨rfl, rfl⟩ := Runs.pure_some hverdict
  have hreturns : Outcome.Returns value o :=
    (Check.within_returns nestingLimit s hs value .root prefs hprefs w o w₂ hw hcheck).1
  have hpasses : o.isOk = true := by
    have hnone : o.reports.map (Messages.detail prefs.messages.entries renderer) = [] :=
      List.isEmpty_iff.mp hok
    rw [Outcome.isOk, List.map_eq_nil_iff.mp hnone]
    rfl
  obtain ⟨hvalue, hstrip⟩ := hreturns hwhole (.inl hpasses)
  show (if o.strip then Value.undefined else o.value) = value
  rw [hstrip, hvalue]
  rfl

/-- Numbers under the declared keys, in another order. -/
def backwards : Value := .object [("b", .number 2), ("a", .number 1)]

theorem strict_unchanged_backwards : ∃ verdict w,
    (twoFields.validate {} backwards { convert := false }).run {} = some (verdict, w) ∧
      verdict.isOk = true ∧ verdict.value = backwards := by
  have hpasses : ((twoFields.validate {} backwards { convert := false }).run {}).any
      (fun r => r.1.isOk) = true := by decide +kernel
  obtain ⟨⟨verdict, w⟩, hrun, hok⟩ := (Option.any_eq_true _ _).mp hpasses
  have hfree {s : Schema} (hform : s.node.form.IsReadOnly) (hflags : s.node.flags = {})
      (hempty : s.node.empty = none) (hrules : s.node.rules = []) (hprefs : s.node.prefs = none) :
      s.IsReadOnly := by
    refine ⟨?_, ?_, ?_, hempty, hform, ?_, ?_, ?_⟩
    · rw [hflags]
    · rw [hflags]
    · rw [hflags]
    · rw [hrules]
      exact List.forall_mem_nil _
    · rw [hprefs]
      exact fun _ h => nomatch h
    · rw [hprefs]
      exact fun _ h => nomatch h
  have hthroughout : twoFields.Throughout {} IsReadOnly :=
    throughout_twoFields (hfree rfl rfl rfl rfl rfl) (hfree trivial rfl rfl rfl rfl)
  have hvalue := strict_unchanged hthroughout (show backwards.isWhole = true by decide) ⟨rfl, rfl⟩ _
    (Workshop.keeps_new {} _) hrun hok
  exact ⟨verdict, w, hrun, hok, hvalue⟩

end Schema

end Conform
