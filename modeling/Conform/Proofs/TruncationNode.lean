import Conform.Proofs.NodeReports
import Conform.Proofs.TruncationArray
import Conform.Proofs.TruncationObject

/-!
# Settling a check by the first failure

Where the first failure settles a check, less is found than where all failures are collected, but
the same values pass, with the same results, and the failure reported first is about the same
(`Outcome.Truncates`). This is shown node by node: a node passes one value through its steps, and
each step either gives the same in both checks or ends one of them, after which the other goes on
with the reports it has. Preferences of nodes inside may have it either way.

The two checks are run from the same state. As long as they agree they leave the same
state, and where one of them has ended the other may leave another one, which is why
nothing that is asked later may depend on how often a generator was called: environments
are steady (`Environment.Steady`). Nor may a registered function ask where the check
stops (`Environment.Blind`).

Arrays and objects are the two forms that go on after a failure, and each has a module of its own.
The other forms look at one value once. What a rule does with its arguments does not depend on where
a check stops, so rules pass in both checks or are reported by both, one in the one and one or more
in the other. The whole follows by induction on the levels of the tree.

Main statement: `Schema.abort_early_truncates`.
-/

namespace Conform

/-- Applying no function to given arguments changes nothing. -/
theorem Given.map_id (given : Given) : given.map id = given := by
  have hstored : mapChildren (Argument.map id) given.stored = given.stored := by
    unfold mapChildren
    rw [show (Argument.map id : Argument Schema → Argument Schema) = id from funext Argument.map_id]
    exact List.map_id _
  unfold Given.map
  rw [hstored]

/-- Looking for a member that matches does not depend on where a check stops. -/
theorem ArrayForm.anyMatches_collecting (check : Check) (site : Site)
    (schema : Schema) (parent : Value) (i : Nat) (members : List Value) :
    anyMatches check site.collecting schema parent i members =
      anyMatches check site schema parent i members := by
  induction members generalizing i with
  | nil => rfl
  | cons member rest ih =>
    unfold anyMatches
    rw [ih]
    rfl

/-- The rules of arrays do not depend on where a check stops. -/
theorem ArrayForm.rule_collecting (check : Check) (site : Site) (name : String) (given : Given)
    (value : Value) :
    rule check site.collecting name given value = rule check site name given value := by
  unfold rule hasRule
  simp only [anyMatches_collecting]
  rfl

/-- The rules of objects do not depend on where a check stops. -/
theorem ObjectForm.rule_collecting (check : Check) (site : Site) (name : String) (given : Given)
    (value : Value) :
    rule check site.collecting name given value = rule check site name given value :=
  rfl

namespace Site

variable {check : Check} {site : Site} (h : site.Early check)

include h

/-! ### Rules -/

/-- A rule does the same in both checks. -/
theorem applyRule_collecting (value : Value) (rule : Rule Schema) :
    site.collecting.applyRule check value rule = site.applyRule check value rule := by
  have hcustom (given : Given) : site.collecting.customRule given value =
      site.customRule given value := by
    have hcustom := h.alike.customRule given value
    rw [Given.map_id] at hcustom
    exact hcustom
  -- rules see neither which failures are asked for nor what was reported
  have htype (name : String) (given : Given) :
      site.collecting.typeRule check name given value = site.typeRule check name given value := by
    have hform : site.collecting.node.form = site.node.form := rfl
    have hbinary := h.alike.binaryRule name given value
    have hdate := h.alike.dateRule name given value
    have hnumber := h.alike.numberRule name given value
    have hstring := h.alike.stringRule name given value
    rw [Given.map_id] at hbinary hdate hnumber hstring
    unfold typeRule
    rw [hform]
    cases site.node.form with
    | array form => exact ArrayForm.rule_collecting check site name given value
    | object form => exact ObjectForm.rule_collecting check site name given value
    | binary encoding => exact congrArg pure hbinary
    | date format => exact congrArg pure hdate
    | number allowUnsafe => exact congrArg pure hnumber
    | string form => exact congrArg pure hstring
    | _ => rfl
  have hkind : site.collecting.node.kind = site.node.kind := rfl
  have harguments (parameters : List Parameter) (args : List (Argument Schema)) :
      site.collecting.resolveArguments value parameters args =
      site.resolveArguments value parameters args := rfl
  unfold applyRule
  simp only [hkind, harguments, hcustom, htype]

/-- A rule comes to the same in both checks. -/
theorem applyRule_self {rule : Rule Schema} (hrule : rule ∈ site.node.rules) (value : Value) :
    Matches site.env Eq (site.applyRule check value rule)
      (site.collecting.applyRule check value rule) := by
  rw [applyRule_collecting h]
  exact (matches_iff_lockstep.mpr
    (applyRule_mirrors h.twin.mirror (ArrayForm.unseen_erase true) hrule value)).left

/-- Collecting keeps the reports it has. -/
theorem applyRules_keeps {rules : List (Rule Schema)}
    (hrules : ∀ rule ∈ rules, rule ∈ site.node.rules) (value : Value) (reports : List Report) :
    Ends site.env (fun x => reports <+: x.2)
      (site.collecting.applyRules check value reports rules) := by
  induction rules generalizing value reports with
  | nil => exact .pure List.prefix_rfl
  | cons rule rest ih =>
    have ih := ih fun rule hrule => hrules rule (List.mem_cons_of_mem _ hrule)
    unfold applyRules
    refine (applyRule_self h (hrules rule (List.mem_cons_self ..)) value).symm.ends.bind
      fun result _ => ?_
    cases result with
    | ok value => exact ih value reports
    | error report => exact (ih value _).mono fun _ hx => (List.prefix_append _ _).trans hx

/-- Rules pass in both checks, or the reports of the one are the first of the other. -/
theorem applyRules_meets {rules : List (Rule Schema)}
    (hrules : ∀ rule ∈ rules, rule ∈ site.node.rules) (value : Value) :
    Meets site.env (fun x y => y = x ∧ x.2 = [] ∨ x.2 ≠ [] ∧ x.2 <+: y.2)
      (site.applyRules check value [] rules) (site.collecting.applyRules check value [] rules) := by
  induction rules generalizing value with
  | nil => exact .pure (.inl ⟨rfl, rfl⟩)
  | cons rule rest ih =>
    have hrest : ∀ rule ∈ rest, rule ∈ site.node.rules := fun rule hrule =>
      hrules rule (List.mem_cons_of_mem _ hrule)
    unfold applyRules
    refine (applyRule_self h (hrules rule (List.mem_cons_self ..)) value).meets.bind ?_
    rintro result _ rfl
    cases result with
    | ok value => exact ih hrest value
    | error report =>
      dsimp only
      rw [if_pos h.early]
      exact .pure_left ((applyRules_keeps h hrest value [report]).mono fun _ hx =>
        .inr ⟨List.cons_ne_nil _ _, hx⟩)

/-! ### The check of the type -/

/-- A generated schema is the same in both checks, and its check is up to the first failure. -/
theorem lazy_meets {form : LazyForm} (hform : site.node.form = .lazy form) (value : Value) :
    Meets site.env (Outcome.Truncates site.IsExact)
      (site.env.force form >>= fun schema => check schema value site.position site.prefs)
      (site.env.force form >>= fun schema =>
        check schema value site.position site.prefs.collecting) := by
  have hmade : Schema.Occurs site.env site.schema 0 (site.env.product form.generator) :=
    .made .self hform
  refine (Environment.force_matches h.steady form form rfl).meets.bind fun t u htu => ?_
  obtain ⟨ht, hu⟩ := htu
  have htruncatable : t.Throughout site.env Schema.IsTruncatable :=
    .congr Schema.isTruncatable_congr ht (h.truncatable.of_occurs hmade)
  have hinner := (h.inner t htruncatable value site.position).mono fun _ _ ho =>
    ho.weaken fun hexact : site.IsExact =>
      Schema.Throughout.congr Schema.isNotAlternatives_congr ht (hexact.of_occurs hmade)
  -- the second check may have made the schema anew, with other marks
  have hleft := h.careful true t (.inl rfl) value site.position _ site.prefs.collecting (.refl t _)
  have hright := h.careful true u (.inl rfl) value site.position _ site.prefs.collecting (.refl u _)
  rw [ht, ← hu] at hleft
  exact hinner.trans_matches (hleft.trans (hright.symm.mono fun _ _ heq => heq.symm))

/-- The check of the type is the same up to the first failure. -/
theorem checkBase_meets (value : Value) :
    Meets site.env (Outcome.Truncates site.IsExact) (site.checkBase check value)
      (site.collecting.checkBase check value) := by
  have hform' : site.collecting.node.form = site.node.form := rfl
  unfold checkBase
  rw [hform']
  cases hform : site.node.form with
  | any => exact .pure (.refl _)
  | alternatives form => exact AlternativesForm.check_meets h hform value
  | array form => exact ArrayForm.base_meets h hform value
  | lazy form => exact lazy_meets h hform value
  | object form => exact ObjectForm.base_meets h hform value
  | binary encoding => exact .pure (h.alike.binaryBase value ▸ .refl _)
  | boolean form => exact .pure (h.alike.booleanBase value ▸ .refl _)
  | date format => exact .pure (h.alike.dateBase format value ▸ .refl _)
  | number allowUnsafe => exact .pure (h.alike.numberBase allowUnsafe value ▸ .refl _)
  | string form => exact .pure (h.alike.stringBase value ▸ .refl _)

omit h in
/-- The check of an array strips nothing. -/
theorem strip_array {form : ArrayForm Schema} {value : Value} {w w' : Workshop} {o : Outcome}
    (hrun : (form.base check site value).run w = some (o, w')) : o.strip = false := by
  unfold ArrayForm.base at hrun
  split at hrun
  · obtain ⟨rfl, -⟩ := Runs.pure_some hrun
    rfl
  · split at hrun
    · obtain ⟨_, _, -, hrest⟩ := Runs.bind_some hrun
      obtain ⟨rfl, -⟩ := Runs.pure_some hrest
      rfl
    · obtain ⟨rfl, -⟩ := Runs.pure_some hrun
      rfl

omit h in
/-- The check of an object strips nothing. -/
theorem strip_object {form : ObjectForm Schema} {value : Value} {w w' : Workshop} {o : Outcome}
    (hrun : (form.base check site value).run w = some (o, w')) : o.strip = false := by
  unfold ObjectForm.base at hrun
  split at hrun
  · split at hrun
    · obtain ⟨rfl, -⟩ := Runs.pure_some hrun
      rfl
    · obtain ⟨_, _, -, hrest⟩ := Runs.bind_some hrun
      obtain ⟨rfl, -⟩ := Runs.pure_some hrest
      rfl
  · obtain ⟨rfl, -⟩ := Runs.pure_some hrun
    rfl

omit h in
/-- Only alternatives and lazy nodes pass on that a value is to be dropped. -/
theorem strip_checkBase (hkind : ¬(site.schema.kind = .alternatives ∨ site.schema.kind = .lazy))
    {value : Value}
    {w w' : Workshop} {o : Outcome} (hrun : (site.checkBase check value).run w = some (o, w')) :
    o.strip = false := by
  by_cases hscalar : site.node.form.isScalar = true
  · obtain ⟨base, hpure, hbase⟩ := checkBase_scalar hscalar check value
    rw [hpure] at hrun
    obtain ⟨rfl, -⟩ := Runs.pure_some hrun
    cases hbase <;> rfl
  · unfold checkBase at hrun
    cases hform : site.node.form with
    | alternatives form => exact absurd (.inl (congrArg Form.kind hform)) hkind
    | lazy form => exact absurd (.inr (congrArg Form.kind hform)) hkind
    | array form =>
      rw [hform] at hrun
      exact strip_array hrun
    | object form =>
      rw [hform] at hrun
      exact strip_object hrun
    | _ => exact absurd (by rw [hform]; rfl) hscalar

/-- What a failure that is replaced says about dropping the value: nothing. -/
theorem strip_replaced {value : Value} {w w' : Workshop} {o : Outcome}
    (hfailover : site.node.flags.failover.isSome = true) :
    ((site.checkBase check value).run w = some (o, w') → o.strip = false) ∧
      ((site.collecting.checkBase check value).run w = some (o, w') → o.strip = false) := by
  have hkind : ¬(site.schema.kind = .alternatives ∨ site.schema.kind = .lazy) := by
    intro hkind
    have hnone : site.node.flags.failover = none := h.truncatable.self.unreplaced hkind
    rw [hnone] at hfailover
    exact absurd hfailover (by simp)
  have hkind' :
      ¬(site.collecting.schema.kind = .alternatives ∨ site.collecting.schema.kind = .lazy) := hkind
  exact ⟨strip_checkBase hkind, strip_checkBase hkind'⟩

/-! ### The steps -/

/-- What has failed already stays failed: the reports are kept up to the finish. -/
theorem checkContent_keeps (value : Value) (reports : List Report) :
    Ends site.env
      (fun o => ∃ value more strip, o = site.collecting.finish value more strip ∧ reports <+: more ∧
        (site.node.flags.failover.isSome = true → strip = false))
      (site.collecting.checkContent check value reports) := by
  have hsteady : site.collecting.env.Steady := h.steady
  have hcareful : Careful site.collecting.env check := h.careful
  have hwhole := h.twin_collecting.whole hsteady hcareful (.inl rfl)
  have hbase := (matches_iff_lockstep.mpr (hwhole.checkBase value)).left.ends
  unfold checkContent
  refine (hbase.and_results fun w o w' hrun hfailover =>
    (strip_replaced h hfailover).2 hrun).bind ?_
  intro base hbase
  split
  · exact .pure ⟨base.value, _, base.strip, rfl, List.prefix_append _ _, hbase.2⟩
  · refine (applyRules_keeps h (fun _ hrule => hrule) base.value reports).bind fun x hx => ?_
    exact .pure ⟨x.1, x.2, base.strip, rfl, hx, hbase.2⟩

/-- The type and then the rules are the same up to the first failure. -/
theorem checkContent_meets (value : Value) :
    Meets site.env (Outcome.Truncates site.IsExact) (site.checkContent check value [])
      (site.collecting.checkContent check value []) := by
  unfold checkContent
  refine ((checkBase_meets h value).and_results
    (fun w o w' hrun hfailover => (strip_replaced h hfailover).1 hrun)
    (fun w o w' hrun hfailover => (strip_replaced h hfailover).2 hrun)).bind ?_
  intro base base' hbase
  obtain ⟨hbase, hstrip, hstrip'⟩ := hbase
  rw [hbase.ok, h.alike.finish]
  by_cases hok : base.isOk = true
  · rw [hbase.eq_of_ok hok, hok]
    refine (applyRules_meets h (fun _ hrule => hrule) base.value).bind fun x y hxy => .pure ?_
    rcases hxy with ⟨rfl, -⟩ | ⟨hne, hkept⟩
    · exact .refl _
    · have hne' : y.2 ≠ [] := by
        intro hnil
        rw [hnil] at hkept
        exact hne (List.prefix_nil.mp hkept)
      exact site.finish_failing hne hne' (fun _ => firstPlace_kept hne hkept) fun _ => rfl
  · obtain ⟨hne, hne'⟩ := hbase.reports_ne hok
    rw [if_pos (by simpa using hok), if_pos (by simpa using hok)]
    refine .pure (site.finish_failing hne hne' hbase.first fun hfailover => ?_)
    rw [hstrip hfailover, hstrip' hfailover]

/-- The check of a value that is there is the same up to the first failure. -/
theorem checkPresent_meets (value : Value) :
    Meets site.env (Outcome.Truncates site.IsExact) (site.checkPresent check value)
      (site.collecting.checkPresent check value) := by
  have hcontent := checkContent_meets h value
  have hkeeps := checkContent_keeps h value
  have hlate : site.collecting.prefs.abortEarly = false := rfl
  unfold checkPresent
  rw [h.alike.allowed?, h.alike.denials, h.alike.finish, h.early, hlate]
  cases site.allowed? value with
  | some found => exact .pure (.refl _)
  | none =>
    dsimp only
    cases site.denials value with
    | nil => exact hcontent
    | cons report rest =>
      refine .pure_left ((hkeeps (report :: rest)).mono fun o ho => ?_)
      obtain ⟨value', more, strip, rfl, hkept, hstrip⟩ := ho
      have hne : more ≠ [] := by
        rintro rfl
        exact absurd (List.prefix_nil.mp hkept) (List.cons_ne_nil _ _)
      rw [h.alike.finish]
      have hplace := firstPlace_kept (List.cons_ne_nil report rest) hkept
      exact site.finish_failing (List.cons_ne_nil _ _) hne (fun _ => hplace) hstrip

/-- The check of a node is the same up to the first failure. -/
theorem run_meets :
    Meets site.env (Outcome.Truncates site.IsExact) (site.run check)
      (site.collecting.run check) := by
  have hempty (value : Value) : site.collecting.dropEmpty check value =
      site.dropEmpty check value := rfl
  unfold run
  rw [h.alike.convert, h.alike.input, h.alike.finish]
  split
  · exact .pure (.refl _)
  next value _ =>
    rw [hempty]
    refine (matches_iff_lockstep.mpr (dropEmpty_mirrors h.twin.mirror value)).left.meets.bind ?_
    rintro value _ rfl
    rw [h.alike.checkPresence]
    split
    · exact .pure (.refl _)
    · exact checkPresent_meets h _

end Site

/-! ### Whole checks -/

variable {env : Environment}

/-- Preferences under which less is collected are the same, or stop where the others collect. -/
theorem Preferences.eq_or_collecting {p p' : Preferences} (h : p.Truncates p') :
    p' = p ∨ p.abortEarly = true ∧ p' = p.collecting := by
  obtain ⟨hsame, hearly⟩ := h
  rcases hearly with hearly | heq
  · obtain ⟨abortEarly, convert, allowUnknown, stripUnknown, presence, context,
        noDefaults, messages⟩ := p
    obtain ⟨abortEarly', _, _, _, _, _, _, _⟩ := p'
    obtain ⟨rfl, rfl, rfl, rfl, rfl, rfl, rfl⟩ : _ ∧ _ ∧ _ ∧ _ ∧ _ ∧ _ ∧ _ := by
      simpa [collecting] using hsame
    cases abortEarly' with
    | true => exact .inl (by rw [show abortEarly = true from hearly])
    | false => exact .inr ⟨hearly, rfl⟩
  · exact .inl heq

/-- Checks by a tree with no more levels than counted are the same up to the first failure. -/
theorem Check.within_truncates (hsteady : env.Steady) (hblind : env.Blind) (fuel : Nat) :
    ∀ s : Schema, s.Throughout env Schema.IsTruncatable →
      ∀ value position (prefs prefs' : Preferences),
      prefs.Truncates prefs' →
      Meets env (Outcome.Truncates (s.Throughout env Schema.IsNotAlternatives))
        (Check.within env fuel s value position prefs)
          (Check.within env fuel s value position prefs') := by
  induction fuel with
  | zero => exact fun _ _ _ _ _ _ _ => Matches.failure.meets
  | succ fuel ih =>
    intro s hs value position prefs prefs' hprefs
    have hcareful := Check.within_careful hsteady fuel
    have hmerged := hprefs.merged s.node.prefs
    show Meets env _ (Site.run ⟨env, s, position, prefs.merged s.node.prefs, value⟩ _)
      (Site.run ⟨env, s, position, prefs'.merged s.node.prefs, value⟩ _)
    rcases Preferences.eq_or_collecting hmerged with hsame | ⟨hearly, hlate⟩
    · rw [hsame]
      have hself :=
        (Check.node_careful hsteady hcareful true s (.inl rfl) value position position prefs
        (.refl s position)).left
      exact hself.meets.mono fun o _ heq => heq ▸ .refl o
    · rw [hlate]
      have hsite : Site.Early (Check.within env fuel)
          ⟨env, s, position, prefs.merged s.node.prefs, value⟩ :=
        ⟨hearly, hsteady, hblind, hcareful, hs, fun t ht value position =>
          ih t ht value position _ _ ⟨rfl, .inl hearly⟩⟩
      exact Site.run_meets hsite

/-! ### Samples -/

namespace Schema

/-- Two numbers. -/
def twoFields : Schema :=
  ofForm (.object { keys := some [("a", number), ("b", number)], order := ["a", "b"] })

/-- What holds of an object with two fields of numbers and of the numbers holds throughout. -/
theorem throughout_twoFields {P : Schema → Prop} (hobject : P twoFields) (hnumber : P number) :
    twoFields.Throughout {} P := by
  refine (throughout_of_closed (P := fun t => t = twoFields ∨ t = number) (.inl rfl) ?_ ?_).mono ?_
  · rintro t (rfl | rfl) levels child hchild
    · have hboth : (levels, child) ∈ [(1, number), (1, number)] := hchild
      rcases List.mem_cons.mp hboth with heq | hmem
      · exact .inr (Prod.mk.inj heq).2
      · exact .inr (Prod.mk.inj (List.mem_singleton.mp hmem)).2
    · exact absurd hchild List.not_mem_nil
  · rintro t (rfl | rfl) form hform
    · exact absurd hform (by simp [twoFields, ofForm])
    · exact absurd hform (by simp [number, ofForm])
  · rintro t (rfl | rfl)
    · exact hobject
    · exact hnumber

/-- Two values that are no numbers. -/
def twoTexts : Value := .object [("a", .string "x"), ("b", .string "y")]

/-- A number that must be larger each time. -/
def counted (used : Nat) : Schema :=
  { node := { form := .number false, rules := [⟨"min", [.literal (.ofNat (used + 1))]⟩] } }

/-- The generator is asked anew at each check. -/
def countedAnew : Schema := ofForm (.lazy { generator := "counted", once := false })

/-- One field is forbidden, and the other one is checked only if failures are collected. -/
def firstTry : Schema :=
  ofForm (.object {
    keys := some [("a", any.withPresence .forbidden), ("b", countedAnew)], order := ["a", "b"] })

/-- The counted field alone, whatever else there is. -/
def secondTry : Schema :=
  ofForm (.object { keys := some [("b", countedAnew)], order := ["b"], unknown := some true })

/-- The one and then the other. -/
def twoTries : Schema :=
    ofForm (.alternatives { entries := [.attempt firstTry, .attempt secondTry] })

/-- The one generator does not make the same schema twice. -/
def restless : Environment where
  registry := { generators := fun name => if name = "counted" then some counted else none }

/-- Only the generator, which is restless, keeps the two tries from being truncated. -/
theorem truncatable_twoTries : twoTries.Throughout restless IsTruncatable := by
  let parts (t : Schema) : Prop := t = twoTries ∨ t = firstTry ∨ t = secondTry ∨ t = countedAnew ∨
    t = any.withPresence .forbidden ∨ ∃ used, t = counted used
  refine (throughout_of_closed (P := parts) (.inl rfl) ?_ ?_).mono ?_
  · rintro t (rfl | rfl | rfl | rfl | rfl | ⟨used, rfl⟩) levels child hchild
    · have hboth : (levels, child) ∈ [(0, firstTry), (0, secondTry)] := hchild
      simp only [List.mem_cons, Prod.mk.injEq, List.not_mem_nil, or_false] at hboth
      rcases hboth with ⟨-, rfl⟩ | ⟨-, rfl⟩ <;> simp [parts]
    · have hboth : (levels, child) ∈ [(1, any.withPresence .forbidden), (1, countedAnew)] := hchild
      simp only [List.mem_cons, Prod.mk.injEq, List.not_mem_nil, or_false] at hboth
      rcases hboth with ⟨-, rfl⟩ | ⟨-, rfl⟩ <;> simp [parts]
    · have hone : (levels, child) ∈ [(1, countedAnew)] := hchild
      simp only [List.mem_cons, Prod.mk.injEq, List.not_mem_nil, or_false] at hone
      obtain ⟨-, rfl⟩ := hone
      simp [parts]
    · exact absurd hchild List.not_mem_nil
    · exact absurd hchild List.not_mem_nil
    · exact absurd hchild List.not_mem_nil
  · rintro t (rfl | rfl | rfl | rfl | rfl | ⟨used, rfl⟩) form hform later
    · exact absurd hform (by simp [twoTries, ofForm])
    · exact absurd hform (by simp [firstTry, ofForm])
    · exact absurd hform (by simp [secondTry, ofForm])
    · obtain rfl := Form.lazy.inj hform
      exact .inr (.inr (.inr (.inr (.inr ⟨later, rfl⟩))))
    · exact absurd hform (by simp [any, ofForm, withPresence, updateFlags, update])
    · exact absurd hform (by simp [counted])
  · rintro t (rfl | rfl | rfl | rfl | rfl | ⟨used, rfl⟩)
    all_goals
      refine ⟨fun f hf => ?_, fun _ => rfl⟩
      refine absurd hf ?_
      simp [twoTries, firstTry, secondTry, countedAnew, counted, any, ofForm, withPresence,
        updateFlags, update]

/-! ### The first failure settles no more than it has to -/

/-- Provided that generators make the same schema each time: where the first failure settles a
check, the same values pass as where failures are collected, with the same results, and without
alternatives the first failure is about the same. -/
theorem abort_early_truncates {env : Environment} (hsteady : env.Steady)
    (hblind : env.Blind) {s : Schema}
    (hs : s.Throughout env IsTruncatable) (fuel : Nat) (value : Value) (position : Position)
    (prefs : Preferences) {w w' w₁ w₁' : Workshop} (hw : w.Sound env)
    (hw' : w'.Sound env) {o o' : Outcome}
    (hrun : (Check.within env fuel s value position { prefs with abortEarly := true }).run w =
      some (o, w₁))
    (hrun' : (Check.within env fuel s value position { prefs with abortEarly := false }).run w' =
      some (o', w₁')) :
    o'.isOk = o.isOk ∧ (o.isOk = true → o'.value = o.value ∧ o'.strip = o.strip) ∧
      (s.Throughout env IsNotAlternatives → o.isOk = false →
        ∃ first first', o.reports.head? = some first ∧
        o'.reports.head? = some first' ∧ first'.code = first.code ∧ first'.path = first.path) := by
  have hmeets := Check.within_truncates hsteady hblind fuel s hs value position
    { prefs with abortEarly := true } { prefs with abortEarly := false } ⟨rfl, .inl rfl⟩
  obtain ⟨ho, -, -⟩ := hmeets w w' o o' w₁ w₁' hw hw' hrun hrun'
  refine ⟨ho.ok, ho.same, fun hexact hfails => ?_⟩
  obtain ⟨hne, hne'⟩ := ho.reports_ne (by simp [hfails])
  obtain ⟨first, rest, hreports⟩ := List.exists_cons_of_ne_nil hne
  obtain ⟨first', rest', hreports'⟩ := List.exists_cons_of_ne_nil hne'
  have hplace : first'.place = first.place := by
    have hplace := ho.first hexact
    rw [hreports, hreports'] at hplace
    exact Option.some.inj hplace
  refine ⟨first, first', by rw [hreports]; rfl, by rw [hreports']; rfl, ?_, ?_⟩
  · exact congrArg Prod.fst hplace
  · exact congrArg Prod.snd hplace

theorem abort_early_truncates_twoFields : ∃ o o' : Outcome, o.isOk = false ∧ o'.isOk = false ∧
    o.reports.length = 1 ∧ o'.reports.length = 2 ∧ ∃ first first', o.reports.head? = some first ∧
      o'.reports.head? = some first' ∧ first'.code = first.code ∧ first'.path = first.path := by
  have hearly : ((Check.within {} 3 twoFields twoTexts .root { abortEarly := true }).run {}).any
      (fun r => !r.1.isOk && r.1.reports.length == 1) = true := by decide +kernel
  have hlate : ((Check.within {} 3 twoFields twoTexts .root { abortEarly := false }).run {}).any
      (fun r => !r.1.isOk && r.1.reports.length == 2) = true := by decide +kernel
  obtain ⟨⟨o, w⟩, hrun, ho⟩ := (Option.any_eq_true _ _).mp hearly
  obtain ⟨⟨o', w'⟩, hrun', ho'⟩ := (Option.any_eq_true _ _).mp hlate
  rw [Bool.and_eq_true, Bool.not_eq_true', beq_iff_eq] at ho ho'
  have hblind : Environment.Blind {} :=
    ⟨fun _ _ h => absurd h (by simp), fun _ _ h => absurd h (by simp)⟩
  have htruncatable : twoFields.Throughout {} IsTruncatable := throughout_twoFields
    ⟨fun _ h => absurd h (by simp [twoFields, ofForm]), fun _ => rfl⟩
    ⟨fun _ h => absurd h (by simp [number, ofForm]), fun _ => rfl⟩
  have hexact : twoFields.Throughout {} IsNotAlternatives := throughout_twoFields
    (by simp [IsNotAlternatives, kind, twoFields, ofForm, Form.kind])
    (by simp [IsNotAlternatives, kind, number, ofForm, Form.kind])
  have hempty : Workshop.Sound {} {} := fun _ _ h => absurd h List.not_mem_nil
  have hsteady : Environment.Steady {} := fun _ _ => rfl
  obtain ⟨-, -, hfirst⟩ :=
    abort_early_truncates hsteady hblind htruncatable 3 twoTexts .root {} hempty hempty
    hrun hrun'
  exact ⟨o, o', ho.1, ho'.1, ho.2, ho'.2, hfirst hexact ho.1⟩

/-- A generator that counts its uses tells the two checks apart: what collecting checks after the
first failure in vain is made again when it counts. -/
theorem abort_early_restless :
    restless.Blind ∧ twoTries.Throughout restless IsTruncatable ∧
    ((Check.within restless 4 twoTries (.object [("a", .number 1), ("b", .number 1)]) .root
      { abortEarly := true }).run {}).map (fun r => r.1.isOk) = some true ∧
    ((Check.within restless 4 twoTries (.object [("a", .number 1), ("b", .number 1)]) .root
      { abortEarly := false }).run {}).map (fun r => r.1.isOk) = some false :=
  ⟨⟨fun _ _ h => absurd h (by simp [restless]), fun _ _ h => absurd h (by simp [restless])⟩,
    truncatable_twoTries,
    by decide +kernel, by decide +kernel⟩

end Schema

end Conform
