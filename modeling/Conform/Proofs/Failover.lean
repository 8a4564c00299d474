import Conform.Proofs.Wrappers

/-!
# What replaces a value that failed

The steps of a node come to a value, to reports and to a mark to strip the value
(`Site.unfinished`), and the finish makes the outcome of them (`Site.run_finished`). Where there are
reports, and the node has a literal for that case, the finish forgets the value and the reports. It
does not forget the mark. This one comes of the schema that alternatives or a lazy node handed the
value on to, so that the literal may be stripped for what was said of the value that it replaces;
and a denied value is handed on only where all failures are collected.

To say so, the steps before the finish are given a name of their own, in the definitions of this
module, and are shown to be what the node runs (`run_finished`). Then what the node comes to is a
function of three things. A failover is looked up where there are reports, and if it is a literal it
is always there, so that reports and value are forgotten and the default is not asked for.

The mark to strip is followed back. The types that look at the value alone never set it, and
neither do arrays and objects; alternatives and lazy nodes pass on what the inner schema had
(`checkBase_strip`). So the replacement is stripped if the node says so, or if an inner
schema did of the value that it replaces. Where no inner schema strips, the outcome is the
literal as one would expect.

Main statement: `failover_replaces`.
-/

namespace Conform

namespace Site

/-! ### The steps before the finish -/

/-- What the check of the type and the rules come to. -/
def unfinishedContent (site : Site) (check : Check) (value : Value)
    (reports : List Report) : Run Outcome := do
  let base ← site.checkBase check value
  if !base.isOk then return { base with reports := reports ++ base.reports }
  let (value, reports) ← site.applyRules check base.value reports site.node.rules
  return { value, reports, strip := base.strip }

/-- What all that comes after the check of presence comes to. -/
def unfinishedPresent (site : Site) (check : Check) (value : Value) : Run Outcome :=
  match site.allowed? value with
  | some value => return { value }
  | none =>
    match site.denials value, site.prefs.abortEarly with
    | report :: _, true => return { value, reports := [report] }
    | reports, _ => site.unfinishedContent check value reports

/-- What the steps of a node come to before its finish. -/
def unfinished (site : Site) (check : Check) : Run Outcome := do
  match site.convert site.input with
  | .error report => return { value := site.input, reports := [report] }
  | .ok value =>
    let value ← site.dropEmpty check value
    match site.checkPresence value with
    | .error reports => return { value, reports }
    | .ok value => site.unfinishedPresent check value

/-- The finish of what the steps came to. -/
def finished (site : Site) (before : Outcome) : Outcome :=
    site.finish before.value before.reports before.strip

variable {site : Site} {check : Check} {value : Value} {reports : List Report}
  {before : Outcome} {w w' : Workshop}

theorem pure_finished (before : Outcome) :
    (pure (site.finished before) : Run Outcome) = site.finished <$> (pure before : Run Outcome) :=
  (map_pure site.finished before).symm

theorem checkContent_finished :
    site.checkContent check value reports =
      site.finished <$> site.unfinishedContent check value reports := by
  unfold checkContent unfinishedContent
  rw [map_bind]
  refine bind_congr fun base => ?_
  split
  · exact pure_finished { base with reports := reports ++ base.reports }
  · rw [map_bind]
    exact bind_congr fun ruled =>
      pure_finished { value := ruled.1, reports := ruled.2, strip := base.strip }

theorem checkPresent_finished :
    site.checkPresent check value = site.finished <$> site.unfinishedPresent check value := by
  unfold checkPresent unfinishedPresent
  cases site.allowed? value with
  | some spelling => exact pure_finished { value := spelling }
  | none =>
    cases site.denials value with
    | nil => exact checkContent_finished
    | cons report more =>
      cases site.prefs.abortEarly with
      | true => exact pure_finished { value, reports := [report] }
      | false => exact checkContent_finished

/-- A node is its steps and then its finish. -/
theorem run_finished : site.run check = site.finished <$> site.unfinished check := by
  unfold run unfinished
  cases site.convert site.input with
  | error report => exact pure_finished { value := site.input, reports := [report] }
  | ok converted =>
    dsimp only
    rw [map_bind]
    refine bind_congr fun value => ?_
    cases site.checkPresence value with
    | error reports => exact pure_finished { value, reports }
    | ok there => exact checkPresent_finished

/-! ### The mark to strip -/

theorem unfinishedContent_strip
    (h : (site.unfinishedContent check value reports).run w = some (before, w')) :
    ∃ base w₁, (site.checkBase check value).run w = some (base, w₁) ∧
      before.strip = base.strip := by
  unfold unfinishedContent at h
  obtain ⟨base, w₁, hbase, hrest⟩ := Runs.bind_some h
  refine ⟨base, w₁, hbase, ?_⟩
  split at hrest
  · obtain ⟨rfl, -⟩ := Runs.pure_some hrest
    rfl
  · obtain ⟨ruled, w₂, -, hpure⟩ := Runs.bind_some hrest
    obtain ⟨rfl, -⟩ := Runs.pure_some hpure
    rfl

/-- Rules add reports and take none away. -/
theorem applyRules_reports {rules : List (Rule Schema)} {ruled : Value × List Report}
    (h : (site.applyRules check value reports rules).run w = some (ruled, w')) :
    reports <+: ruled.2 := by
  induction rules generalizing value reports w with
  | nil =>
    obtain ⟨rfl, -⟩ := Runs.pure_some h
    exact List.prefix_rfl
  | cons rule rest ih =>
    unfold applyRules at h
    obtain ⟨applied, w₁, -, hrest⟩ := Runs.bind_some h
    split at hrest
    · exact ih hrest
    next report =>
      have hlonger : reports <+: reports ++ [report] := List.prefix_append _ _
      split at hrest
      · obtain ⟨rfl, -⟩ := Runs.pure_some hrest
        exact hlonger
      · exact hlonger.trans (ih hrest)

theorem unfinishedContent_reports
    (h : (site.unfinishedContent check value reports).run w = some (before, w')) :
    reports <+: before.reports := by
  unfold unfinishedContent at h
  obtain ⟨base, w₁, -, hrest⟩ := Runs.bind_some h
  split at hrest
  · obtain ⟨rfl, -⟩ := Runs.pure_some hrest
    exact List.prefix_append _ _
  · obtain ⟨ruled, w₂, hruled, hpure⟩ := Runs.bind_some hrest
    obtain ⟨rfl, -⟩ := Runs.pure_some hpure
    exact applyRules_reports hruled

/-- A value is marked by the check of the type only. A denied value comes to it where all
failures are collected. -/
theorem unfinished_strip (h : (site.unfinished check).run w = some (before, w'))
    (hstrip : before.strip = true) :
    ∃ there base w₁ w₂, (site.prefs.abortEarly = true → site.denials there = []) ∧
      (site.checkBase check there).run w₁ = some (base, w₂) ∧ base.strip = true := by
  have hunmarked {value : Value} {reports : List Report} {w₁ : Workshop}
      (h : (pure { value, reports } : Run Outcome).run w₁ = some (before, w')) : False := by
    obtain ⟨rfl, -⟩ := Runs.pure_some h
    exact Bool.false_ne_true hstrip
  unfold unfinished at h
  split at h
  · exact (hunmarked h).elim
  obtain ⟨value, w₁, -, hrest⟩ := Runs.bind_some h
  split at hrest
  · exact (hunmarked hrest).elim
  next there _ =>
    unfold unfinishedPresent at hrest
    split at hrest
    · exact (hunmarked hrest).elim
    split at hrest
    · exact (hunmarked hrest).elim
    next hgoes =>
      -- only here a check of the type was made, and under early abort only of a
      -- value that is not denied
      obtain ⟨base, w₂, hbase, hsame⟩ := unfinishedContent_strip hrest
      refine ⟨there, base, w₁, w₂, fun hearly => ?_, hbase, hsame ▸ hstrip⟩
      cases hdenials : site.denials there with
      | nil => rfl
      | cons report more => exact (hgoes report more hdenials hearly).elim

end Site

/-! ### Handing on -/

/-- The schemas that a node may hand a value on to. -/
inductive Site.HandsTo (site : Site) : Schema → Prop
  | tried {form : AlternativesForm Schema} {t : Schema} : site.node.form = .alternatives form →
      .attempt t ∈ form.entries → HandsTo site t
  | picked {form : AlternativesForm Schema} {condition : Condition Schema}
      {cases : List (Case Schema)}
      {otherwise : Option Schema} {t : Schema} : site.node.form = .alternatives form →
      .conditional condition cases otherwise ∈ form.entries →
      (∃ c ∈ cases, c.branch = some t) ∨ otherwise = some t → HandsTo site t
  | left {form : AlternativesForm Schema} {t : Schema} : site.node.form = .alternatives form →
      form.base = some t → HandsTo site t
  | made {form : LazyForm} {t : Schema} {w w' : Workshop} : site.node.form = .lazy form →
      (site.env.force form).run w = some (t, w') → HandsTo site t

namespace Site

variable {site : Site} {check : Check} {value : Value} {base before : Outcome} {w w' : Workshop}

/-- What alternatives or a lazy node mark as to be stripped is so marked by a schema
that they hand it on to. -/
theorem checkBase_strip (hform : site.node.form.HandsOn)
    (h : (site.checkBase check value).run w = some (base, w')) (hstrip : base.strip = true) :
    ∃ t w₁, site.HandsTo t ∧ (check t value site.position site.prefs).run w₁ = some (base, w') := by
  cases hkind : site.node.form with
  | alternatives form =>
    rw [checkBase_alternatives hkind] at h
    rcases (AlternativesForm.tryEntries_run form.entries []).mp h with
      ⟨front, entry, back, failures, w₁, hentries, -, htaken⟩ | ⟨failures, w₁, -, hleft⟩
    · have hentry : entry ∈ form.entries := by
        -- an entry was taken: it hands the value on as it is
        rw [hentries]
        exact List.mem_append_right _ (List.mem_cons_self ..)
      cases htaken with
      | attempt hrun _ => exact ⟨_, w₁, .tried hkind hentry, hrun⟩
      | conditional hpick hbranch =>
        rw [AlternativesForm.pick_eq] at hpick
        exact ⟨_, _, .picked hkind hentry (AlternativesForm.pickCase_mem hpick), hbranch⟩
    · -- no entry is taken: the schema for that case decides, or the node fails by itself
      unfold AlternativesForm.tryEntries at hleft
      split at hleft
      next t hbase => exact ⟨t, w₁, .left hkind hbase, hleft⟩
      next =>
        obtain ⟨rfl, -⟩ := Runs.pure_some hleft
        exact absurd hstrip Bool.false_ne_true
  | lazy form =>
    unfold checkBase at h
    rw [hkind] at h
    obtain ⟨t, w₁, hforce, hmade⟩ := Runs.bind_some h
    exact ⟨t, w₁, .made hkind hforce, hmade⟩
  | _ =>
    rw [hkind] at hform
    exact hform.elim

/-- No schema that the node may hand a value on to has it stripped. -/
def HandsOnKept (site : Site) (check : Check) : Prop :=
  ∀ t, site.HandsTo t → ∀ value w o w', (check t value site.position site.prefs).run w =
    some (o, w') → o.strip = false

/-! ### The replacement -/

variable {v : Value} (hfailover : site.node.flags.failover = some (.value v))
  (hdefined : v.isDefined = true) (hraw : site.node.flags.raw = false)

include hfailover hdefined hraw

/-- The finish of a node that has reports, and a literal for that case. -/
theorem finished_failed (hreports : before.reports ≠ []) :
    site.finished before = { value := v, strip := before.strip || site.node.flags.strip } := by
  have hreplacement : site.replacement? = some v := by
    unfold replacement?
    rw [hfailover]
    exact if_pos hdefined
  have hrecover : site.recover before.value before.reports = (v, []) := by
    unfold recover
    rw [if_neg (by simpa using hreports), hreplacement]
  -- the literal is there, so no default is put in, and without reports there is no message
  have hfill : site.fillIn v [] = (v, []) := if_pos (by rw [hdefined]; rfl)
  unfold finished finish
  rw [hrecover]
  dsimp only
  rw [show site.withOwnMessage v [] = [] from rfl, hfill, hraw]
  rfl

/-- A denied value is replaced at once, or, where all failures are collected, once
it has been handed on. -/
theorem checkPresent_denied (hallowed : site.allowed? value = none)
    (hdenials : site.denials value ≠ []) : (site.prefs.abortEarly = true →
      site.checkPresent check value = pure { value := v, strip := site.node.flags.strip }) ∧
    (site.prefs.abortEarly = false →
      ∀ w o w', (site.checkPresent check value).run w = some (o, w') →
      ∃ base w₁, (site.checkBase check value).run w = some (base, w₁) ∧
        o = { value := v, strip := base.strip || site.node.flags.strip }) := by
  obtain ⟨report, more, hcons⟩ := List.exists_cons_of_ne_nil hdenials
  constructor
  · intro hearly
    have hstops : site.unfinishedPresent check value = pure { value, reports := [report] } := by
      unfold unfinishedPresent
      rw [hallowed, hcons, hearly]
    rw [checkPresent_finished, hstops, ← pure_finished,
      finished_failed hfailover hdefined hraw (List.cons_ne_nil _ _)]
    rfl
  · intro hlate w o w' hrun
    have hgoes : site.unfinishedPresent check value =
        site.unfinishedContent check value (report :: more) := by
      unfold unfinishedPresent
      rw [hallowed, hcons, hlate]
    rw [checkPresent_finished, hgoes, map_eq_pure_bind] at hrun
    obtain ⟨before, w₁, hcontent, hpure⟩ := Runs.bind_some hrun
    obtain ⟨rfl, rfl⟩ := Runs.pure_some hpure
    obtain ⟨base, w₂, hbase, hstrip⟩ := unfinishedContent_strip hcontent
    -- the denials are still among the reports when the rules are done
    have hreports : before.reports ≠ [] :=
      List.IsPrefix.ne_nil (unfinishedContent_reports hcontent) (List.cons_ne_nil _ _)
    exact ⟨base, w₂, hbase, hstrip ▸ finished_failed hfailover hdefined hraw hreports⟩

end Site

namespace Schema

/-- Where alternatives or a lazy node come to reports, and have a literal for that case, they come
to that literal and to no reports. It is to be stripped if the node says so, or if a schema does
that the value was handed on to; so it does not matter for the outcome how the node came to its
reports, and whether all of them are collected, as long as no such schema says so. Where one does, a
denied value is replaced by a literal to keep under early abort, and by one to strip where all
reports are collected. -/
theorem failover_replaces {s : Schema} {v : Value} (hform : s.node.form.HandsOn)
    (hfailover : s.node.flags.failover = some (.value v)) (hdefined : v.isDefined = true)
    (hraw : s.node.flags.raw = false) (env : Environment) (check : Check) (value : Value)
    (position : Position) (prefs : Preferences) :
    let site : Site := ⟨env, s, position, prefs.merged s.node.prefs, value⟩
    Check.node env check s value position prefs = site.finished <$> site.unfinished check ∧
    (∀ before w w', (site.unfinished check).run w = some (before, w') → before.reports ≠ [] →
      (Check.node env check s value position prefs).run w =
          some ({ value := v, strip := before.strip || s.node.flags.strip }, w') ∧
        (before.strip = true → ∃ there t o w₁ w₂,
          (site.prefs.abortEarly = true → site.denials there = []) ∧
          site.HandsTo t ∧ (check t there position site.prefs).run w₁ =
          some (o, w₂) ∧ o.strip = true) ∧
        (site.HandsOnKept check → (Check.node env check s value position prefs).run w =
          some ({ value := v, strip := s.node.flags.strip }, w'))) ∧
    ∀ there, site.allowed? there = none → site.denials there ≠ [] →
      (site.prefs.abortEarly = true →
        site.checkPresent check there = pure { value := v, strip := s.node.flags.strip }) ∧
      (site.prefs.abortEarly = false →
        ∀ w o w', (site.checkPresent check there).run w = some (o, w') →
        ∃ base w₁, (site.checkBase check there).run w = some (base, w₁) ∧
          o = { value := v, strip := base.strip || s.node.flags.strip }) := by
  intro site
  have hform : site.node.form.HandsOn := hform
  have hfailover : site.node.flags.failover = some (.value v) := hfailover
  have hraw : site.node.flags.raw = false := hraw
  have hnode : Check.node env check s value position prefs =
      site.finished <$> site.unfinished check :=
    Site.run_finished
  refine ⟨hnode, fun before w w' hrun hreports => ?_, fun there hallowed hdenials =>
    Site.checkPresent_denied hfailover hdefined hraw hallowed hdenials⟩
  -- whatever the reports were, the failover stands in their place
  have houtcome : (Check.node env check s value position prefs).run w =
      some ({ value := v, strip := before.strip || s.node.flags.strip }, w') := by
    rw [hnode, StateT.run_map, hrun]
    exact congrArg (fun o => some (o, w')) (Site.finished_failed hfailover hdefined hraw hreports)
  have hmarked (hstrip : before.strip = true) : ∃ there t o w₁ w₂,
      (site.prefs.abortEarly = true → site.denials there = []) ∧ site.HandsTo t ∧
        (check t there position site.prefs).run w₁ = some (o, w₂) ∧ o.strip = true := by
    obtain ⟨there, base, w₁, w₂, hdenials, hbase, hmark⟩ := Site.unfinished_strip hrun hstrip
    obtain ⟨t, w₃, ht, hcheck⟩ := Site.checkBase_strip hform hbase hmark
    exact ⟨there, t, base, w₃, w₂, hdenials, ht, hcheck, hmark⟩
  refine ⟨houtcome, hmarked, fun hkept => ?_⟩
  -- only a schema that the value was handed on to could have marked it
  have hunmarked : before.strip = false := by
    rw [← Bool.not_eq_true]
    intro hstrip
    obtain ⟨there, t, o, w₁, w₂, -, ht, hcheck, hmark⟩ := hmarked hstrip
    exact absurd ((hkept t ht there w₁ o w₂ hcheck).symm.trans hmark) (by decide)
  rw [houtcome, hunmarked, Bool.false_or]

/-- A lazy node that denies a text, and has a number in its place; the schema that is
made strips every text. -/
def numberInstead : Schema :=
    ((lazily "filled").deny [.literal (.string "x")]).withFailover (.number 1)

theorem failover_replaces_denied :
    numberInstead.node.form.HandsOn ∧
    numberInstead.node.flags.failover = some (.value (.number 1)) ∧
    numberInstead.node.flags.raw = false ∧
    (Check.node filling (Check.within filling 1) numberInstead (.string "x") .root {}).run {} =
      some ({ value := .number 1 }, {}) ∧
    (Check.node filling (Check.within filling 1) numberInstead (.string "x") .root
      { abortEarly := false }).run {} =
      some ({ value := .number 1, strip := true }, { uses := [("filled", 1)] }) := by
  have hreplaces :=
    failover_replaces (s := numberInstead) (v := .number 1) trivial rfl rfl rfl filling
    (Check.within filling 1) (.string "x") .root
  obtain ⟨-, hearly, -⟩ := hreplaces {}
  obtain ⟨-, hlate, -⟩ := hreplaces { abortEarly := false }
  let denied :=
    reportAt numberInstead .root "any.invalid" (.string "x") [("invalids", .array [.string "x"])]
  have hmade :
      (Site.unfinished ⟨filling, numberInstead, .root, { abortEarly := false }, .string "x"⟩
      (Check.within filling 1)).run {} =
      some ({ value := .string "x", reports := [denied], strip := true },
        { uses := [("filled", 1)] }) := by
    with_unfolding_all rfl
  exact ⟨trivial, rfl, rfl, (hearly _ {} {} rfl (List.cons_ne_nil _ _)).1,
    (hlate _ {} _ hmade (List.cons_ne_nil _ _)).1⟩

end Schema

end Conform
