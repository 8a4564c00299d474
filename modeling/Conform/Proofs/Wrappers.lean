import Conform.Proofs.Entries
import Conform.Proofs.Indifferent
import Conform.Proofs.Nesting

/-!
# Nodes that stand for another

A plain node declares nothing but a presence. All it does is to look whether the value is there, and
to hand it on to the check of its type (`Site.run_plain`). Two kinds of nodes are of this sort and
hand on to another schema: the wrapper that puts a schema under a condition, and a lazy node.

The wrapper asks for no presence at all and so adds nothing to the schema it stands for,
be the value missing or not. A lazy node takes the presence that is inherited, and settles
by itself what is missing.

What a plain node does is computed once, from the steps of nodes: no value stands for nothing, none
is allowed or denied, there are no rules, and the finish has nothing to put in and no words of its
own. What is left is the check of presence and the check of the type. For the wrapper the presence
is marked to be ignored, so it hands on every value, missing or not. The schema that it hands it to
is the one that the conditional picks, and that was put together when the wrapper was made, of the
base and the branch (`extends_of_pick`).

A lazy node keeps the presence that it inherits. A value that is there, and may be, is handed
on; a missing one is settled by the preferences. So it differs from the schema it makes
wherever that one says something of missing values, and it is shown to agree where it says
nothing (`Schema.Unassuming`).

Main statements: `when_adds_nothing` and `lazy_stands_for_product`.
-/

namespace Conform

/-! ### Plain nodes -/

/-- Forms whose check hands the value on to other schemas, as it came. -/
def Form.HandsOn : Form Schema → Prop
  | .alternatives _ | .lazy _ => True
  | _ => False

namespace Site

/-- Without a replacement, a message or a default, the finish leaves value and reports alone. -/
theorem finish_untouched {site : Site} (hfailover : site.node.flags.failover = none)
    (hmessage : site.node.flags.message = none)
    (hdefault : site.node.flags.default = none) (value : Value)
    (reports : List Report) (strip : Bool) :
    site.finish value reports strip =
      { value := if site.node.flags.raw then site.input else value
        reports
        strip := strip || site.node.flags.strip } := by
  have hrecover : site.recover value reports = (value, reports) := by
    unfold recover replacement?
    rw [hfailover]
    split <;> rfl
  have hown : site.withOwnMessage value reports = reports := by
    unfold withOwnMessage
    rw [hmessage]
    cases reports <;> rfl
  have hfill : site.fillIn value reports = (value, reports) := by
    unfold fillIn
    rw [hdefault]
    split <;> rfl
  unfold finish
  rw [hrecover]
  dsimp only
  rw [hown, hfill]

variable {site : Site} {form : Form Schema} {presence : Option Presence}
  (hplain : site.node = { form, flags := { presence } })

include hplain

theorem finish_plain (value : Value) (reports : List Report) (strip : Bool) :
    site.finish value reports strip = { value, reports, strip } := by
  have hflags : site.node.flags = { presence } := congrArg Node.flags hplain
  rw [finish_untouched (by rw [hflags]) (by rw [hflags]) (by rw [hflags]), hflags]
  simp

theorem checkContent_plain (check : Check) (value : Value) :
    site.checkContent check value [] = site.checkBase check value := by
  unfold checkContent
  conv_rhs => rw [← bind_pure (site.checkBase check value)]
  refine bind_congr fun base => ?_
  -- there are no reports before those of the type, and no rules behind them
  split
  next => rw [finish_plain hplain, List.nil_append]
  next hok =>
    have hnone : base.reports = [] := by simpa [Outcome.isOk] using hok
    rw [hplain]
    show (pure (site.finish base.value [] base.strip) : Run Outcome) = _
    rw [finish_plain hplain, ← hnone]

theorem checkPresent_plain (check : Check) (value : Value) :
    site.checkPresent check value = site.checkBase check value := by
  have hallowed : site.allowed? value = none := by
    unfold allowed?
    rw [hplain]
    rfl
  have hdenials : site.denials value = [] := by
    unfold denials
    rw [hplain]
    rfl
  unfold checkPresent
  rw [hallowed, hdenials]
  exact checkContent_plain hplain check value

/-- A plain node looks whether the value is there, and hands it on to the check of its type. -/
theorem run_plain (hform : form.HandsOn) (check : Check) :
    site.run check = match site.checkPresence site.input with
      | .error reports => pure { value := site.input, reports }
      | .ok value => site.checkBase check value := by
  have hconvert : site.convert site.input = .ok site.input := by
    unfold convert
    rw [hplain]
    cases form with
    | alternatives _ => exact ite_self _
    | lazy _ => exact ite_self _
    | _ => exact absurd hform id
  have hempty : site.dropEmpty check site.input = pure site.input := by
    unfold dropEmpty
    rw [hplain]
  unfold run
  rw [hconvert]
  dsimp only
  rw [hempty, pure_bind]
  cases site.checkPresence site.input with
  | error reports =>
    dsimp only
    rw [finish_plain hplain]
  | ok value => exact checkPresent_plain hplain check value

end Site

theorem Check.node_plain {s : Schema} {form : Form Schema} {presence : Option Presence}
    (hplain : s.node = { form, flags := { presence } }) (hform : form.HandsOn)
    (env : Environment) (check : Check)
    (value : Value) (position : Position) (prefs : Preferences) :
    Check.node env check s value position prefs =
      match (⟨env, s, position, prefs, value⟩ : Site).checkPresence value with
      | .error reports => pure { value, reports }
      | .ok there => (⟨env, s, position, prefs, value⟩ : Site).checkBase check there := by
  have hprefs : prefs.merged s.node.prefs = prefs := by
    rw [hplain]
    rfl
  have hsite : (⟨env, s, position, prefs, value⟩ : Site).node =
      { form, flags := { presence } } := hplain
  unfold Check.node
  rw [hprefs]
  exact Site.run_plain hsite hform check

/-! ### Schemas under a condition -/

theorem Site.checkPresence_ignore {site : Site}
    (h : site.node.flags.presence = some .ignore) (value : Value) :
    site.checkPresence value = .ok value := by
  unfold checkPresence presence
  rw [h]

theorem Site.checkBase_alternatives {site : Site} {form : AlternativesForm Schema}
    (h : site.node.form = .alternatives form) (check : Check) (value : Value) :
    site.checkBase check value = form.check check site value := by
  unfold checkBase
  rw [h]

/-- The schema extended by one of the branches. -/
def When.Extends (w : When) (base extended : Schema) : Prop :=
  ∃ branch, ((∃ c ∈ w.cases, c.branch = some branch) ∨ w.otherwise = some branch) ∧
    base.concat branch = .ok extended

namespace AlternativesForm

/-- What is picked is the branch of a case, or the branch for all else. -/
theorem pickCase_mem {check : Check} {site : Site} {input : Value} {test otherwise : Option Schema}
    {cases : List (Case Schema)} {held : Bool} {branch : Schema} {w w' : Workshop}
    (h : (pickCase check site input test otherwise held cases).run w = some (some branch, w')) :
    (∃ c ∈ cases, c.branch = some branch) ∨ otherwise = some branch := by
  induction cases generalizing held w with
  | nil =>
    obtain ⟨hleft, -⟩ := Runs.pure_some h
    cases held with
    | true => exact absurd hleft (by simp)
    | false => exact .inr hleft
  | cons c rest ih =>
    -- a later case does not stop being one of them
    have hlater {held : Bool} {w : Workshop}
        (h : (pickCase check site input test otherwise held rest).run w = some (some branch, w')) :
        (∃ c' ∈ c :: rest, c'.branch = some branch) ∨ otherwise = some branch :=
      (ih h).imp_left fun ⟨c', hc', hbranch⟩ => ⟨c', List.mem_cons_of_mem _ hc', hbranch⟩
    unfold pickCase at h
    split at h
    next => exact hlater h
    next =>
      obtain ⟨passed, w₁, -, h⟩ := Runs.bind_some h
      split at h
      next hbranch =>
        obtain ⟨heq, -⟩ := Runs.pure_some h
        exact .inl ⟨c, List.mem_cons_self .., hbranch.trans heq⟩
      next => exact hlater h

end AlternativesForm

namespace Schema

variable {base wrapper : Schema} {condition : Condition Schema} {w : When}

/-- A schema under a condition is a plain node around one conditional. -/
theorem when_ok (h : base.when condition w = .ok wrapper) :
    ∃ cases otherwise, List.Forall₂ (Case.Kept condition base.concat) w.casesOrOne cases ∧
      w.otherwise.mapM base.concat = .ok otherwise ∧
      wrapper.node =
        { form := .alternatives
            { entries := [.conditional condition cases otherwise], base := some base }
          flags := { presence := some .ignore } } := by
  obtain ⟨entry, hentry, h⟩ := Attempt.bind_ok h
  obtain ⟨cases, otherwise, rfl, hcases, hotherwise⟩ := conditionalEntry_cases hentry
  obtain rfl := Except.ok.inj h
  exact ⟨cases, otherwise, hcases, hotherwise, rfl⟩

theorem extends_of_pick {site : Site} {check : Check} {value : Value} {cases : List (Case Schema)}
    {otherwise : Option Schema}
    (hcases : List.Forall₂ (Case.Kept condition base.concat) w.casesOrOne cases)
    (hotherwise : w.otherwise.mapM base.concat = .ok otherwise)
    {branch : Schema} {ws ws' : Workshop}
    (h : (AlternativesForm.pick check site value condition cases otherwise).run ws =
      some (some branch, ws')) :
    w.Extends base branch := by
  rw [AlternativesForm.pick_eq] at h
  rcases AlternativesForm.pickCase_mem h with ⟨c, hc, hbranch⟩ | hleft
  · obtain ⟨given, hgiven, hkept⟩ := Attempt.exists_of_mem_forall₂ hcases hc
    obtain ⟨own, hown, hconcat⟩ := Attempt.option_mapM_ok hkept.branch hbranch
    refine ⟨own, .inl ⟨given, ?_, hown⟩, hconcat⟩
    rcases When.mem_casesOrOne hgiven with rfl | hgiven
    · -- the case that stands in for none has no branch
      exact absurd hown (by simp)
    · exact hgiven
  · obtain ⟨given, hgiven, hconcat⟩ := Attempt.option_mapM_ok hotherwise hleft
    exact ⟨given, .inr hgiven, hconcat⟩

/-- The wrapper of a schema under a condition comes to what the schema that it stands for comes
to: the schema extended by the branch that is picked, or the schema itself if none is. All that
it takes is one level. -/
theorem when_adds_nothing (h : base.when condition w = .ok wrapper) :
    ∃ cases otherwise, List.Forall₂ (Case.Kept condition base.concat) w.casesOrOne cases ∧
      w.otherwise.mapM base.concat = .ok otherwise ∧
      ∀ env value position prefs,
        let picked (check : Check) :=
          AlternativesForm.pick check
            ⟨env, wrapper, position, prefs, value⟩ value condition cases otherwise
        (∀ check, Check.node env check wrapper value position prefs =
          picked check >>= fun branch => check (branch.getD base) value position prefs) ∧
        (∀ check branch ws ws', (picked check).run ws = some (some branch, ws') →
          w.Extends base branch) ∧
        ∀ fuel more outcome ws ws', fuel ≤ more + 1 →
          (Check.within env fuel wrapper value position prefs).run ws = some (outcome, ws') →
          ∃ branch ws₁, (picked (Check.within env more)).run ws = some (branch, ws₁) ∧
            (Check.within env more (branch.getD base) value position prefs).run ws₁ =
            some (outcome, ws') := by
  obtain ⟨cases, otherwise, hcases, hotherwise, hplain⟩ := when_ok h
  refine ⟨cases, otherwise, hcases, hotherwise, fun env value position prefs => ?_⟩
  intro picked
  have hnode (check : Check) : Check.node env check wrapper value position prefs =
      picked check >>= fun branch => check (branch.getD base) value position prefs := by
    have hpresence : (⟨env, wrapper, position, prefs, value⟩ : Site).node.flags.presence =
        some .ignore :=
      congrArg (·.flags.presence) hplain
    have hform : (⟨env, wrapper, position, prefs, value⟩ : Site).node.form =
        .alternatives { entries := [.conditional condition cases otherwise], base := some base } :=
      congrArg Node.form hplain
    rw [Check.node_plain hplain trivial, Site.checkPresence_ignore hpresence]
    dsimp only
    rw [Site.checkBase_alternatives hform]
    unfold AlternativesForm.check AlternativesForm.tryEntries
    refine bind_congr fun branch => ?_
    cases branch <;> rfl
  refine ⟨hnode, fun check branch ws ws' hrun => extends_of_pick hcases hotherwise hrun, ?_⟩
  intro fuel more outcome ws ws' hle hrun
  cases fuel with
  | zero =>
    have hnone : (Check.within env 0 wrapper value position prefs).run ws = none := rfl
    exact absurd (hnone.symm.trans hrun) (by simp)
  | succ fuel =>
    rw [show Check.within env (fuel + 1) wrapper value position prefs = _ from
      hnode (Check.within env fuel)] at hrun
    obtain ⟨branch, ws₁, hpick, hbranch⟩ := Runs.bind_some hrun
    -- the wrapper takes one level, and what is below it may have more
    have hmore : (Check.within env fuel).Approximates (Check.within env more) :=
      Check.within_approximates (Nat.le_of_succ_le_succ hle)
    exact ⟨branch, ws₁,
      AlternativesForm.pick_approximates hmore _ value condition cases otherwise _ _ hpick,
      hmore _ value position prefs _ _ hbranch⟩

/-- A text is filled in under one kind, and dropped under all others. -/
def filledByKind : When where
  cases :=
    [⟨some (any.valid [.literal (.string "n")]), some (any.withDefault (.value (.string "none")))⟩]
  otherwise := some any.strip

def textByKind : Schema :=
  (ofForm (.alternatives {
    entries := [.conditional kindTested
      [⟨some ((any.valid [.literal (.string "n")]).withPresence .required),
        some (string.withDefault (.value (.string "none")))⟩] (some string.strip)]
    base := some string })).withPresence .ignore

theorem when_adds_nothing_kinds :
    string.when kindTested filledByKind = .ok textByKind ∧
    ∃ branch ws, (∀ extended, branch = some extended → filledByKind.Extends string extended) ∧
      (Check.within {} 2 (branch.getD string) .undefined .root
        { context := .object [("kind", .string "n")] }).run ws =
        some ({ value := .string "none" }, {}) := by
  have hmade : string.when kindTested filledByKind = .ok textByKind := by with_unfolding_all rfl
  have hrun : (Check.within {} 3 textByKind .undefined .root
      { context := .object [("kind", .string "n")] }).run {} =
      some ({ value := .string "none" }, {}) := by rfl
  obtain ⟨cases, otherwise, -, -, hstands⟩ := when_adds_nothing hmade
  obtain ⟨-, hextends, hwithin⟩ :=
    hstands {} .undefined .root { context := .object [("kind", .string "n")] }
  obtain ⟨branch, ws₁, hpick, hbranch⟩ := hwithin 3 2 _ {} {} (Nat.le_refl 3) hrun
  refine ⟨hmade, branch, ws₁, fun extended heq => ?_, hbranch⟩
  subst heq
  exact hextends _ _ _ _ hpick

end Schema

/-! ### What is missing, and what may not be -/

/-- The value is there, and may be. -/
def Preferences.Admits (prefs : Preferences) (value : Value) : Prop :=
  value.isDefined = true ∧ prefs.presence ≠ .forbidden

instance (prefs : Preferences) (value : Value) : Decidable (prefs.Admits value) :=
  inferInstanceAs (Decidable (_ ∧ _))

theorem Preferences.not_admits_undefined (prefs : Preferences) : ¬ prefs.Admits .undefined :=
  fun h => Bool.false_ne_true h.1

namespace Schema

/-- The reports on a value where the presence that is inherited settles it. -/
def presenceReports (s : Schema) (value : Value) (position : Position)
    (prefs : Preferences) : List Report :=
  match prefs.presence, value.isDefined with
  | .required, false => [reportAt s position "any.required" value []]
  | .forbidden, true => [reportAt s position "any.unknown" value []]
  | _, _ => []

/-- The schema says nothing of a missing value: it asks for no presence, puts nothing in its place,
drops nothing and has no words of its own. -/
structure Unassuming (s : Schema) : Prop where
  presence : s.node.flags.presence = none
  default : s.node.flags.default = none
  failover : s.node.flags.failover = none
  message : s.node.flags.message = none
  label : s.node.flags.label = none
  strip : s.node.flags.strip = false
  prefs : ∀ prefs : Preferences, (prefs.merged s.node.prefs).presence = prefs.presence

end Schema

/-- Where the node asks for no presence, the one that is inherited decides. -/
theorem Site.checkPresence_inherited {site : Site} (hpresence : site.node.flags.presence = none)
    (hdefault : site.node.flags.default = none) (value : Value) :
    site.checkPresence value = if site.prefs.Admits value then .ok value
      else .error (site.schema.presenceReports value site.position site.prefs) := by
  have hdeep : site.isDeep = false := by
    unfold isDeep
    rw [hdefault]
    exact Bool.and_false _
  by_cases hadmits : site.prefs.Admits value
  · obtain ⟨hdefined, hmay⟩ := hadmits
    rw [if_pos ⟨hdefined, hmay⟩]
    unfold checkPresence presence
    rw [hpresence, hdefined]
    revert hmay
    cases site.prefs.presence with
    | forbidden => exact fun hmay => absurd rfl hmay
    | _ => exact fun _ => rfl
  · -- what may not be there, or has to be
    rw [if_neg hadmits]
    unfold Preferences.Admits at hadmits
    unfold checkPresence presence Schema.presenceReports
    rw [hpresence, hdeep]
    revert hadmits
    cases value.isDefined with
    | false => cases site.prefs.presence <;> exact fun _ => rfl
    | true =>
      cases site.prefs.presence with
      | forbidden => exact fun _ => rfl
      | _ => exact fun hadmits => absurd ⟨rfl, by decide⟩ hadmits

/-- Where nothing is said of a missing value, the presence that is inherited settles it. -/
theorem Schema.Unassuming.node_missing {s : Schema} (hs : s.Unassuming)
    (env : Environment) (check : Check) (position : Position) (prefs : Preferences) :
    Check.node env check s .undefined position prefs =
      pure { value := .undefined, reports := s.presenceReports .undefined position prefs } := by
  let site : Site := ⟨env, s, position, prefs.merged s.node.prefs, .undefined⟩
  have hconvert : site.convert .undefined = .ok .undefined := by
    unfold Site.convert
    exact if_pos (Bool.or_true _)
  have hempty : site.dropEmpty check .undefined = pure .undefined := by
    unfold Site.dropEmpty
    split <;> rfl
  have hpresence : site.checkPresence .undefined =
      .error (s.presenceReports .undefined position prefs) := by
    rw [Site.checkPresence_inherited
      (show site.node.flags.presence = none from hs.presence) hs.default,
      if_neg (Preferences.not_admits_undefined _)]
    unfold Schema.presenceReports
    rw [show site.prefs.presence = prefs.presence from hs.prefs prefs]
  -- nothing is put in, stripped or reworded
  have hfinish (reports : List Report) : site.finish .undefined reports =
      { value := .undefined, reports } := by
    rw [Site.finish_untouched
      (show site.node.flags.failover = none from hs.failover) hs.message hs.default]
    rw [show site.node.flags.strip = false from hs.strip]
    exact congrArg (fun value => ({ value, reports } : Outcome)) (ite_self _)
  show site.run check = _
  unfold Site.run
  rw [show site.convert site.input = .ok .undefined from hconvert]
  dsimp only
  rw [hempty, pure_bind, hpresence]
  exact congrArg pure (hfinish _)

/-! ### Lazy nodes -/

namespace Schema

section Steps

variable {s : Schema} {form : LazyForm} (hs : s.node = { form := .lazy form })
  (env : Environment) (check : Check) {value : Value} (position : Position) {prefs : Preferences}

include hs

/-- A value that is there, and may be, is checked by the schema that is made. -/
theorem lazy_admitted (hvalue : prefs.Admits value) :
    Check.node env check s value position prefs =
      env.force form >>= fun made => check made value position prefs := by
  let site : Site := ⟨env, s, position, prefs, value⟩
  have hnode : site.node = { form := .lazy form } := hs
  have hpresence : site.checkPresence value = .ok value := by
    rw [Site.checkPresence_inherited (by rw [hnode]) (by rw [hnode])]
    exact if_pos hvalue
  have hbase : site.checkBase check value = env.force form >>= fun made =>
      check made value position prefs := by
    unfold Site.checkBase
    rw [hnode]
  rw [Check.node_plain hs trivial, hpresence]
  exact hbase

/-- What is missing, or may not be, the node settles without making a schema. -/
theorem lazy_settled (hvalue : ¬ prefs.Admits value) :
    Check.node env check s value position prefs =
      pure { value, reports := s.presenceReports value position prefs } := by
  let site : Site := ⟨env, s, position, prefs, value⟩
  have hnode : site.node = { form := .lazy form } := hs
  have hpresence : site.checkPresence value = .error (s.presenceReports value position prefs) := by
    rw [Site.checkPresence_inherited (by rw [hnode]) (by rw [hnode])]
    exact if_neg hvalue
  rw [Check.node_plain hs trivial, hpresence]

end Steps

theorem lazy_matches_product {s : Schema} {form : LazyForm} (hs : s.node = { form := .lazy form })
    {env : Environment} (hsteady : env.Steady) {value : Value} {prefs : Preferences}
    (hvalue : prefs.Admits value) (fuel : Nat) (position : Position) :
    Matches env Eq (Check.within env (fuel + 1) s value position prefs)
      (Check.within env fuel (env.product form.generator) value position prefs) := by
  intro w w' hw hw'
  -- only the lazy node has a step of its own, so the two are not matched step by step
  obtain ⟨made, w₁, hforce, hsame, hw₁⟩ := Environment.force_gives hsteady form hw
  rw [show Check.within env (fuel + 1) s value position prefs = _ from
    lazy_admitted hs env _ position hvalue, StateT.run_bind, hforce]
  have hmade :=
    Check.check_erased hsteady fuel value position prefs (.inl rfl) (.inl rfl) hsame.symm
    (Schema.Agree.refl made position)
  exact hmade w₁ w' hw₁ hw'

/-- Schemas that say nothing of a missing value come to the same on it. -/
theorem Unassuming.node_missing_eq {s t : Schema} (hs : s.Unassuming)
    (ht : t.Unassuming) (env : Environment)
    (check : Check) (position : Position) (prefs : Preferences) :
    Check.node env check s .undefined position prefs =
      Check.node env check t .undefined position prefs := by
  rw [hs.node_missing, ht.node_missing]
  unfold presenceReports
  rw [reportAt_congr (hs.label.trans ht.label.symm) rfl]

theorem unassuming_of_lazy {s : Schema} {form : LazyForm} (hs : s.node = { form := .lazy form }) :
    s.Unassuming := by
  have hflags : s.node.flags = {} := congrArg Node.flags hs
  exact {
    presence := congrArg Flags.presence hflags
    default := congrArg Flags.default hflags
    failover := congrArg Flags.failover hflags
    message := congrArg Flags.message hflags
    label := congrArg Flags.label hflags
    strip := congrArg Flags.strip hflags
    prefs := fun prefs => by
      rw [congrArg Node.prefs hs]
      rfl }

/-- Where the one schema comes to an outcome, the other one comes to it: so they do as verdicts. -/
theorem validate_of_within {env : Environment} {s t : Schema} {value : Value}
    {prefs : Preferences} {w w' : Workshop}
    (h : ∀ outcome w₁, (Check.within env nestingLimit s value .root prefs).run w =
      some (outcome, w₁) →
      ∃ w₁', (Check.within env nestingLimit t value .root prefs).run w' = some (outcome, w₁'))
    {renderer : Messages.Renderer} {verdict : Verdict} {w₁ : Workshop}
    (hrun : (s.validate env value prefs renderer).run w = some (verdict, w₁)) :
    ∃ w₁', (t.validate env value prefs renderer).run w' = some (verdict, w₁') := by
  obtain ⟨outcome, w₂, hcheck, hrest⟩ := Runs.bind_some hrun
  obtain ⟨rfl, rfl⟩ := Runs.pure_some hrest
  obtain ⟨w₂', hcheck'⟩ := h outcome w₂ hcheck
  refine ⟨w₂', ?_⟩
  unfold validate Schema.check
  rw [StateT.run_bind, hcheck']
  rfl

/-- A lazy node and the schema that is made come to the same verdict on a value that is there and
may be, and on a missing one of which this schema says nothing. -/
theorem lazy_verdict {s : Schema} {form : LazyForm}
    (hs : s.node = { form := .lazy form }) {env : Environment}
    (hsteady : env.Steady) {value : Value} {prefs : Preferences}
    (hvalue : prefs.Admits value ∨ value = .undefined ∧ (env.product form.generator).Unassuming)
    {renderer : Messages.Renderer} {w w' w₁ : Workshop} {verdict : Verdict} (hw : w.Sound env)
    (hw' : w'.Sound env) (hrun : (s.validate env value prefs renderer).run w = some (verdict, w₁)) :
    ∃ w₁', ((env.product form.generator).validate env value prefs renderer).run w' =
      some (verdict, w₁') := by
  obtain ⟨limit, hlimit⟩ : ∃ limit, nestingLimit = limit + 1 := ⟨19999, rfl⟩
  refine validate_of_within (fun outcome w₂ hcheck => ?_) hrun
  rw [hlimit] at hcheck ⊢
  rcases hvalue with hadmits | ⟨rfl, hproduct⟩
  · -- the schema that is made is checked one level further down, where it comes to the same
    obtain ⟨w₂', hcheck'⟩ :=
      (lazy_matches_product hs hsteady hadmits limit .root).run_some hw hw' hcheck
    exact ⟨w₂', Check.within_succ limit _ value .root prefs _ _ hcheck'⟩
  · have hown : Check.within env (limit + 1) s .undefined .root prefs =
        pure { value := .undefined, reports := s.presenceReports .undefined .root prefs } :=
      (unassuming_of_lazy hs).node_missing env _ .root prefs
    have hsame : Check.within env (limit + 1) s .undefined .root prefs =
        Check.within env (limit + 1) (env.product form.generator) .undefined .root prefs :=
      (unassuming_of_lazy hs).node_missing_eq hproduct env (Check.within env limit) .root prefs
    rw [hown] at hcheck
    obtain ⟨rfl, -⟩ := Runs.pure_some hcheck
    rw [← hsame, hown]
    exact ⟨w', rfl⟩

/-- A lazy node, and nothing else said of it, stands for the schema that is made wherever a
value is there and may be. All other values it settles by the presence that is inherited,
whatever the schema that is made says of them; that is no difference where this schema says
nothing of a missing value. -/
theorem lazy_stands_for_product {s : Schema} {form : LazyForm}
    (hs : s.node = { form := .lazy form }) :
    (∀ env w, env.SteadyAt form.generator → w.SoundAt env form →
      ∃ made w₁, (env.force form).run w = some (made, w₁) ∧
        made.erase true = (env.product form.generator).erase true ∧
        ∀ check value position prefs, prefs.Admits value →
          (Check.node env check s value position prefs).run w =
            (check made value position prefs).run w₁) ∧
    (∀ env check value position prefs, ¬ prefs.Admits value →
      Check.node env check s value position prefs =
      pure { value, reports := s.presenceReports value position prefs }) ∧
    ∀ env, env.Steady → let product := env.product form.generator
      (∀ fuel value position prefs, prefs.Admits value →
        Matches env Eq (Check.within env (fuel + 1) s value position prefs)
          (Check.within env fuel product value position prefs)) ∧
      (product.Unassuming → ∀ check position prefs,
        Check.node env check s .undefined position prefs =
        Check.node env check product .undefined position prefs) ∧
      ∀ value prefs renderer w w' verdict w₁, prefs.Admits value ∨
        value = .undefined ∧ product.Unassuming →
        w.Sound env → w'.Sound env →
        (s.validate env value prefs renderer).run w = some (verdict, w₁) →
          ∃ w₁', (product.validate env value prefs renderer).run w' = some (verdict, w₁') := by
  refine ⟨fun env w hsteady hw => ?_, fun env check value position prefs hvalue =>
    lazy_settled hs env check position hvalue, fun env hsteady => ⟨?_, ?_, ?_⟩⟩
  · -- the first product is the one that the generator is known for
    obtain ⟨made, w₁, hforce, hsame, -⟩ := Environment.force_makes hsteady hw
    refine ⟨made, w₁, hforce, hsame, fun check value position prefs hvalue => ?_⟩
    rw [lazy_admitted hs env check position hvalue, StateT.run_bind, hforce]
    rfl
  · intro fuel value position prefs hvalue
    exact lazy_matches_product hs hsteady hvalue fuel position
  · intro hproduct check position prefs
    exact (unassuming_of_lazy hs).node_missing_eq hproduct env check position prefs
  · intro value prefs renderer w w' verdict w₁ hvalue hw hw' hrun
    exact lazy_verdict hs hsteady hvalue hw hw' hrun

/-- A text that is filled in, and dropped. -/
def filledText : Schema := (string.withDefault (.value (.string "gen"))).strip

/-- One generator makes texts that are filled in, all others plain ones. -/
def filling : Environment where
  registry :=
    { generators := fun name => some fun _ => if name = "filled" then filledText else string }

theorem filling_steady : filling.Steady := fun _ _ => rfl

theorem lazy_stands_for_product_filled :
    filling.Steady ∧ ({} : Preferences).Admits (.string "x") ∧
    (filling.product "plain").Unassuming ∧
    (∃ w, (Check.within filling 1 (filling.product "filled") (.string "x") .root {}).run {} =
      some ({ value := .string "x", strip := true }, w)) ∧
    ∀ check, Check.node filling check (lazily "plain") .undefined .root {} =
      Check.node filling check (filling.product "plain") .undefined .root {} := by
  have hadmits : ({} : Preferences).Admits (.string "x") := ⟨rfl, by decide⟩
  have hunassuming : (filling.product "plain").Unassuming :=
    ⟨rfl, rfl, rfl, rfl, rfl, rfl, fun _ => rfl⟩
  have hrun : (Check.within filling 2 (lazily "filled") (.string "x") .root {}).run {} =
      some ({ value := .string "x", strip := true }, { uses := [("filled", 1)] }) := by
      with_unfolding_all rfl
  obtain ⟨-, -, hsteady⟩ := lazy_stands_for_product (s := lazily "filled") rfl
  obtain ⟨-, -, hplain⟩ := lazy_stands_for_product (s := lazily "plain") rfl
  have hnew : Workshop.Sound filling {} := Workshop.sound_new filling
  have hmatches := (hsteady filling filling_steady).1 1 (.string "x") .root {} hadmits
  exact ⟨filling_steady, hadmits, hunassuming, hmatches.run_some hnew hnew hrun,
    fun check => (hplain filling filling_steady).2.1 hunassuming check .root {}⟩

/-- What is said of a missing value by the schema that is made has no effect: the default is not put
in, and nothing is dropped. -/
theorem lazy_leaves_missing :
    filling.Steady ∧
    (Check.within filling 2 (lazily "filled") .undefined .root {}).run
    {} = some ({ value := .undefined }, {}) ∧
    (Check.within filling 2 (filling.product "filled") .undefined .root {}).run {} =
      some ({ value := .string "gen", strip := true }, {}) :=
  ⟨filling_steady, rfl, rfl⟩

end Schema

end Conform
