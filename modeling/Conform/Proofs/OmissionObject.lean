import Conform.Proofs.OmissionSteps
import Conform.Proofs.Whereabouts

/-!
# Alternatives and objects with something left out

Two checks go side by side, by a schema and by the same schema without, each inner schema by its own
check (`Site.Omits`). They try the same entries of alternatives and take the same children, patterns
and keys in turn; what differs is what they have reported (`ObjectPass.Echoes`), and of that only
whether there is anything is ever looked at.

That is the point of the relation: a step asks of earlier reports nothing but whether there were
any, or whether one of them has ended the phases. So the working copy of one check is that of the
other with other reports in it (`ObjectPass.heard`), and a step that does not report commutes with
the exchange (`keepChild_heard`, `keepMatched_heard`). Each phase is then a loop whose turns keep
the relation, and the phases follow one another. Alternatives keep a list of failures instead, and
their report depends on how many entries failed, which is the same in both
(`AlternativesForm.Failed`).

A lazy node makes its schema on both sides, so the workshops go side by side as
well (`Omission.Beside`): what is kept on one side is what is kept on the other,
without what is left out.
-/

namespace Conform

/-! ### Two checks side by side -/

/-- The second workshop is the first one without; what is kept does not switch defaults on. -/
def Omission.Beside (o : Omission) (env : Environment) (w w' : Workshop) : Prop :=
  w' = w.without o ∧ w.Keeps env (Schema.Admits o)

/-- The checks by the schema and by the schema without go side by side. -/
def Omittable (o : Omission) (env : Environment) (check check' : Check) (t : Schema) : Prop :=
  ∀ value p (prefs : Preferences), prefs.Omits o →
    Lockstep (o.Beside env) (Outcome.Echoes o) (check t value p prefs)
    (check' (t.without o) value p (prefs.without o))

/-- A schema passes just if it passes without what is left out. -/
theorem Omittable.passes {o : Omission} {env : Environment} {check check' : Check} {t : Schema}
    (h : Omittable o env check check' t) (value : Value) (p : Position) {prefs : Preferences}
    (hprefs : prefs.Omits o) : Lockstep (o.Beside env) Eq (check.passes t value p prefs)
      (check'.passes (t.without o) value p (prefs.without o)) :=
  (h value p { prefs with abortEarly := true } hprefs).bind fun _ _ hechoes =>
    .pure hechoes.isOk.symm

/-- What is known of a site that is checked along with the site without. -/
structure Site.Omits (o : Omission) (check check' : Check) (site : Site) :
    Prop extends site.Spares o where
  throughout : site.schema.Throughout site.env (Schema.Admits o)
  inner : ∀ t, t.Throughout site.env (Schema.Admits o) → Omittable o site.env check check' t

namespace Site.Omits

variable {o : Omission} {check check' : Check} {site : Site} (h : site.Omits o check check')

include h

/-- A schema that the node hands values on to is checked by the other check
without what is left out. -/
theorem visited {levels : Nat} {t : Schema} (ht : (levels, t) ∈ site.schema.visited)
    (value : Value) (p : Position) :
    Lockstep (o.Beside site.env) (Outcome.Echoes o) (check t value p site.prefs)
      (check' (t.without o) value p (site.without o).prefs) :=
  h.inner t (h.throughout.visited ht) value p site.prefs h.prefs

/-- A schema that the node hands values on to passes in both or in neither. -/
theorem visited_passes {levels : Nat} {t : Schema}
    (ht : (levels, t) ∈ site.schema.visited) (value : Value) (p : Position) :
    Lockstep (o.Beside site.env) Eq (check.passes t value p site.prefs)
      (check'.passes (t.without o) value p (site.without o).prefs) :=
  (h.inner t (h.throughout.visited ht)).passes value p h.prefs

end Site.Omits

variable {o : Omission} {check check' : Check} {site : Site}

/-! ### Alternatives -/

namespace AlternativesForm

/-- The branch picked is the same but for what is left out. -/
theorem pick_echoes (h : site.Omits o check check') {condition : Condition Schema}
    {cases : List (Case Schema)} {otherwise : Option Schema}
    (hin : ∀ t ∈ (Match.conditional condition cases otherwise).schemas,
      (0, t) ∈ site.schema.visited) (value : Value) :
    Lockstep (o.Beside site.env)
      (fun x y => y = x.map (Schema.without o) ∧ ∀ t ∈ x, (0, t) ∈ site.schema.visited)
      (pick check site value condition cases otherwise)
      (pick check' (site.without o) value (condition.map (Schema.without o))
        (cases.map (Case.map (Schema.without o))) (otherwise.map (Schema.without o))) :=
  pick_lockstep (fun _ ht input => h.visited_passes ht input site.position) hin value fun _ _ => rfl

/-- Failures of entries, each with something reported. -/
structure Failed (o : Omission) (failures failures' : List (List Report)) : Prop where
  left : ∀ reports ∈ failures, reports ≠ []
  right : ∀ reports ∈ failures', reports ≠ []
  same : o.words = false → failures' = failures

/-- No failures so far are those of both. -/
theorem Failed.nil : Failed o [] [] := ⟨List.forall_mem_nil _, List.forall_mem_nil _, fun _ => rfl⟩

/-- One more entry has failed in both. -/
theorem Failed.add {failures failures' : List (List Report)} (h : Failed o failures failures')
    {xs ys : List Report}
    (hxs : o.Echoes xs ys) (hne : xs ≠ []) : Failed o (failures ++ [xs]) (failures' ++ [ys]) where
  left := List.forall_mem_append.mpr ⟨h.left, List.forall_mem_singleton.mpr hne⟩
  right := List.forall_mem_append.mpr ⟨h.right, List.forall_mem_singleton.mpr (hxs.ne_nil hne)⟩
  same := fun ho => by rw [h.same ho, hxs.same ho]

/-- However the failures are put together, there are some. -/
theorem unmatched_echoes {failures failures' : List (List Report)}
    (h : Failed o failures failures') (site : Site)
    (value : Value) :
    o.Echoes (unmatched site value failures) (unmatched (site.without o) value failures') := by
  -- with other words the failures may be joined in another way, so nothing more is said there
  refine .of_ne_nil (unmatched_ne h.left site value) (unmatched_ne h.right _ value) fun ho => ?_
  rw [h.same ho]
  unfold unmatched joined
  rw [Site.report_without ho]
  rfl

/-- Entries are tried in step; which failures are reported depends on how many there are. -/
theorem tryEntries_echoes (h : site.Omits o check check') {form : AlternativesForm Schema}
    (hform : site.node.form = .alternatives form) {entries : List (Match Schema)}
    (hentries : ∀ entry ∈ entries, entry ∈ form.entries) (value : Value)
    {failures failures' : List (List Report)} (hfailed : Failed o failures failures') :
    Lockstep (o.Beside site.env) (Outcome.Echoes o)
      (form.tryEntries check site value failures entries)
      ((form.map (Schema.without o)).tryEntries check' (site.without o) value failures'
        (entries.map (Match.map (Schema.without o)))) := by
  induction entries generalizing failures failures' with
  | nil =>
    rw [List.map_nil]
    unfold tryEntries
    dsimp only [AlternativesForm.map]
    -- nothing matched: the base decides, if there is one
    cases hbase : form.base with
    | none => exact .pure ⟨rfl, unmatched_echoes hfailed site value, rfl⟩
    | some base =>
      exact h.visited (visited_of_base hform hbase) value site.position
  | cons entry rest ih =>
    have ih {failures failures' : List (List Report)} (hfailed : Failed o failures failures') :=
      ih (fun entry hentry => hentries entry (List.mem_cons_of_mem _ hentry)) hfailed
    have hin := visited_of_entry hform (hentries entry (List.mem_cons_self ..))
    rw [List.map_cons]
    unfold tryEntries
    cases entry with
    | attempt schema =>
      refine (h.visited (hin schema (List.mem_singleton_self _)) value site.position).bind
        fun a b hab => ?_
      -- both attempts pass or both fail
      rw [hab.isOk]
      split
      · exact .pure hab
      next hok =>
        refine ih (hfailed.add hab.reports fun hnil => hok ?_)
        unfold Outcome.isOk
        rw [hnil]
        rfl
    | conditional condition cases otherwise =>
      refine (pick_echoes h hin value).bind ?_
      rintro picked _ ⟨rfl, hpicked⟩
      cases picked with
      | none => exact ih hfailed
      | some branch => exact h.visited (hpicked branch rfl) value site.position

/-- Alternatives come to outcomes that echo each other. -/
theorem check_echoes (h : site.Omits o check check') {form : AlternativesForm Schema}
    (hform : site.node.form = .alternatives form) (value : Value) :
    Lockstep (o.Beside site.env) (Outcome.Echoes o) (form.check check site value)
      ((form.map (Schema.without o)).check check' (site.without o) value) :=
  tryEntries_echoes h hform (fun _ hentry => hentry) value .nil

end AlternativesForm

/-! ### Objects -/

namespace ObjectPass

/-- The same pass, but with these reports. -/
def heard (p : ObjectPass) (reports : List Report) : ObjectPass := { p with reports }

/-- The passes differ in reports alone, and those of the second echo those of the first. -/
structure Echoes (o : Omission) (p q : ObjectPass) : Prop where
  same : q = p.heard q.reports
  reports : o.Echoes p.reports q.reports

namespace Echoes

variable {p q : ObjectPass}

/-- Working copies that echo each other hold the same members. -/
theorem members (h : Echoes o p q) : q.members = p.members := by rw [h.same]; rfl

theorem value (h : Echoes o p q) : q.value = p.value := congrArg Value.object h.members

/-- Working copies that echo each other hold the same under each key. -/
theorem member (h : Echoes o p q) (key : String) :
    q.member key = p.member key := by rw [h.same]; rfl

/-- The same keys are marked to be stripped. -/
theorem stripped (h : Echoes o p q) : q.stripped = p.stripped := by rw [h.same]; rfl

/-- Both have ended, or neither. -/
theorem stopped (h : Echoes o p q) : q.stopped = p.stopped := by rw [h.same]; rfl

/-- Working copies that are the same but for echoing reports echo each other. -/
theorem of_reports (p : ObjectPass) {ys : List Report} (h : o.Echoes p.reports ys) :
    Echoes o p (p.heard ys) :=
  ⟨rfl, h⟩

/-- A step that finds nothing and does not look at reports. -/
theorem step {f : ObjectPass → ObjectPass} (h : Echoes o p q) (hfinds : p.Finds (f p))
    (hheard : ∀ ys, f (p.heard ys) = (f p).heard ys) : Echoes o (f p) (f q) := by
  rw [h.same, hheard]
  exact .of_reports _ (by rw [hfinds.1]; exact h.reports)

/-- A failure in both is taken up in both. -/
theorem fail (h : Echoes o p q) {xs ys : List Report} (hxs : o.Echoes xs ys) :
    Echoes o (p.fail site xs) (q.fail (site.without o) ys) := by
  unfold ObjectPass.fail
  rw [hxs.isEmpty]
  split
  · exact h
  · refine ⟨?_, h.reports.append hxs⟩
    rw [h.same]
    rfl

end Echoes

/-- Two sequences of steps side by side. -/
theorem forEach_echoes {W : Workshop → Workshop → Prop} {α β : Type}
    {step : ObjectPass → α → Run ObjectPass}
    {step' : ObjectPass → β → Run ObjectPass} {f : α → β} {items : List α}
    (hstep : ∀ p q, Echoes o p q →
      ∀ item ∈ items, Lockstep W (Echoes o) (step p item) (step' q (f item)))
    {p q : ObjectPass} (h : Echoes o p q) :
    Lockstep W (Echoes o) (p.forEach step items) (q.forEach step' (items.map f)) := by
  induction items generalizing p q with
  | nil => exact .pure h
  | cons item rest ih =>
    rw [List.map_cons]
    unfold forEach
    rw [h.stopped]
    split
    · exact .pure h
    · refine (hstep p q h item (List.mem_cons_self ..)).bind fun p q h => ?_
      exact ih (fun p q h item hitem => hstep p q h item (List.mem_cons_of_mem _ hitem)) h

/-- A loop of plain turns echoes another if the turns do. -/
theorem forEach_pure_echoes {α β : Type} {R : α → β → Prop} (step : ObjectPass → α → Id ObjectPass)
    (step' : ObjectPass → β → Id ObjectPass)
    (hstep : ∀ p q, Echoes o p q → ∀ a b, R a b → Echoes o (step p a) (step' q b)) {items : List α}
    {items' : List β} (hitems : List.Forall₂ R items items') {p q : ObjectPass} (h : Echoes o p q) :
    Echoes o (p.forEach step items) (q.forEach step' items') := by
  induction hitems generalizing p q with
  | nil => exact h
  | cons hab _ ih =>
    unfold forEach
    rw [h.stopped]
    split
    · exact h
    · exact ih (hstep p q h _ _ hab)

/-- Several failures are taken up one by one, up to the first where one is enough. -/
theorem Echoes.failEach {p q : ObjectPass} (h : Echoes o p q) {xs ys : List Report}
    (hxs : List.Forall₂ (fun r r' => o.words = false → r' = r) xs ys) :
    Echoes o (p.failEach site xs) (q.failEach (site.without o) ys) :=
  forEach_pure_echoes (fun p report => p.fail site [report])
    (fun q report => q.fail (site.without o) [report])
    (fun _ _ h _ _ hsame => h.fail (.one hsame)) hxs h

end ObjectPass

namespace ObjectForm

variable {form : ObjectForm Schema} {p q : ObjectPass}

/-- Renames look at keys alone, so conflicts are met in step. -/
theorem applyRenames_echoes (taken : List String) (h : p.Echoes o q) (renames : List Rename) :
    (applyRenames site taken p renames).Echoes o
      (applyRenames (site.without o) taken q renames) := by
  induction renames generalizing taken p q with
  | nil => exact h
  | cons rename rest ih =>
    have hconflict : renameConflict? rename taken q = renameConflict? rename taken p := by
      rw [h.same]; rfl
    unfold applyRenames
    rw [h.stopped, h.members, hconflict, h.value]
    split
    · exact h
    · split
      · exact ih taken h
      next value _ =>
        split
        · exact ih taken h
        · split
          · exact ih taken (h.fail (Site.own_echoes ..))
          · refine ih _ (h.step (finds_move rename value p) fun ys => ?_)
            unfold move
            dsimp only
            split
            · split <;> rfl
            · split <;> rfl

/-- What a child leaves does not depend on reports. -/
theorem keepChild_heard (p : ObjectPass) (ys : List Report) (key : String) (a : Outcome) :
    keepChild (p.heard ys) key a = (keepChild p key a).heard ys := by
  have hmember : (p.heard ys).member key = p.member key := rfl
  have hmembers : (p.heard ys).members = p.members := rfl
  unfold keepChild
  rw [hmember]
  dsimp only
  rw [hmembers]
  split
  · split <;> rfl
  · split
    · rfl
    · split <;> rfl

theorem keepMatched_heard (p : ObjectPass) (ys : List Report) (key : String) (a : Outcome) :
    keepMatched (p.heard ys) key a = (keepMatched p key a).heard ys := by
  unfold keepMatched
  split <;> rfl

/-- What comes of a child is taken over in both. -/
theorem takeChild_echoes (h : p.Echoes o q) (key : String) {a b : Outcome}
    (hab : Outcome.Echoes o a b) :
    (takeChild site p key a).Echoes o (takeChild (site.without o) q key b) := by
  have hkeep : keepChild q key b = keepChild q key a := by
    unfold keepChild
    rw [hab.value, hab.strip]
  unfold takeChild
  rw [hab.isOk, hkeep]
  split
  · exact h.fail hab.reports
  · exact h.step (f := fun p => keepChild p key a) (finds_keepChild p key a) fun ys =>
      keepChild_heard p ys key a

/-- What comes of an undeclared key is taken over in both. -/
theorem takeMatched_echoes (h : p.Echoes o q) (key : String) {a b : Outcome}
    (hab : Outcome.Echoes o a b) :
    (takeMatched site p key a).Echoes o (takeMatched (site.without o) q key b) := by
  have hkeep : keepMatched q key b = keepMatched q key a := by
    unfold keepMatched
    rw [hab.value, hab.strip]
  unfold takeMatched
  rw [hab.isOk, hkeep]
  split
  · exact h.fail hab.reports
  · exact h.step (f := fun p => keepMatched p key a) (finds_keepMatched p key a) fun ys =>
      keepMatched_heard p ys key a

theorem eraseAll_echoes (h : p.Echoes o q) (keys : List String) :
    (p.eraseAll keys).Echoes o (q.eraseAll keys) := by
  refine h.step (f := fun p => p.eraseAll keys) (ObjectPass.finds_eraseAll p keys) fun ys => ?_
  clear h
  induction keys generalizing p with
  | nil => rfl
  | cons key rest ih => exact ih (p := p.erase key)

/-- Children are checked in step. -/
theorem checkChildren_echoes (h : site.Omits o check check') (hform : site.node.form = .object form)
    (hp : p.Echoes o q) :
    Lockstep (o.Beside site.env) (ObjectPass.Echoes o) (form.checkChildren check site p)
      ((form.map (Schema.without o)).checkChildren check' (site.without o) q) := by
  have hchild (p q : ObjectPass) (hp : p.Echoes o q) (child : String × Schema)
      (hin : child ∈ form.orderedChildren) : Lockstep (o.Beside site.env) (ObjectPass.Echoes o)
      (checkChild check site p child)
      (checkChild check' (site.without o) q (child.1, child.2.without o)) := by
    unfold checkChild
    dsimp only
    rw [hp.value, hp.member]
    exact (h.visited (visited_of_child hform hin) _ _).bind fun a b hab =>
      .pure (takeChild_echoes hp child.1 hab)
  unfold checkChildren
  rw [orderedChildren_map]
  refine (ObjectPass.forEach_echoes hchild hp).bind fun p q hp => .pure ?_
  rw [hp.stopped, hp.stripped]
  split
  · exact hp
  · exact eraseAll_echoes hp _

/-- A pattern is about a key in both or in neither. -/
theorem isAbout_echoes (h : site.Omits o check check') {matcher : KeyMatcher Schema}
    (hin : ∀ t ∈ matcher.schema?, (1, t) ∈ site.schema.visited) (key : String)
    (position : Position) :
    Lockstep (o.Beside site.env) Eq (isAbout check site position key matcher)
      (isAbout check' (site.without o) position key (matcher.map (Schema.without o))) :=
  isAbout_lockstep fun t ht => h.visited_passes (hin t ht) _ position

/-- Patterns are tried on a key in step. -/
theorem checkPatterns_echoes (h : site.Omits o check check') (hp : p.Echoes o q)
    {patterns : List (KeyPattern Schema)}
    (hin : ∀ pattern ∈ patterns, ∀ t ∈ pattern.schemas, (1, t) ∈ site.schema.visited)
    (key : String) :
    Lockstep (o.Beside site.env) (Option.Rel (ObjectPass.Echoes o))
      (checkPatterns check site p key patterns)
      (checkPatterns check' (site.without o) q key
        (patterns.map (KeyPattern.map (Schema.without o)))) := by
  induction patterns with
  | nil => exact .pure .none
  | cons pattern rest ih =>
    have hhead := hin pattern (List.mem_cons_self ..)
    rw [List.map_cons]
    unfold checkPatterns
    rw [hp.value, hp.member]
    refine (isAbout_echoes h (fun t ht => hhead t (List.mem_append_left _
      (Option.mem_toList.mpr ht))) key _).bind ?_
    rintro about _ rfl
    cases about with
    | false => exact ih fun pattern hpattern => hin pattern (List.mem_cons_of_mem _ hpattern)
    | true =>
      have hschema := hhead pattern.schema (List.mem_append_right _ (List.mem_singleton_self _))
      exact (h.visited hschema _ _).bind fun a b hab =>
        .pure (.some (takeMatched_echoes hp key hab))

/-- Undeclared keys are gone through in step, and the same are left. -/
theorem checkUndeclared_echoes (h : site.Omits o check check')
    (hform : site.node.form = .object form) (hp : p.Echoes o q) (left keys : List String) :
    Lockstep (o.Beside site.env) (fun r r' => r.1.Echoes o r'.1 ∧ r'.2 = r.2)
      (form.checkUndeclared check site p left keys)
      ((form.map (Schema.without o)).checkUndeclared check' (site.without o) q left keys) := by
  have hin : ∀ pattern ∈ form.patterns, ∀ t ∈ pattern.schemas, (1, t) ∈ site.schema.visited :=
    fun _ hpattern => visited_of_pattern hform hpattern
  induction keys generalizing p q left with
  | nil => exact .pure ⟨hp, rfl⟩
  | cons key rest ih =>
    have hstopped : q.stopped = p.stopped := by rw [hp.same]; rfl
    unfold checkUndeclared
    rw [hstopped]
    split
    · exact .pure ⟨hp, rfl⟩
    · refine (checkPatterns_echoes h hp hin key).bind ?_
      rintro _ _ (hnext | _)
      · exact ih hnext left
      · exact ih hp _

/-- Keys that nothing is about are settled in step. -/
theorem settleUnknown_echoes (form : ObjectForm Schema) (hp : p.Echoes o q) (keys : List String) :
    (form.settleUnknown site p keys).Echoes o
      ((form.map (Schema.without o)).settleUnknown (site.without o) q keys) := by
  have hkeys : (form.map (Schema.without o)).keys.isNone = form.keys.isNone := Option.isNone_map
  have hpatterns : (form.map (Schema.without o)).patterns.isEmpty = form.patterns.isEmpty :=
    List.isEmpty_map
  have hreport (key : String) (ho : o.words = false) :
      unknownReport (site.without o) q key = unknownReport site p key := by
    rw [hp.same]
    unfold unknownReport
    exact congrFun (congrFun (congrFun (reportAt_congr (Site.label_without ho) rfl) _) _) _
  have hunknown : (form.map (Schema.without o)).unknown = form.unknown := rfl
  have hstrip : (site.without o).prefs.stripUnknown = site.prefs.stripUnknown := rfl
  have hallow : (site.without o).prefs.allowUnknown = site.prefs.allowUnknown := rfl
  unfold settleUnknown
  rw [hkeys, hpatterns, hunknown, hstrip, hallow]
  split
  · exact hp
  · split
    · exact eraseAll_echoes hp keys
    · split
      · exact hp
      · refine hp.failEach ?_
        rw [List.forall₂_map_left_iff, List.forall₂_map_right_iff, List.forall₂_same]
        exact fun key _ => hreport key

theorem checkUnknown_echoes (h : site.Omits o check check') (hform : site.node.form = .object form)
    (hp : p.Echoes o q) (keys : List String) :
    Lockstep (o.Beside site.env) (ObjectPass.Echoes o) (form.checkUnknown check site p keys)
      ((form.map (Schema.without o)).checkUnknown check' (site.without o) q keys) := by
  unfold checkUnknown
  refine (checkUndeclared_echoes h hform hp [] keys).bind fun r r' hr => .pure ?_
  rw [hr.1.stopped, hr.2]
  split
  · exact hr.1
  · exact settleUnknown_echoes form hr.1 r.2

/-- Dependencies fail in step. -/
theorem checkDependencies_echoes (form : ObjectForm Schema) (hp : p.Echoes o q) :
    (form.checkDependencies site p).Echoes o
      ((form.map (Schema.without o)).checkDependencies (site.without o) q) := by
  refine ObjectPass.forEach_pure_echoes (R := Eq)
    (fun p d => p.failEach site (dependencyReports site p.value d))
    (fun q d => q.failEach (site.without o) (dependencyReports (site.without o) q.value d)) ?_ ?_ hp
  · rintro p q hp d _ rfl
    rw [hp.value]
    refine hp.failEach (dependencyReports_relates d fun code context _ ho => ?_)
    rw [Site.report_without ho]
  · exact List.forall₂_same.mpr fun _ _ => rfl

/-- The phases of an object follow each other in step. -/
theorem checkMembers_echoes (h : site.Omits o check check') (hform : site.node.form = .object form)
    (members : List (String × Value)) :
    Lockstep (o.Beside site.env) (ObjectPass.Echoes o) (form.checkMembers check site members)
      ((form.map (Schema.without o)).checkMembers check' (site.without o) members) := by
  -- declared keys and renames are no words, so both objects are read alike
  have hdeclared : (form.map (Schema.without o)).orderedChildren.map (·.1) =
      form.orderedChildren.map (·.1) := by
    rw [orderedChildren_map]
    exact keys_mapChildren _ _
  have hrenames : (form.map (Schema.without o)).renames = form.renames := rfl
  have hrenamed : (applyRenames site [] { members } form.renames).Echoes o
      (applyRenames (site.without o) [] { members } form.renames) :=
    applyRenames_echoes [] (.of_reports _ (.refl [])) form.renames
  unfold checkMembers
  rw [hdeclared, hrenames]
  dsimp only
  rw [hrenamed.stopped, hrenamed.members]
  split
  · -- a stop in one phase is a stop in both
    exact .pure hrenamed
  · refine (checkChildren_echoes h hform hrenamed).bind fun p q hp => ?_
    rw [hp.stopped]
    split
    · exact .pure hp
    · refine (checkUnknown_echoes h hform hp _).bind fun p q hp => ?_
      rw [hp.stopped]
      split
      · exact .pure hp
      · exact .pure (checkDependencies_echoes form hp)

theorem base_echoes (h : site.Omits o check check')
    (hform : site.node.form = .object form) (value : Value) :
    Lockstep (o.Beside site.env) (Outcome.Echoes o) (form.base check site value)
      ((form.map (Schema.without o)).base check' (site.without o) value) := by
  have hplain : (form.map (Schema.without o)).isPlain = form.isPlain := by
    have hkeys : (form.map (Schema.without o)).keys.isNone = form.keys.isNone := Option.isNone_map
    have hpatterns : (form.map (Schema.without o)).patterns.isEmpty = form.patterns.isEmpty :=
      List.isEmpty_map
    unfold isPlain
    rw [hkeys, hpatterns]
    rfl
  unfold base
  cases value with
  | object members =>
    dsimp only
    rw [hplain]
    split
    · exact .pure (.refl _)
    · refine (checkMembers_echoes h hform members).bind fun p q hp => ?_
      exact .pure ⟨hp.value, hp.reports, rfl⟩
  | _ => exact .pure (Site.failure_echoes ..)

end ObjectForm

end Conform
