import Conform.Proofs.OmissionArray

/-!
# Whole checks with something left out

The rules and the steps of a node, checked by a schema and by the schema without, and from them the
whole check by induction on how deep nodes stand inside one another (`Check.within_omittable`).

So schemas that are the same without cannot be told apart by what is left out. Where defaults are
off, those that differ in defaults give one outcome (`Schema.defaults_off_bear_on_nothing`); and
those that differ in labels, messages and annotations give one value and pass the same inputs
(`Schema.words_bear_on_no_verdict`).

The two checks run side by side in workshops of which one is the other without. Where results are
compared, reports may differ in their words, so what is kept is that values are equal and that the
one has reports if the other does (`Outcome.Echoes`). A rule compares its value with its arguments,
which are the same; a report of it carries the words of its node. The finish is the one step that
puts reports into words, and what it decides does not depend on them.

Defaults are not words, and leaving them out changes values in general. What makes them bear on
nothing is a preference that switches them off, which no node may switch on again; with that each
step that would fill one in does not. So both theorems are one induction, used with two omissions.
-/

namespace Conform

variable {o : Omission} {check check' : Check} {site : Site}

/-! ### Rules -/

section

variable (h : site.Omits o check check') {given : Given}
  (hgiven : ∀ t ∈ given.schema? "schema", (1, t) ∈ site.schema.visited)

include h

theorem ArrayForm.anyMatches_echoes {s : Schema} (hs : (1, s) ∈ site.schema.visited)
    (parent : Value) (i : Nat) (members : List Value) :
    Lockstep (o.Beside site.env) Eq (anyMatches check site s parent i members)
      (anyMatches check' (site.without o) (s.without o) parent i members) :=
  anyMatches_lockstep
    (fun i member => h.visited_passes hs member (site.position.nest (.index i) parent)) i members

include hgiven

theorem ArrayForm.hasRule_agrees (value : Value) :
    Lockstep (o.Beside site.env) (o.Agrees Eq) (hasRule check site given value)
      (hasRule check' (site.without o) (given.map (Schema.without o)) value) := by
  unfold hasRule
  rw [Given.schema?_map]
  cases value with
  | array members =>
    cases hschema : given.schema? "schema" with
    | none => exact .pure (.ok rfl)
    | some s =>
      refine (anyMatches_echoes h (hgiven s hschema) (.array members) 0 members).bind ?_
      rintro found _ rfl
      split
      · exact .pure (.ok rfl)
      · cases ho : o.words with
        | false =>
          rw [Schema.label_without ho]
          split
          · exact .pure (Site.own_agrees ..)
          · exact .pure (Site.own_agrees ..)
        | true =>
          -- one may have a label to name where the other has none
          have hreports (r r' : Report) : o.Agrees (Eq (α := Value)) (.error r) (.error r') :=
            .error fun hfalse => absurd (ho.symm.trans hfalse) (by decide)
          split
          · split
            · exact .pure (hreports _ _)
            · exact .pure (hreports _ _)
          · split
            · exact .pure (hreports _ _)
            · exact .pure (hreports _ _)
  | _ => exact .pure (.ok rfl)

theorem ArrayForm.rule_agrees (name : String) (value : Value) :
    Lockstep (o.Beside site.env) (o.Agrees Eq) (rule check site name given value)
      (rule check' (site.without o) name (given.map (Schema.without o)) value) := by
  unfold rule
  rw [Given.count_map]
  dsimp only
  split
  · exact .pure (Site.requireSize_agrees ..)
  · exact .pure (Site.requireSize_agrees ..)
  · exact .pure (Site.requireSize_agrees ..)
  · exact .pure (Site.uniqueRule_agrees ..)
  · exact hasRule_agrees h hgiven value
  · exact .pure (.ok rfl)

theorem ObjectForm.assertRule_agrees (value : Value) :
    Lockstep (o.Beside site.env) (o.Agrees Eq) (assertRule check site given value)
      (assertRule check' (site.without o) (given.map (Schema.without o)) value) := by
  unfold assertRule
  rw [Given.subject?_map, Given.schema?_map, Given.text?_map]
  cases given.subject? "subject" with
  | none => exact .pure (.ok rfl)
  | some subject =>
    cases hschema : given.schema? "schema" with
    | none => exact .pure (.ok rfl)
    | some schema =>
      dsimp only [Option.map]
      rw [Site.resolve_without]
      have hallowing : Preferences.Omits o { site.prefs with allowUnknown := true } := h.prefs
      refine ((h.inner schema (h.throughout.visited (hgiven schema hschema))).passes _
        _ hallowing).bind ?_
      rintro passed _ rfl
      split
      · exact .pure (.ok rfl)
      · refine .pure (.error fun ho => ?_)
        exact congrFun (congrFun (congrFun (reportAt_congr (Site.label_without ho) rfl) _) _) _

theorem ObjectForm.rule_agrees (name : String) (value : Value) :
    Lockstep (o.Beside site.env) (o.Agrees Eq) (rule check site name given value)
      (rule check' (site.without o) name (given.map (Schema.without o)) value) := by
  unfold rule
  rw [Given.count_map]
  dsimp only
  split
  · exact .pure (Site.requireSize_agrees ..)
  · exact .pure (Site.requireSize_agrees ..)
  · exact .pure (Site.requireSize_agrees ..)
  · exact assertRule_agrees h hgiven value
  · exact .pure (.ok rfl)

namespace Site

theorem typeRule_agrees (name : String) (value : Value) :
    Lockstep (o.Beside site.env) (o.Agrees Eq) (site.typeRule check name given value)
      ((site.without o).typeRule check' name (given.map (Schema.without o)) value) := by
  have hform : (site.without o).node.form = site.node.form.map (Schema.without o) := rfl
  unfold typeRule
  rw [hform]
  cases site.node.form with
  | array form => exact ArrayForm.rule_agrees h hgiven name value
  | object form => exact ObjectForm.rule_agrees h hgiven name value
  | binary encoding => exact .pure (binaryRule_agrees ..)
  | date format => exact .pure (dateRule_agrees ..)
  | number allowUnsafe => exact .pure (numberRule_agrees ..)
  | string form => exact .pure (stringRule_agrees ..)
  | _ => exact .pure (.ok rfl)

omit hgiven

theorem applyRule_agrees {rule : Rule Schema} (hrule : rule ∈ site.node.rules) (value : Value) :
    Lockstep (o.Beside site.env) (o.Agrees Eq) (site.applyRule check value rule)
      ((site.without o).applyRule check' value (rule.map (Schema.without o))) := by
  have hkind : (site.without o).node.kind = site.node.kind := by
    have hform : (site.without o).node.form = site.node.form.map (Schema.without o) := rfl
    unfold Node.kind
    rw [hform]
    cases site.node.form <;> rfl
  unfold applyRule
  rw [hkind]
  dsimp only [Rule.map]
  cases site.node.kind.rule? rule.name with
  | none => exact .pure (.ok rfl)
  | some spec =>
    have hagrees : o.Agrees (fun given given' => given' = given.map (Schema.without o))
        (site.resolveArguments value spec.parameters rule.args)
        ((site.without o).resolveArguments value spec.parameters
          (rule.args.map (Argument.map (Schema.without o)))) :=
      resolveArguments_agrees ..
    dsimp only
    cases hresolved : site.resolveArguments value spec.parameters rule.args with
    -- an argument that cannot be resolved is reported by both
    | error report =>
      rw [hresolved] at hagrees
      revert hagrees
      generalize (site.without o).resolveArguments value spec.parameters
        (rule.args.map (Argument.map (Schema.without o))) = y
      rintro (_ | hsame)
      exact .pure (.error hsame)
    | ok given =>
      rw [hresolved] at hagrees
      revert hagrees
      generalize (site.without o).resolveArguments value spec.parameters
        (rule.args.map (Argument.map (Schema.without o))) = y
      -- resolved arguments differ in the schemas they hold, and no more
      rintro (hgiven | _)
      rw [hgiven]
      dsimp only
      split
      · exact .pure (customRule_agrees h.toSpares given value)
      · exact typeRule_agrees h (visited_of_given hrule hresolved) spec.name value

theorem applyRules_echoes {rules : List (Rule Schema)}
    (hrules : ∀ rule ∈ rules, rule ∈ site.node.rules)
    (value : Value) {xs ys : List Report} (hxs : o.Echoes xs ys) :
    Lockstep (o.Beside site.env) (fun r r' => r'.1 = r.1 ∧ o.Echoes r.2 r'.2)
      (site.applyRules check value xs rules)
      ((site.without o).applyRules check' value ys (rules.map (Rule.map (Schema.without o)))) := by
  have hearly : (site.without o).prefs.abortEarly = site.prefs.abortEarly := rfl
  induction rules generalizing value xs ys with
  | nil => exact .pure ⟨rfl, hxs⟩
  | cons rule rest ih =>
    have ih (value : Value) {xs ys : List Report} (hxs : o.Echoes xs ys) :=
      ih (fun rule hrule => hrules rule (List.mem_cons_of_mem _ hrule)) value hxs
    rw [List.map_cons]
    unfold applyRules
    refine (applyRule_agrees h (hrules rule (List.mem_cons_self ..)) value).bind ?_
    rintro _ _ (⟨rfl⟩ | hsame)
    · exact ih _ hxs
    · dsimp only
      rw [hearly]
      have hreported := hxs.append (.one hsame)
      split
      · exact .pure ⟨rfl, hreported⟩
      · exact ih value hreported

/-! ### The steps of a node -/

/-- Lazy nodes come to the same on both sides, but for what is left out. -/
theorem force_echoes {form : LazyForm} (hform : site.node.form = .lazy form) :
    Lockstep (o.Beside site.env)
      (fun t u => u = t.without o ∧ t.Throughout site.env (Schema.Admits o))
      (site.env.force form) ((site.env.without o).force form) := by
  -- cells and stamps do not bear on the patch, so what is furnished leaves defaults off as well
  have hmarks (t u : Schema) (hsame : u.erase true = t.erase true) (ht : t.Admits o) :
      u.Admits o := by
    have hprefs : u.node.prefs = t.node.prefs := by
      have hnode := congrArg (fun s : Schema => s.node.prefs) hsame
      simp only [Schema.node_erase] at hnode
      exact hnode
    unfold Schema.Admits Schema.LeavesDefaultsOff
    rw [hprefs]
    exact ht
  rintro w _ ⟨rfl, hw⟩
  rw [Environment.force_without]
  cases hrun : (site.env.force form).run w with
  | none => exact .none
  | some r =>
    obtain ⟨ht, hkept⟩ := Environment.force_leaves hmarks h.throughout hform w r.1 r.2 hw hrun
    exact .some ⟨⟨rfl, ht⟩, rfl, hkept⟩

theorem checkBase_echoes (value : Value) :
    Lockstep (o.Beside site.env) (Outcome.Echoes o) (site.checkBase check value)
      ((site.without o).checkBase check' value) := by
  have hform : (site.without o).node.form = site.node.form.map (Schema.without o) := rfl
  unfold checkBase
  rw [hform]
  cases hform : site.node.form with
  | any => exact .pure (.refl _)
  | alternatives form => exact AlternativesForm.check_echoes h hform value
  | array form => exact ArrayForm.base_echoes h hform value
  | object form => exact ObjectForm.base_echoes h hform value
  | binary encoding => exact .pure (binaryBase_echoes value)
  | boolean form => exact .pure (booleanBase_echoes value)
  | date format => exact .pure (dateBase_echoes format value)
  | number allowUnsafe => exact .pure (numberBase_echoes allowUnsafe value)
  | string form => exact .pure (stringBase_echoes value)
  | lazy form =>
    refine (force_echoes h hform).bind ?_
    rintro t _ ⟨rfl, ht⟩
    exact h.inner t ht value site.position site.prefs h.prefs

theorem checkContent_echoes (value : Value) {xs ys : List Report} (hxs : o.Echoes xs ys) :
    Lockstep (o.Beside site.env) (Outcome.Echoes o) (site.checkContent check value xs)
      ((site.without o).checkContent check' value ys) := by
  unfold checkContent
  refine (checkBase_echoes h value).bind fun a b hab => ?_
  rw [hab.isOk, hab.value, hab.strip]
  split
  · exact .pure (finish_echoes h.toSpares _ (hxs.append hab.reports) _)
  · refine (applyRules_echoes h (fun _ hrule => hrule) a.value hxs).bind ?_
    rintro ⟨value, reports⟩ ⟨value', reports'⟩ ⟨hvalue, hreports⟩
    dsimp only at hvalue hreports ⊢
    rw [hvalue]
    exact .pure (finish_echoes h.toSpares _ hreports _)

theorem checkPresent_echoes (value : Value) :
    Lockstep (o.Beside site.env) (Outcome.Echoes o) (site.checkPresent check value)
      ((site.without o).checkPresent check' value) := by
  have hearly : (site.without o).prefs.abortEarly = site.prefs.abortEarly := rfl
  have hdenials : o.Echoes (site.denials value) ((site.without o).denials value) :=
    denials_echoes value
  unfold checkPresent
  rw [allowed?_without, hearly]
  split
  · exact .pure (finish_echoes h.toSpares _ (.refl []) _)
  · revert hdenials
    generalize site.denials value = xs
    generalize (site.without o).denials value = ys
    intro hdenials
    have hcontent := checkContent_echoes h value hdenials
    cases xs with
    | nil =>
      obtain rfl : ys = [] := List.isEmpty_iff.mp hdenials.isEmpty
      exact hcontent
    | cons r xs =>
      obtain ⟨r', ys, rfl⟩ := List.exists_cons_of_ne_nil (hdenials.ne_nil (List.cons_ne_nil r xs))
      cases site.prefs.abortEarly with
      | false => exact hcontent
      | true =>
        -- only the first denial counts
        have hfirst : o.Echoes [r] [r'] := .one fun ho => (List.cons.inj (hdenials.same ho)).1
        exact .pure (finish_echoes h.toSpares value hfirst _)

theorem run_echoes : Lockstep (o.Beside site.env) (Outcome.Echoes o) (site.run check)
    ((site.without o).run check') := by
  have hinput : (site.without o).input = site.input := rfl
  -- a value that counts as empty counts so for both
  have hdrop (value : Value) :
      Lockstep (o.Beside site.env) Eq (site.dropEmpty check value)
      ((site.without o).dropEmpty check' value) := by
    have hempty : (site.without o).node.empty = site.node.empty.map (Schema.without o) := rfl
    unfold dropEmpty
    rw [hempty]
    cases hempty : site.node.empty with
    | none => exact .pure rfl
    | some empty =>
      dsimp only [Option.map]
      split
      · refine (h.visited_passes (visited_of_empty hempty) value site.position).bind ?_
        rintro passed _ rfl
        exact .pure rfl
      · exact .pure rfl
  have hconverted : o.Agrees Eq (site.convert site.input) ((site.without o).convert site.input) :=
    convert_agrees site.input
  unfold run
  rw [hinput]
  revert hconverted
  generalize site.convert site.input = x
  generalize (site.without o).convert site.input = y
  -- conversion gives both one value, or ends both with their reports
  rintro (⟨rfl⟩ | hsame)
  · refine (hdrop _).bind ?_
    rintro value _ rfl
    rcases checkPresence_echoes h.toSpares value with
        ⟨next, hleft, hright⟩ | ⟨xs, ys, hleft, hright, hxs⟩
    · rw [hleft, hright]
      exact checkPresent_echoes h next
    · rw [hleft, hright]
      exact .pure (finish_echoes h.toSpares value hxs _)
  · exact .pure (finish_echoes h.toSpares site.input (.one hsame) _)

end Site

end

/-! ### Whole checks -/

/-- The checks by a schema and by the schema without go side by side, however deep nodes stand. -/
theorem Check.within_omittable {env : Environment} (hdeaf : env.Deaf o) (fuel : Nat) :
    ∀ s, s.Throughout env (Schema.Admits o) →
      Omittable o env (Check.within env fuel) (Check.within (env.without o) fuel) s := by
  induction fuel with
  | zero => exact fun _ _ _ _ _ _ => .failure
  | succ fuel ih =>
    intro s hs value p prefs hprefs
    have homits : (Site.mk env s p (prefs.merged s.node.prefs) value).Omits o
        (Check.within env fuel) (Check.within (env.without o) fuel) :=
      { deaf := hdeaf, prefs := hprefs.merged hs.self, throughout := hs, inner := ih }
    have hsite : (Site.mk env s p (prefs.merged s.node.prefs) value).without o =
        ⟨env.without o, s.without o, p,
          (prefs.without o).merged (s.without o).node.prefs, value⟩ := by
      have hmerged : (prefs.without o).merged (s.without o).node.prefs =
          (prefs.merged s.node.prefs).without o := by
        rw [Schema.without_eq]
        exact Preferences.merged_without o prefs (s.node.map (Schema.without o))
      rw [hmerged, Schema.without_eq]
      rfl
    have hrun := Site.run_echoes homits
    rw [hsite] at hrun
    exact hrun

/-- Two checks of the same, but for what is left out: neither comes to an end,
or both, with one echo. -/
theorem Check.within_echoes {env env' : Environment} (henv : env'.without o = env.without o)
    (hdeaf : env.Deaf o)
    (hdeaf' : env'.Deaf o) {s t : Schema} (hst : t.without o = s.without o)
    (hs : s.Throughout env (Schema.Admits o))
    (ht : t.Throughout env' (Schema.Admits o)) {prefs prefs' : Preferences}
    (hprefs : prefs'.without o = prefs.without o) (hoff : prefs.Omits o)
    (hoff' : prefs'.Omits o) {w w' : Workshop}
    (hshops : w'.without o = w.without o) (hw : w.Keeps env (Schema.Admits o))
    (hw' : w'.Keeps env' (Schema.Admits o)) (fuel : Nat) (value : Value) (p : Position) :
    Option.Rel (fun r r' => Outcome.Echoes o r.1 r'.1)
      ((Check.within env fuel s value p prefs).run w)
      ((Check.within env' fuel t value p prefs').run w') := by
  have hleft := Check.within_omittable hdeaf fuel s hs value p prefs hoff w (w.without o) ⟨rfl, hw⟩
  have hright :=
    Check.within_omittable hdeaf' fuel t ht value p prefs' hoff' w' (w'.without o) ⟨rfl, hw'⟩
  rw [henv, hst, hprefs, hshops] at hright
  revert hleft hright
  generalize (Check.within env fuel s value p prefs).run w = x
  generalize (Check.within env' fuel t value p prefs').run w' = y
  generalize (Check.within (env.without o) fuel (s.without o) value p (prefs.without o)).run
    (w.without o) = z
  intro hleft hright
  cases hleft with
  | some ha =>
    cases hright with
    | some hb => exact .some (ha.1.of_common hb.1)
  | none =>
    cases hright with
    | none => exact .none

namespace Omission

/-- Defaults are left out. -/
def ofDefaults : Omission := { defaults := true }

/-- Labels, messages and annotations are left out. -/
def ofWords : Omission := { words := true }

end Omission

namespace Schema

/-- With defaults off, and no node that switches them on, schemas that differ in defaults alone give
one outcome, whatever the defaults are: values, functions, references, or those of the children. -/
theorem defaults_off_bear_on_nothing {env env' : Environment}
    (henv : env'.without .ofDefaults = env.without .ofDefaults) {s t : Schema}
    (hst : t.without .ofDefaults = s.without .ofDefaults) (hs : s.Throughout env LeavesDefaultsOff)
    (ht : t.Throughout env' LeavesDefaultsOff) {prefs : Preferences}
    (hoff : prefs.noDefaults = true)
    {w w' : Workshop} (hshops : w'.without .ofDefaults = w.without .ofDefaults)
    (hw : w.Keeps env LeavesDefaultsOff) (hw' : w'.Keeps env' LeavesDefaultsOff)
    (fuel : Nat) (value : Value) (position : Position) :
    ((Check.within env' fuel t value position prefs).run w').map Prod.fst =
      ((Check.within env fuel s value position prefs).run w).map Prod.fst := by
  have hdeaf (env : Environment) : env.Deaf .ofDefaults :=
    ⟨fun _ _ _ _ p => by rw [Preferences.without_of_words rfl], fun _ _ _ _ p => by
      rw [Preferences.without_of_words rfl]⟩
  have hadmits (t : Schema) (h : t.LeavesDefaultsOff) : t.Admits .ofDefaults := fun _ => h
  have hrel :=
    Check.within_echoes henv (hdeaf env) (hdeaf env') hst (hs.mono hadmits) (ht.mono hadmits) rfl
    (fun _ => hoff) (fun _ => hoff) hshops (fun form t hin => (hw form t hin).mono hadmits)
    (fun form t hin => (hw' form t hin).mono hadmits) fuel value position
  revert hrel
  generalize (Check.within env fuel s value position prefs).run w = x
  generalize (Check.within env' fuel t value position prefs).run w' = y
  rintro (hechoes | _)
  · exact congrArg some (hechoes.eq_of_words rfl)
  · rfl

/-- An object with one field, and some flags of its own. -/
def oneField (flags : Flags) (field : Schema) : Schema :=
  { node := { form := .object { keys := some [("a", field)], order := ["a"] }, flags } }

theorem oneField_without (o : Omission) (flags : Flags) (field : Schema) :
    (oneField flags field).without o =
    { node := (oneField flags (field.without o)).node.without o } := by
  rw [without_eq]
  rfl

theorem throughout_oneField {P : Schema → Prop} {flags : Flags} {field : Schema}
    (hvisited : field.visited = [])
    (heager : field.kind ≠ .lazy) (hobject : P (oneField flags field)) (hfield : P field) :
    (oneField flags field).Throughout {} P := by
  refine (throughout_of_closed (P :=
    fun t => t = oneField flags field ∨ t = field) (.inl rfl) ?_ ?_).mono ?_
  · rintro t (rfl | rfl) levels child hchild
    · have hone : (levels, child) ∈ [(1, field)] := hchild
      exact .inr (Prod.mk.inj (List.mem_singleton.mp hone)).2
    · rw [hvisited] at hchild
      exact absurd hchild List.not_mem_nil
  · rintro t (rfl | rfl) form hform
    · exact absurd (congrArg Form.kind hform) (by simp [oneField, Form.kind])
    · exact absurd (congrArg Form.kind hform) heager
  · rintro t (rfl | rfl)
    · exact hobject
    · exact hfield

/-- A number that is five unless given. -/
def orFive : Schema :=
    { node := { form := .number false, flags := { default := some (.value (.ofNat 5)) } } }

/-- A missing object that would be made from the default of its field stays missing, as it does
where neither has a default. -/
theorem defaults_off_bear_on_nothing_oneField :
    (((Check.within {} 2 (oneField { default := some .deep } orFive) .undefined .root {}).run
      {}).any
      fun r => r.1.value.isDefined) = true ∧
    ((Check.within {} 2 (oneField {} number) .undefined .root { noDefaults := true }).run
      {}).map Prod.fst =
      ((Check.within {} 2 (oneField { default := some .deep } orFive) .undefined .root
        { noDefaults := true }).run {}).map Prod.fst := by
  have hfive : number.without .ofDefaults = orFive.without .ofDefaults := by
    rw [without_eq, without_eq _ orFive]
    rfl
  have hsame : (oneField {} number).without .ofDefaults =
      (oneField { default := some .deep } orFive).without .ofDefaults := by
    rw [oneField_without, oneField_without, hfive]
    rfl
  have hoff (flags : Flags) (field : Schema) : (oneField flags field).LeavesDefaultsOff :=
    fun _ hnever => absurd hnever (by simp [oneField])
  refine ⟨by decide +kernel,
    defaults_off_bear_on_nothing rfl hsame ?_ ?_ rfl rfl ?_ ?_ 2 .undefined .root⟩
  · exact throughout_oneField rfl (by decide) (hoff _ _) fun _ hnever =>
      absurd hnever (by simp [orFive])
  · exact throughout_oneField rfl (by decide) (hoff _ _) fun _ hnever =>
      absurd hnever (by simp [number, ofForm])
  · exact Workshop.keeps_new _ _
  · exact Workshop.keeps_new _ _

/-- Schemas that differ in labels, messages and annotations alone come to one value, and either
both pass or neither does, whatever templates the preferences and the nodes have, if the
functions do not read those. -/
theorem words_bear_on_no_verdict {env env' : Environment}
    (henv : env'.without .ofWords = env.without .ofWords)
    (hdeaf : env.Deaf .ofWords) {s t : Schema} (hst : t.without .ofWords = s.without .ofWords)
    {prefs prefs' : Preferences} (hprefs : prefs'.without .ofWords = prefs.without .ofWords)
    {w w' : Workshop}
    (hshops : w'.without .ofWords = w.without .ofWords) (fuel : Nat) (value : Value)
    (position : Position) :
    Option.Rel (fun r r' => r'.1.value = r.1.value ∧ r'.1.strip = r.1.strip ∧
      (r'.1.reports = [] ↔ r.1.reports = []))
      ((Check.within env fuel s value position prefs).run w)
      ((Check.within env' fuel t value position prefs').run w') := by
  -- functions that are deaf to words in one environment are so in the other
  have hdeaf' : env'.Deaf .ofWords := by
    have hcustoms : (env'.without .ofWords).registry.customs =
        (env.without .ofWords).registry.customs := by
      rw [henv]
    have hdefaults : (env'.without .ofWords).registry.defaults =
        (env.without .ofWords).registry.defaults := by
      rw [henv]
    refine ⟨fun name f hname => ?_, fun name f hname => ?_⟩
    · exact hdeaf.customs name f ((congrFun hcustoms name).symm.trans hname)
    · exact hdeaf.defaults name f ((congrFun hdefaults name).symm.trans hname)
  -- no schema asks for words
  have hadmits (t : Schema) : t.Admits .ofWords := fun hnever => absurd hnever (by decide)
  have hoff (p : Preferences) : p.Omits .ofWords := fun hnever => absurd hnever (by decide)
  have hrel := Check.within_echoes henv hdeaf hdeaf' hst (fun _ t _ => hadmits t)
    (fun _ t _ => hadmits t) hprefs
    (hoff prefs) (hoff prefs') hshops (fun _ _ _ _ t _ => hadmits t)
    (fun _ _ _ _ t _ => hadmits t) fuel value position
  revert hrel
  generalize (Check.within env fuel s value position prefs).run w = x
  generalize (Check.within env' fuel t value position prefs').run w' = y
  rintro (hechoes | _)
  · refine .some ⟨hechoes.value, hechoes.strip, ?_⟩
    rw [← List.isEmpty_iff, ← List.isEmpty_iff, hechoes.reports.isEmpty]
  · exact .none

/-- A number with a label, a message and a description. -/
def calledCount : Schema :=
  { node := {
      form := .number false, flags := { label := some "count", message := some "not a count" },
      notes := { description := some "how many" } } }

/-- A text where a number should be fails under one name and another, in other words. -/
theorem words_bear_on_no_verdict_oneField :
    ∃ o o' w w',
      (Check.within {} 2 (oneField {} number) (.object [("a", .string "x")]) .root {}).run
      {} = some (o, w) ∧
      (Check.within {} 2 (oneField { label := some "counted" } calledCount)
        (.object [("a", .string "x")]) .root
        { messages := .ofList [("number.base", "no")] }).run {} = some (o', w') ∧
      o.reports ≠ [] ∧ o'.reports ≠ [] ∧ o'.value = o.value := by
  have hcount : calledCount.without .ofWords = number.without .ofWords := by
    rw [without_eq, without_eq _ number]
    rfl
  have hsame : (oneField { label := some "counted" } calledCount).without .ofWords =
      (oneField {} number).without .ofWords := by
    rw [oneField_without, oneField_without, hcount]
    rfl
  have hdeaf : Environment.Deaf .ofWords {} :=
    ⟨fun _ _ hnever => absurd hnever (by simp), fun _ _ hnever => absurd hnever (by simp)⟩
  have hprefs : Preferences.without .ofWords { messages := .ofList [("number.base", "no")] } =
      Preferences.without .ofWords {} := rfl
  have hshops : Workshop.without .ofWords {} = Workshop.without .ofWords {} := rfl
  have hfails :
      ((Check.within {} 2 (oneField {} number) (.object [("a", .string "x")]) .root {}).run {}).any
      (fun r => !r.1.reports.isEmpty) = true := by decide +kernel
  obtain ⟨⟨o, w⟩, hrun, hreported⟩ := (Option.any_eq_true _ _).mp hfails
  have hreported : o.reports ≠ [] := by
    intro hnone
    rw [hnone] at hreported
    exact absurd hreported (by decide)
  have hrel :=
    words_bear_on_no_verdict rfl hdeaf hsame hprefs hshops 2 (.object [("a", .string "x")]) .root
  rw [hrun] at hrel
  revert hrel
  generalize hrun' : (Check.within {} 2 (oneField { label := some "counted" } calledCount)
    (.object [("a", .string "x")]) .root { messages := .ofList [("number.base", "no")] }).run {} = y
  rintro (⟨hvalue, -, hnone⟩)
  exact ⟨o, _, w, _, hrun, rfl, hreported, fun hempty => hreported (hnone.mp hempty), hvalue⟩

end Schema

end Conform
