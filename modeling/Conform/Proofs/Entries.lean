import Conform.Proofs.Made
import Conform.Proofs.Truncation

/-!
# The entries of alternatives

Entries are tried in order. An entry is passed over (`Passed`) or taken (`Taken`), and the
first one that is taken settles the outcome, whatever stands behind it. A conditional with
several cases is as good as one conditional for each case, of which only the last has the
branch for all else (`Match.chain`).

Both are told of one entry first (`tryEntries_cons`, `tryEntries_conditional`) and follow for
all of them by induction.

What is under study is a list, and the outcome of its first entry that is taken. `Passed` and
`Taken` are exclusive and one of them holds, as an entry either comes to something by itself or
leaves the rest to be tried. The theorem is therefore an equivalence: the alternatives come to an
outcome exactly if some entry in front of which all are passed over has it, or all are passed over
and the node comes to it by itself. The reports of the entries passed over are kept in order,
because the node puts them together if nothing is taken.

For conditionals the comparison is between nodes that differ in their entries only. Splitting
off the first case changes nothing, since it is tested first, and whether a test held before is
not looked at; by induction a conditional is a chain. The context in which the two lists of
entries stand, in front, behind and around, is dealt with by lemmas of its own
(`tryEntries_behind`, `run_withEntries`).

Main statements: `first_match_decides` and `switch_is_chain`.
-/

namespace Conform

namespace AlternativesForm

variable {check : Check} {site : Site} {value : Value}

/-! ### The first match decides -/

/-- The entry is passed over: a try that fails and leaves its reports, or a conditional
that picks no branch. -/
inductive Passed (check : Check) (site : Site) (value : Value) :
    Match Schema → Workshop → List (List Report) → Workshop → Prop
  | attempt {schema : Schema} {o : Outcome} {w w₁ : Workshop} :
      (check schema value site.position site.prefs).run w = some (o, w₁) → o.isOk = false →
      Passed check site value (.attempt schema) w [o.reports] w₁
  | conditional {condition : Condition Schema} {cases : List (Case Schema)}
      {otherwise : Option Schema} {w w₁ : Workshop} :
      (pick check site value condition cases otherwise).run w = some (none, w₁) →
      Passed check site value (.conditional condition cases otherwise) w [] w₁

/-- All entries are passed over, and these are the reports of those tried. -/
inductive AllPassed (check : Check) (site : Site) (value : Value) :
    List (Match Schema) → Workshop → List (List Report) → Workshop → Prop
  | nil (w : Workshop) : AllPassed check site value [] w [] w
  | cons {entry : Match Schema} {rest : List (Match Schema)} {failures more : List (List Report)}
      {w w₁ w₂ : Workshop} : Passed check site value entry w failures w₁ →
      AllPassed check site value rest w₁ more w₂ →
      AllPassed check site value (entry :: rest) w (failures ++ more) w₂

/-- The entry is taken: a try that accepts the value gives its outcome, a conditional that picks a
branch gives the outcome of that branch, be it a failure. -/
inductive Taken (check : Check) (site : Site) (value : Value) :
    Match Schema → Workshop → Outcome → Workshop → Prop
  | attempt {schema : Schema} {o : Outcome} {w w₁ : Workshop} :
      (check schema value site.position site.prefs).run w = some (o, w₁) → o.isOk = true →
      Taken check site value (.attempt schema) w o w₁
  | conditional {condition : Condition Schema} {cases : List (Case Schema)}
      {otherwise : Option Schema} {branch : Schema} {o : Outcome} {w w₁ w₂ : Workshop} :
      (pick check site value condition cases otherwise).run w = some (some branch, w₁) →
      (check branch value site.position site.prefs).run w₁ = some (o, w₂) →
      Taken check site value (.conditional condition cases otherwise) w o w₂

variable {form : AlternativesForm Schema} {w w' : Workshop} {o : Outcome}

/-- One entry is taken, or it is passed over and the entries behind it are tried. -/
theorem tryEntries_cons (entry : Match Schema) (rest : List (Match Schema))
    (failures : List (List Report)) :
    (form.tryEntries check site value failures (entry :: rest)).run w = some (o, w') ↔
      Taken check site value entry w o w' ∨ ∃ more w₁, Passed check site value entry w more w₁ ∧
        (form.tryEntries check site value (failures ++ more) rest).run w₁ = some (o, w') := by
  cases entry with
  | attempt schema =>
    constructor
    · intro hrun
      unfold tryEntries at hrun
      obtain ⟨tried, w₁, htry, hrest⟩ := Runs.bind_some hrun
      by_cases hok : tried.isOk = true
      · rw [if_pos hok] at hrest
        obtain ⟨rfl, rfl⟩ := Runs.pure_some hrest
        exact .inl (.attempt htry hok)
      · rw [if_neg hok] at hrest
        exact .inr ⟨_, w₁, .attempt htry (Bool.eq_false_iff.mpr hok), hrest⟩
    · intro h
      unfold tryEntries
      rw [StateT.run_bind]
      rcases h with ⟨htry, hok⟩ | ⟨_, _, ⟨htry, hok⟩, hrest⟩
      · rw [htry]
        show (if o.isOk = true then _ else _ : Run Outcome).run _ = _
        rw [if_pos hok]
        rfl
      · rw [htry]
        show (if _ = true then _ else _ : Run Outcome).run _ = _
        rw [if_neg (Bool.eq_false_iff.mp hok)]
        exact hrest
  | conditional condition cases otherwise =>
    constructor
    · intro hrun
      unfold tryEntries at hrun
      obtain ⟨picked, w₁, hpick, hrest⟩ := Runs.bind_some hrun
      cases picked with
      | some branch => exact .inl (.conditional hpick hrest)
      | none => exact .inr ⟨[], w₁, .conditional hpick, by rwa [List.append_nil]⟩
    · intro h
      unfold tryEntries
      rw [StateT.run_bind]
      rcases h with htaken | ⟨_, _, hpassed, hrest⟩
      · cases htaken with
        | conditional hpick hbranch =>
          rw [hpick]
          exact hbranch
      · cases hpassed with
        | conditional hpick =>
          rw [hpick]
          rwa [List.append_nil] at hrest

/-- The first entry that is taken settles it, and if there is none, all of them are passed over. -/
theorem tryEntries_run (entries : List (Match Schema)) (failures : List (List Report)) :
    (form.tryEntries check site value failures entries).run w = some (o, w') ↔
      (∃ before entry after more w₁, entries = before ++ entry :: after ∧
        AllPassed check site value before w more w₁ ∧ Taken check site value entry w₁ o w') ∨
      ∃ more w₁, AllPassed check site value entries w more w₁ ∧
        (form.tryEntries check site value (failures ++ more) []).run w₁ = some (o, w') := by
  induction entries generalizing failures w with
  | nil =>
    constructor
    · intro hrun
      exact .inr ⟨[], w, .nil w, by rwa [List.append_nil]⟩
    · rintro (⟨before, entry, after, more, w₁, heq, -, -⟩ | ⟨more, w₁, hpassed, hrun⟩)
      · exact absurd heq (by simp)
      · cases hpassed with
        | nil => rwa [List.append_nil] at hrun
  | cons entry rest ih =>
    rw [tryEntries_cons]
    constructor
    · rintro (htaken | ⟨more, w₁, hpassed, hrun⟩)
      · exact .inl ⟨[], entry, rest, [], w, rfl, .nil w, htaken⟩
      · rcases (ih _).mp hrun with
            ⟨before, next, after, further, w₂, rfl, hbefore, htaken⟩ | ⟨further, w₂, hrest, hrun⟩
        · exact .inl ⟨entry :: before, next, after, _, w₂, rfl, .cons hpassed hbefore, htaken⟩
        · exact .inr ⟨_, w₂, .cons hpassed hrest, by rwa [← List.append_assoc]⟩
    · rintro (⟨before, next, after, more, w₁, heq, hbefore, htaken⟩ | ⟨more, w₁, hpassed, hrun⟩)
      · -- the entry that is taken stands in front, or behind one that is passed over
        cases hbefore with
        | nil =>
          obtain ⟨rfl, -⟩ := List.cons.inj heq
          exact .inl htaken
        | cons hpassed hbefore =>
          obtain ⟨rfl, rfl⟩ := List.cons.inj heq
          exact .inr ⟨_, _, hpassed,
            (ih _).mpr (.inl ⟨_, next, after, _, w₁, rfl, hbefore, htaken⟩)⟩
      · cases hpassed with
        | cons hpassed hrest =>
          rw [← List.append_assoc] at hrun
          exact .inr ⟨_, _, hpassed, (ih _).mpr (.inr ⟨_, w₁, hrest, hrun⟩)⟩

/-- Entries that were tried and passed over have something to report. -/
theorem AllPassed.reports_ne {entries : List (Match Schema)} {failures : List (List Report)}
    (h : AllPassed check site value entries w failures w') :
    ∀ reports ∈ failures, reports ≠ [] := by
  induction h with
  | nil => exact List.forall_mem_nil _
  | cons hpassed _ ih =>
    intro reports hreports
    rcases List.mem_append.mp hreports with hown | hmore
    · cases hpassed with
      | attempt _ hok =>
        obtain rfl := List.mem_singleton.mp hown
        exact List.isEmpty_eq_false_iff.mp hok
      | conditional _ => exact absurd hown List.not_mem_nil
    · exact ih reports hmore

/-- Where no entry is left, the schema for that case decides, and without one the
failures are put together. -/
theorem tryEntries_nil {failures : List (List Report)}
    (hfailures : ∀ reports ∈ failures, reports ≠ []) :
    (form.tryEntries check site value failures []).run w = some (o, w') ↔
      match form.base with
      | some base => (check base value site.position site.prefs).run w = some (o, w')
      | none => o = { value, reports := unmatched site value failures } ∧
          o.isOk = false ∧ w' = w := by
  unfold tryEntries
  cases form.base with
  | some base => exact Iff.rfl
  | none =>
    constructor
    · intro hrun
      obtain ⟨rfl, rfl⟩ := Runs.pure_some hrun
      exact ⟨rfl, List.isEmpty_eq_false_iff.mpr (unmatched_ne hfailures site value), rfl⟩
    · rintro ⟨rfl, -, rfl⟩
      rfl

/-- Alternatives come to the outcome of the first entry that is taken, whatever stands behind it. If
all are passed over, they come to the outcome of the schema for that case, and without one they
fail: the value is as it was, and there is something to report. -/
theorem first_match_decides (form : AlternativesForm Schema) (check : Check)
    (site : Site) (value : Value) (w w' : Workshop) (o : Outcome) :
    (form.check check site value).run w = some (o, w') ↔
      (∃ before entry after failures w₁, form.entries = before ++ entry :: after ∧
        AllPassed check site value before w failures w₁ ∧ Taken check site value entry w₁ o w') ∨
      ∃ failures w₁, AllPassed check site value form.entries w failures w₁ ∧
        match form.base with
        | some base => (check base value site.position site.prefs).run w₁ = some (o, w')
        | none => o = { value, reports := unmatched site value failures } ∧
            o.isOk = false ∧ w' = w₁ := by
  refine (tryEntries_run form.entries []).trans (or_congr Iff.rfl ?_)
  refine exists_congr fun failures => exists_congr fun w₁ => and_congr_right fun hpassed => ?_
  exact tryEntries_nil hpassed.reports_ne

end AlternativesForm

/-! ### A conditional for each case -/

/-- One conditional for each case, of which only the last has the branch for all else. -/
def Match.chain (condition : Condition Schema) (otherwise : Option Schema) :
    List (Case Schema) → List (Match Schema)
  | [] => []
  | [c] => [.conditional condition [c] otherwise]
  | c :: rest => .conditional condition [c] none :: chain condition otherwise rest

namespace AlternativesForm

/-- The test of a case under a condition. -/
def testOf (condition : Condition Schema) (c : Case Schema) : Option Schema :=
    c.test <|> condition.schema?

/-- What the cases of a conditional are held against. -/
def subjectOf (site : Site) (value : Value) : Condition Schema → Value
  | .reference r => r.resolve value site.scope
  | .schema _ => value

variable {check : Check} {site : Site} {value : Value} {form : AlternativesForm Schema}
  {condition : Condition Schema} {c next : Case Schema} {otherwise : Option Schema}

theorem pick_eq (cases : List (Case Schema)) : pick check site value condition cases otherwise =
    pickCase check site (subjectOf site value condition) condition.schema?
      otherwise false cases := by
  cases condition <;> rfl

/-- What follows the choice of a branch: its check, or, without one, what is left to try. -/
def followUp (check : Check) (site : Site) (value : Value) (left : Run Outcome) :
    Option Schema → Run Outcome
  | some branch => check branch value site.position site.prefs
  | none => left

theorem tryEntries_conditional (cases : List (Case Schema)) (after : List (Match Schema))
    (failures : List (List Report)) :
    form.tryEntries check site value failures (.conditional condition cases otherwise :: after) =
      pickCase check site (subjectOf site value condition) condition.schema?
        otherwise false cases >>=
        followUp check site value (form.tryEntries check site value failures after) := by
  rw [← pick_eq]
  conv_lhs => unfold tryEntries
  refine bind_congr fun picked => ?_
  cases picked <;> rfl

/-- Where the first case has a test, it does not matter whether one held before. -/
theorem pickCase_held {input : Value} {test : Option Schema}
    (htest : (c.test <|> test).isSome = true) (rest : List (Case Schema)) (held : Bool) :
    pickCase check site input test otherwise held (c :: rest) =
      pickCase check site input test otherwise false (c :: rest) := by
  obtain ⟨schema, hschema⟩ := Option.isSome_iff_exists.mp htest
  unfold pickCase
  rw [hschema]

/-- The first of several cases may stand in a conditional of its own. -/
theorem tryEntries_split (hc : (testOf condition c).isSome = true)
    (hnext : (testOf condition next).isSome = true)
    (rest : List (Case Schema)) (after : List (Match Schema)) (failures : List (List Report)) :
    form.tryEntries check site value failures
      (.conditional condition (c :: next :: rest) otherwise :: after) =
      form.tryEntries check site value failures
        (.conditional condition [c] none ::
          .conditional condition (next :: rest) otherwise :: after) := by
  rw [tryEntries_conditional, tryEntries_conditional, tryEntries_conditional]
  generalize form.tryEntries check site value failures after = left
  -- where the first case picks nothing, both go on with the next one
  have hon (held : Bool) :
      pickCase check site (subjectOf site value condition) condition.schema? otherwise held
      (next :: rest) >>= followUp check site value left =
      pickCase check site (subjectOf site value condition) condition.schema? none held [] >>=
        followUp check site value
          (pickCase check site (subjectOf site value condition) condition.schema? otherwise false
            (next :: rest) >>= followUp check site value left) := by
    have hnone : pickCase check site
        (subjectOf site value condition) condition.schema? none held [] =
        pure none := by cases held <;> rfl
    rw [pickCase_held hnext, hnone, pure_bind]
    rfl
  obtain ⟨schema, hschema⟩ := Option.isSome_iff_exists.mp hc
  conv_lhs => unfold pickCase
  conv_rhs => enter [1]; unfold pickCase
  rw [show (c.test <|> condition.schema?) = some schema from hschema]
  dsimp only
  rw [bind_assoc, bind_assoc]
  refine bind_congr fun held => ?_
  -- a case that holds without a branch leaves the choice to the next one, in either form
  cases held with
  | false => exact hon false
  | true =>
    cases c.branch with
    | none => exact hon true
    | some branch => rfl

/-- A conditional whose cases are tested is as good as one conditional for each of them. -/
theorem tryEntries_chain {cases : List (Case Schema)} (hsome : cases ≠ [])
    (htested : ∀ c ∈ cases, (testOf condition c).isSome = true) (after : List (Match Schema))
    (failures : List (List Report)) :
    form.tryEntries check site value failures (Match.chain condition otherwise cases ++ after) =
      form.tryEntries check site value failures
        (.conditional condition cases otherwise :: after) := by
  induction cases with
  | nil => exact absurd rfl hsome
  | cons c rest ih =>
    cases rest with
    | nil => rfl
    | cons next rest =>
      have hrest := ih (List.cons_ne_nil _ _) fun c hc => htested c (List.mem_cons_of_mem _ hc)
      rw [tryEntries_split (htested c (List.mem_cons_self ..))
        (htested next (List.mem_cons_of_mem _ (List.mem_cons_self ..)))]
      show form.tryEntries check site value failures (.conditional condition [c] none ::
        (Match.chain condition otherwise (next :: rest) ++ after)) = _
      rw [tryEntries_conditional, tryEntries_conditional, hrest]

/-- What makes no difference among entries makes none behind others. -/
theorem tryEntries_behind {entries entries' : List (Match Schema)}
    (h : ∀ failures, form.tryEntries check site value failures entries =
      form.tryEntries check site value failures entries')
    (before : List (Match Schema)) (failures : List (List Report)) :
    form.tryEntries check site value failures (before ++ entries) =
      form.tryEntries check site value failures (before ++ entries') := by
  induction before generalizing failures with
  | nil => exact h failures
  | cons entry rest ih =>
    rw [List.cons_append, List.cons_append]
    cases entry with
    | attempt schema =>
      unfold tryEntries
      refine bind_congr fun outcome => ?_
      rw [ih]
    | conditional other cases' otherwise' => rw [tryEntries_conditional, tryEntries_conditional, ih]

/-- A choice of branches looks at the position and the preferences, and at
nothing else of the site. -/
theorem pickCase_congr (site other : Site) (hposition : other.position = site.position)
    (hprefs : other.prefs = site.prefs) (input : Value) (test : Option Schema)
    (cases : List (Case Schema)) (held : Bool) :
    pickCase check other input test otherwise held cases =
      pickCase check site input test otherwise held cases := by
  induction cases generalizing held with
  | nil => rfl
  | cons c rest ih =>
    unfold pickCase
    rw [hposition, hprefs]
    simp only [ih]

end AlternativesForm

/-! ### Nodes with other entries -/

/-- The same alternatives with other entries. -/
def Schema.withEntries (s : Schema) (entries : List (Match Schema)) : Schema :=
  s.updateForm fun
    | .alternatives form => .alternatives { form with entries }
    | form => form

theorem Schema.node_withEntries {s : Schema} {form : AlternativesForm Schema}
    (hform : s.node.form = .alternatives form) (entries : List (Match Schema)) :
    (s.withEntries entries).node = { s.node with form := .alternatives { form with entries } } := by
  unfold withEntries updateForm update
  dsimp only
  rw [hform]

/-- The site with other entries in its schema. -/
def Site.withEntries (site : Site) (entries : List (Match Schema)) : Site :=
  { site with schema := site.schema.withEntries entries }

section Replaced

variable {check : Check} {site : Site} {form : AlternativesForm Schema}
  {entries : List (Match Schema)}

theorem AlternativesForm.tryEntries_withEntries (value : Value) (tried : List (Match Schema))
    (failures : List (List Report)) :
    { form with entries }.tryEntries check (site.withEntries entries) value failures tried =
      form.tryEntries check site value failures tried := by
  induction tried generalizing failures with
  | nil => rfl
  | cons entry rest ih =>
    cases entry with
    | attempt schema =>
      unfold tryEntries
      refine bind_congr fun outcome => ?_
      rw [ih]
    | conditional condition cases otherwise =>
      rw [tryEntries_conditional, tryEntries_conditional, ih,
        pickCase_congr site (site.withEntries entries) rfl rfl]
      rfl

theorem Site.applyRule_withEntries (hform : site.node.form = .alternatives form) (value : Value)
    (rule : Rule Schema) :
    (site.withEntries entries).applyRule check value rule = site.applyRule check value rule := by
  have hnode := Schema.node_withEntries hform entries
  unfold Site.applyRule Site.typeRule Node.kind
  rw [show (site.withEntries entries).node = _ from hnode, hform]
  rfl

/-- Entries that come to the same make one node of both. -/
theorem Site.run_withEntries (site : Site) (hform : site.node.form = .alternatives form)
    (h : ∀ value, form.tryEntries check site value [] entries =
      form.tryEntries check site value [] form.entries) :
    (site.withEntries entries).run check = site.run check := by
  have hnode : (site.withEntries entries).node =
      { site.node with form := .alternatives { form with entries } } :=
    Schema.node_withEntries hform entries
  have hconvert (value : Value) : (site.withEntries entries).convert value =
      site.convert value := by
    unfold Site.convert
    rw [hnode, hform]
    rfl
  have hbase (value : Value) : (site.withEntries entries).checkBase check value =
      site.checkBase check value := by
    unfold Site.checkBase
    rw [hnode, hform]
    exact (AlternativesForm.tryEntries_withEntries value entries []).trans (h value)
  have hrules (rules : List (Rule Schema)) (value : Value) (reports : List Report) :
      (site.withEntries entries).applyRules check value reports rules =
      site.applyRules check value reports rules := by
    induction rules generalizing value reports with
    | nil => rfl
    | cons rule rest ih =>
      unfold Site.applyRules
      rw [applyRule_withEntries hform]
      simp only [ih]
      rfl
  -- nothing else in the run of a node looks at the form
  unfold Site.run Site.checkPresent Site.checkContent
  rw [hconvert]
  simp only [hbase, hrules]
  rfl

end Replaced

/-! ### Switches -/

/-- What is the same under one step more of any check is the same under every limit. -/
theorem Check.within_congr {env : Environment} {s t : Schema}
    (h : ∀ check value position prefs, Check.node env check t value position prefs =
      Check.node env check s value position prefs) (fuel : Nat) (value : Value)
        (position : Position)
    (prefs : Preferences) :
    Check.within env fuel t value position prefs =
      Check.within env fuel s value position prefs := by
  cases fuel with
  | zero => rfl
  | succ fuel => exact h (Check.within env fuel) value position prefs

namespace Schema

/-- What the context calls the kind of the value. -/
def kindTested : Condition Schema := .reference (.ofKey "$kind")

/-- Numbers under one kind, texts under another, and truth values otherwise. -/
def byKind : When where
  cases := [⟨some (any.valid [.literal (.string "n")]), some number⟩,
    ⟨some (any.valid [.literal (.string "t")]), some string⟩]
  otherwise := some boolean

/-- The cases as they are kept: a kind has to be there. -/
def kindCases : List (Case Schema) :=
  byKind.cases.map fun c => { c with test := c.test.map (·.withPresence .required) }

/-- Dates, or else what the kind asks for. -/
def dateOrKind : Schema :=
  ofForm
    (.alternatives { entries := [.attempt date, .conditional kindTested kindCases (some boolean)] })

/-- Alternatives in which a conditional is taken apart, into one conditional for each of its cases
with the branch for all else in the last one, come to the same. -/
theorem switch_is_chain {condition : Condition Schema} {cases : List (Case Schema)}
    {otherwise : Option Schema}
    {w : When} {wrap : Schema → Except SchemaError Schema} {s : Schema}
    {form : AlternativesForm Schema} {before after : List (Match Schema)}
    (haccepted : conditionalEntry condition w wrap = .ok (.conditional condition cases otherwise))
    (hform : s.node.form = .alternatives form)
    (hentries : form.entries = before ++ .conditional condition cases otherwise :: after) :
    let t := s.withEntries (before ++ (Match.chain condition otherwise cases ++ after))
    (∀ env check value position prefs, Check.node env check t value position prefs =
      Check.node env check s value position prefs) ∧
    ∀ env value prefs renderer, t.validate env value prefs renderer =
      s.validate env value prefs renderer := by
  obtain ⟨cases', otherwise', heq, hall, -⟩ := conditionalEntry_cases haccepted
  obtain ⟨-, rfl, rfl⟩ := Match.conditional.inj heq
  -- there is a case, and each has a test, its own or that of the condition
  have hsome : cases ≠ [] := by
    rintro rfl
    have hnone := List.forall₂_nil_right_iff.mp hall
    exact When.casesOrOne_ne_nil hnone
  have htested : ∀ c ∈ cases, (AlternativesForm.testOf condition c).isSome = true := by
    obtain ⟨-, -, -, hdecides, -⟩ := conditionalEntry_ok haccepted
    intro c hc
    have hown := hdecides.2 c hc
    unfold AlternativesForm.testOf
    cases condition with
    | reference r =>
      obtain ⟨test, htest⟩ := Option.isSome_iff_exists.mp hown
      rw [htest]
      rfl
    | schema schema => cases c.test <;> rfl
  have hnode (env : Environment) (check : Check) (value : Value) (position : Position)
      (prefs : Preferences) :
      Check.node env check
      (s.withEntries (before ++ (Match.chain condition otherwise cases ++ after))) value position
        prefs = Check.node env check s value position prefs := by
    refine Site.run_withEntries
      ⟨env, s, position, prefs.merged s.node.prefs, value⟩ hform fun value => ?_
    rw [hentries]
    exact AlternativesForm.tryEntries_behind
      (AlternativesForm.tryEntries_chain hsome htested after) before []
  refine ⟨hnode, fun env value prefs renderer => ?_⟩
  unfold validate Schema.check
  rw [Check.within_congr (hnode env)]

theorem switch_is_chain_kinds :
    conditionalEntry kindTested byKind .ok =
      .ok (.conditional kindTested kindCases (some boolean)) ∧
    (dateOrKind.withEntries
      ([.attempt date] ++ (Match.chain kindTested (some boolean) kindCases ++ []))).validate {}
      (.bool true) { context := .object [("kind", .string "b")] } =
    dateOrKind.validate {} (.bool true) { context := .object [("kind", .string "b")] } := by
  have haccepted : conditionalEntry kindTested byKind .ok =
      .ok (.conditional kindTested kindCases (some boolean)) := rfl
  have hentries :
      ([.attempt date, .conditional kindTested kindCases (some boolean)] : List (Match Schema)) =
      [.attempt date] ++ .conditional kindTested kindCases (some boolean) :: [] := rfl
  exact ⟨haccepted, (switch_is_chain (s := dateOrKind) haccepted rfl hentries).2 ..⟩

end Schema

end Conform
