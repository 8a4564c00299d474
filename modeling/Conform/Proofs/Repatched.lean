import Conform.Proofs.Entries
import Conform.Proofs.ReorderedObject

/-!
# Nodes with another patch

The steps of a node read its preferences from the site, where the patch of the node is applied
already. What patch stands in the node makes no difference to them. So a node under its patch is the
node without one, under the preferences that the patch leads to.

Preferences come to a node in two ways: those of the caller, over which the patch of the node is
laid before anything is done. After that every step reads the preferences of the site. So the
patch may be replaced by any other in the node of a site, if the preferences of the site stay as
they are (`Site.repatched`); each step is the same by definition, or by unfolding the few
functions that take the site apart.

The functions that recur over the members of an array or over the entries of alternatives are shown
to be the same by induction on these. All others are the same at once.

Main statement: `Check.node_repatched`.
-/

namespace Conform

/-- The schema with another patch, or with none. -/
def Schema.repatched (s : Schema) (patch : Option PreferencesPatch) : Schema :=
  s.update fun n => { n with prefs := patch }

/-- The site with another patch in its schema. The preferences stay as they are. -/
def Site.repatched (site : Site) (patch : Option PreferencesPatch) : Site :=
    site.under (site.schema.repatched patch)

variable {check : Check} {site : Site} {patch : Option PreferencesPatch}

/-! ### Members of arrays -/

namespace ArrayForm

namespace Ground

variable {g : Ground}

def repatched (g : Ground) (patch : Option PreferencesPatch) : Ground :=
    { g with site := g.site.repatched patch }

theorem isExcluded_repatched (i : Nat) (member : Value) (exclusions : List Schema) :
    (g.repatched patch).isExcluded check i member exclusions =
      g.isExcluded check i member exclusions := by
  induction exclusions with
  | nil => rfl
  | cons exclusion rest ih =>
    rw [isExcluded, isExcluded, ih]
    rfl

theorem tryRequireds_repatched (i : Nat) (member : Value) (before : List (Nat × Schema))
    (failed : List (Nat × Outcome)) (requireds : List (Nat × Schema)) :
    (g.repatched patch).tryRequireds check i member before failed requireds =
      g.tryRequireds check i member before failed requireds := by
  induction requireds generalizing before failed with
  | nil => rfl
  | cons required rest ih =>
    unfold tryRequireds
    simp only [ih]
    rfl

theorem tryInclusions_repatched (i : Nat) (member : Value) (failed : List (Nat × Outcome))
    (inclusions : List (Option Nat × Schema)) :
    (g.repatched patch).tryInclusions check i member failed inclusions =
      g.tryInclusions check i member failed inclusions := by
  induction inclusions with
  | nil => rfl
  | cons inclusion rest ih =>
    rw [tryInclusions, tryInclusions, ih]
    rfl

theorem step_repatched (walk : Walk) (i : Nat) (member : Value) (rest : List Value) :
    (g.repatched patch).step check walk i member rest = g.step check walk i member rest := by
  have hinclude (walk : Walk) (failed : List (Nat × Outcome)) :
      (g.repatched patch).includeMember check walk i member failed =
      g.includeMember check walk i member failed := by
    unfold includeMember
    simp only [tryInclusions_repatched]
    rfl
  have hplace (walk : Walk) :
      (g.repatched patch).placeMember check walk i member = g.placeMember check walk i member := by
    unfold placeMember
    simp only [tryRequireds_repatched, hinclude]
    rfl
  unfold step
  simp only [isExcluded_repatched, hplace]
  rfl

theorem walk_repatched (walk : Walk) (i : Nat) (members : List Value) :
    (g.repatched patch).walk check walk i members = g.walk check walk i members := by
  induction members generalizing walk i with
  | nil => rfl
  | cons member rest ih =>
    unfold Ground.walk
    simp only [step_repatched, ih]

theorem close_repatched (walk : Walk) :
    (g.repatched patch).close check walk = g.close check walk := by
  have hdefaults (size : Nat) (parent : Value) (places : List (Schema × Nat)) :
      (g.repatched patch).defaultsFromEnd check size parent places =
      g.defaultsFromEnd check size parent places := by
    induction places with
    | nil => rfl
    | cons place before ih =>
      rw [defaultsFromEnd, defaultsFromEnd, ih]
      rfl
  unfold close defaults
  simp only [hdefaults]
  rfl

end Ground

theorem base_repatched (form : ArrayForm Schema) (value : Value) :
    form.base check (site.repatched patch) value = form.base check site value := by
  have hmembers (members : List Value) :
      form.checkMembers check (site.repatched patch) members =
      form.checkMembers check site members := by
    have hground : (⟨site.repatched patch, form, .array members⟩ : Ground) =
        (⟨site, form, .array members⟩ : Ground).repatched patch := rfl
    unfold checkMembers
    simp only [hground, Ground.walk_repatched, Ground.close_repatched]
  unfold base
  simp only [hmembers]
  rfl

theorem rule_repatched (name : String) (given : Given) (value : Value) :
    rule check (site.repatched patch) name given value = rule check site name given value := by
  have hany (schema : Schema) (parent : Value) (i : Nat) (members : List Value) :
      anyMatches check (site.repatched patch) schema parent i members =
      anyMatches check site schema parent i members := by
    induction members generalizing i with
    | nil => rfl
    | cons member rest ih =>
      rw [anyMatches, anyMatches, ih]
      rfl
  have hhas : hasRule check (site.repatched patch) given value =
      hasRule check site given value := by
    unfold hasRule
    simp only [hany]
    rfl
  unfold rule
  simp only [hhas]
  rfl

end ArrayForm

/-! ### Entries of alternatives -/

theorem AlternativesForm.tryEntries_repatched {form : AlternativesForm Schema} (value : Value)
    (failures : List (List Report)) (entries : List (Match Schema)) :
    form.tryEntries check (site.repatched patch) value failures entries =
      form.tryEntries check site value failures entries := by
  induction entries generalizing failures with
  | nil => rfl
  | cons entry rest ih =>
    cases entry with
    | attempt schema =>
      unfold tryEntries
      simp only [ih]
      rfl
    | conditional condition cases otherwise =>
      -- what is picked depends on the position and the preferences only
      rw [tryEntries_conditional, tryEntries_conditional, ih,
        pickCase_congr site (site.repatched patch) rfl rfl]
      rfl

/-! ### Steps of a node -/

namespace Site

theorem checkBase_repatched (value : Value) :
    (site.repatched patch).checkBase check value = site.checkBase check value := by
  have hform : (site.repatched patch).node.form = site.node.form := rfl
  unfold checkBase
  rw [hform]
  cases site.node.form with
  | alternatives form => exact AlternativesForm.tryEntries_repatched value [] form.entries
  | array form => exact ArrayForm.base_repatched form value
  | object form =>
    show form.base check (site.under _) value = form.base check site value
    unfold ObjectForm.base
    simp only [ObjectForm.checkMembers_under (t := site.schema.repatched patch) rfl]
    rfl
  | _ => rfl

theorem applyRules_repatched (value : Value) (reports : List Report) (rules : List (Rule Schema)) :
    (site.repatched patch).applyRules check value reports rules =
      site.applyRules check value reports rules := by
  have htype (name : String) (given : Given) (value : Value) :
      (site.repatched patch).typeRule check name given value =
      site.typeRule check name given value := by
    have hform : (site.repatched patch).node.form = site.node.form := rfl
    unfold typeRule
    rw [hform]
    cases site.node.form with
    | array => exact ArrayForm.rule_repatched name given value
    | object => exact congrFun (congrFun (congrFun (ObjectForm.rule_under rfl) name) given) value
    | _ => rfl
  have hrule (value : Value) (rule : Rule Schema) :
      (site.repatched patch).applyRule check value rule = site.applyRule check value rule := by
    unfold applyRule
    simp only [htype]
    rfl
  induction rules generalizing value reports with
  | nil => rfl
  | cons rule rest ih =>
    unfold applyRules
    simp only [hrule, ih]
    rfl

/-- The patch that stands in the node bears on no step. -/
theorem run_repatched : (site.repatched patch).run check = site.run check := by
  unfold run checkPresent checkContent
  simp only [checkBase_repatched, applyRules_repatched]
  rfl

end Site

/-- A node is checked like the node without a patch, under the preferences with the patch. -/
theorem Check.node_repatched (env : Environment) (check : Check) (s : Schema) (value : Value)
    (position : Position) (prefs : Preferences) :
    Check.node env check s value position prefs =
      Check.node env check (s.repatched none) value position (prefs.merged s.node.prefs) := by
  let site : Site := ⟨env, s, position, prefs.merged s.node.prefs, value⟩
  have hrun : (site.repatched none).run check = site.run check := Site.run_repatched
  exact hrun.symm

end Conform
