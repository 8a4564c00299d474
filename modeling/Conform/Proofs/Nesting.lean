import Conform.Check.Node
import Conform.Proofs.Runs

/-!
# How deep nodes may stand

A check is given a number of levels that nodes may nest, and comes to nothing where they do not
suffice. Levels that are not needed make no difference: what a check comes to under one limit, it
comes to under every larger one.

One run approximates another if the other comes to whatever it comes to (`Approximates`). This is
the order of partial results: a run that comes to nothing is below all others
(`Approximates.failure`), and a sequence of steps is monotone in each of them (`Approximates.bind`).
All steps of a node respect the relation: given a check of inner schemas that comes to more, a step
comes to more, and never to anything else. There is one lemma for each function that runs an inner
check, in the order in which the functions call each other, from a conditional that picks its branch
to the node; a loop over children, keys, members or entries is dealt with by induction on what it
still has to go through.

The check of a node is therefore monotone in the check of what is inside
(`Check.node_approximates`), and the statement about limits is an induction on their difference.
With it a claim about a check may name one limit that suffices and leave out which.

Main statements: `Check.within_approximates`, and that limits which suffice agree
(`Check.within_unique`).
-/

namespace Conform

/-- Whatever the first run comes to, the second one comes to as well, and
leaves the same workshop. -/
def Approximates {α : Type} (x y : Run α) : Prop :=
  ∀ w r, x.run w = some r → y.run w = some r

namespace Approximates

variable {α β : Type} {x y z : Run α}

/-- A run approximates itself. -/
theorem refl (x : Run α) : Approximates x x := fun _ _ h => h

/-- What approximates a run that approximates another approximates the other. -/
theorem trans (hxy : Approximates x y) (hyz : Approximates y z) : Approximates x z :=
  fun w r h => hyz w r (hxy w r h)

/-- What comes to nothing approximates everything: it is the least of runs. -/
theorem failure : Approximates Alternative.failure x := fun _ _ h => nomatch h

/-- Runs are approximated step by step: an earlier one that comes to something comes to the same. -/
theorem bind {f g : α → Run β} (hx : Approximates x y) (hf : ∀ a, Approximates (f a) (g a)) :
    Approximates (x >>= f) (y >>= g) := by
  intro w r hrun
  obtain ⟨a, w₁, hfirst, hrest⟩ := Runs.bind_some hrun
  rw [StateT.run_bind, hx w (a, w₁) hfirst]
  exact hf a w₁ r hrest

/-- Two runs that are approximated by one that comes to something come to the same. -/
theorem eq_of_run {w : Workshop} {r r' : α × Workshop} (hxy : Approximates x y)
    (hx : x.run w = some r) (hy : y.run w = some r') : r = r' :=
  Option.some.inj ((hxy w r hx).symm.trans hy)

end Approximates

/-- The second check comes to whatever the first one comes to. -/
def Check.Approximates (check check' : Check) : Prop :=
  ∀ schema value position prefs,
    Conform.Approximates (check schema value position prefs) (check' schema value position prefs)

section Steps

variable {check check' : Check} (h : check.Approximates check')

include h

/-- Whether an inner schema passes is known as soon as its check comes to something. -/
theorem Check.Approximates.passes (schema : Schema) (value : Value) (position : Position)
    (prefs : Preferences) :
    Conform.Approximates (check.passes schema value position prefs)
      (check'.passes schema value position prefs) :=
  (h schema value position _).bind fun _ => .refl _

/-! ### Alternatives -/

namespace AlternativesForm

/-- The cases of a conditional are asked in turn. -/
theorem pickCase_approximates (site : Site) (input : Value) (test otherwise : Option Schema)
    (cases : List (Case Schema)) (held : Bool) :
    Approximates (pickCase check site input test otherwise held cases)
      (pickCase check' site input test otherwise held cases) := by
  induction cases generalizing held with
  | nil => exact .refl _
  | cons c rest ih =>
    unfold pickCase
    split
    · exact ih held
    · refine (h.passes _ input site.position site.prefs).bind fun passed => ?_
      split
      · exact .refl _
      · exact ih _

/-- A conditional picks the same branch if it picks one. -/
theorem pick_approximates (site : Site) (value : Value) (condition : Condition Schema)
    (cases : List (Case Schema)) (otherwise : Option Schema) :
    Approximates (pick check site value condition cases otherwise)
      (pick check' site value condition cases otherwise) := by
  cases condition with
  | reference r => exact pickCase_approximates h site _ none otherwise cases false
  | schema test => exact pickCase_approximates h site value (some test) otherwise cases false

/-- Entries are tried in turn, by induction on those still to be tried. -/
theorem tryEntries_approximates (form : AlternativesForm Schema) (site : Site) (value : Value)
    (entries : List (Match Schema)) (failures : List (List Report)) :
    Approximates (form.tryEntries check site value failures entries)
      (form.tryEntries check' site value failures entries) := by
  induction entries generalizing failures with
  | nil =>
    unfold tryEntries
    split
    · exact h _ value site.position site.prefs
    · exact .refl _
  | cons entry rest ih =>
    cases entry with
    | attempt schema =>
      unfold tryEntries
      refine (h schema value site.position site.prefs).bind fun outcome => ?_
      split
      · exact .refl _
      · exact ih _
    | conditional condition cases otherwise =>
      unfold tryEntries
      refine (pick_approximates h site value condition cases otherwise).bind fun picked => ?_
      cases picked with
      | some branch => exact h branch value site.position site.prefs
      | none => exact ih failures

end AlternativesForm

/-! ### Objects -/

omit h in
/-- A loop approximates another if its turns do. -/
theorem ObjectPass.forEach_approximates {α : Type} {step step' : ObjectPass → α → Run ObjectPass}
    (hstep : ∀ p item, Approximates (step p item) (step' p item))
    (items : List α) (p : ObjectPass) :
    Approximates (p.forEach step items) (p.forEach step' items) := by
  induction items generalizing p with
  | nil => exact .refl _
  | cons item rest ih =>
    unfold ObjectPass.forEach
    split
    · exact .refl _
    · exact (hstep p item).bind fun next => ih next

namespace ObjectForm

/-- Children are checked in their order, one turn each. -/
theorem checkChildren_approximates (form : ObjectForm Schema) (site : Site) (p : ObjectPass) :
    Approximates (form.checkChildren check site p) (form.checkChildren check' site p) := by
  have hchild (p : ObjectPass) (child : String × Schema) :
      Approximates (checkChild check site p child) (checkChild check' site p child) :=
    (h child.2 _ _ site.prefs).bind fun _ => .refl _
  exact (ObjectPass.forEach_approximates hchild form.orderedChildren p).bind fun _ => .refl _

/-- Whether a pattern is about a key may be asked of a schema. -/
theorem isAbout_approximates (site : Site) (position : Position) (key : String)
    (matcher : KeyMatcher Schema) :
    Approximates (isAbout check site position key matcher)
      (isAbout check' site position key matcher) := by
  cases matcher with
  | pattern pattern => exact .refl _
  | schema schema => exact h.passes schema _ position site.prefs

/-- Patterns are tried on a key in turn. -/
theorem checkPatterns_approximates (site : Site) (p : ObjectPass) (key : String)
    (patterns : List (KeyPattern Schema)) :
    Approximates (checkPatterns check site p key patterns)
      (checkPatterns check' site p key patterns) := by
  induction patterns with
  | nil => exact .refl _
  | cons pattern rest ih =>
    unfold checkPatterns
    refine (isAbout_approximates h site _ key pattern.matcher).bind fun about => ?_
    split
    · exact (h pattern.schema _ _ site.prefs).bind fun _ => .refl _
    · exact ih

/-- Undeclared keys are gone through in turn. -/
theorem checkUndeclared_approximates (form : ObjectForm Schema) (site : Site) (keys : List String)
    (p : ObjectPass) (left : List String) :
    Approximates (form.checkUndeclared check site p left keys)
      (form.checkUndeclared check' site p left keys) := by
  induction keys generalizing p left with
  | nil => exact .refl _
  | cons key rest ih =>
    unfold checkUndeclared
    split
    · exact .refl _
    · refine (checkPatterns_approximates h site p key form.patterns).bind fun found => ?_
      cases found with
      | some next => exact ih next left
      | none => exact ih p _

/-- The phases of an object follow each other. -/
theorem checkMembers_approximates (form : ObjectForm Schema) (site : Site)
    (members : List (String × Value)) :
    Approximates (form.checkMembers check site members)
      (form.checkMembers check' site members) := by
  unfold checkMembers
  dsimp only
  split
  · exact .refl _
  refine (checkChildren_approximates h form site _).bind fun p => ?_
  split
  · exact .refl _
  refine Approximates.bind ?_ fun _ => .refl _
  exact (checkUndeclared_approximates h form site _ p []).bind fun _ => .refl _

theorem base_approximates (form : ObjectForm Schema) (site : Site) (value : Value) :
    Approximates (form.base check site value) (form.base check' site value) := by
  cases value with
  | object members =>
    unfold base
    dsimp only
    split
    · exact .refl _
    · exact (checkMembers_approximates h form site members).bind fun _ => .refl _
  | _ => exact .refl _

/-- Of the rules of objects only assertions check a schema. -/
theorem rule_approximates (site : Site) (name : String) (given : Given) (value : Value) :
    Approximates (rule check site name given value) (rule check' site name given value) := by
  have hassert : Approximates (assertRule check site given value)
      (assertRule check' site given value) := by
    unfold assertRule
    split
    · exact (h.passes _ _ _ _).bind fun _ => .refl _
    · exact .refl _
  unfold rule
  dsimp only
  split
  · exact .refl _
  · exact .refl _
  · exact .refl _
  · exact hassert
  · exact .refl _

end ObjectForm

/-! ### Arrays -/

namespace ArrayForm

namespace Ground

variable (g : Ground)

/-- Forbidden items are asked in turn. -/
theorem isExcluded_approximates (i : Nat) (member : Value) (exclusions : List Schema) :
    Approximates (g.isExcluded check i member exclusions)
      (g.isExcluded check' i member exclusions) := by
  induction exclusions with
  | nil => exact .refl _
  | cons exclusion rest ih =>
    unfold isExcluded
    refine (h.passes exclusion member _ _).bind fun passed => ?_
    split
    · exact .refl _
    · exact ih

/-- Required items are tried in turn, or their failures recalled. -/
theorem tryRequireds_approximates (i : Nat) (member : Value)
    (requireds before : List (Nat × Schema)) (failed : List (Nat × Outcome)) :
    Approximates (g.tryRequireds check i member before failed requireds)
      (g.tryRequireds check' i member before failed requireds) := by
  induction requireds generalizing before failed with
  | nil => exact .refl _
  | cons required rest ih =>
    unfold tryRequireds
    refine (h required.2 member _ _).bind fun outcome => ?_
    split
    · exact .refl _
    · exact ih _ _

/-- The other items are tried in turn. -/
theorem tryInclusions_approximates (i : Nat) (member : Value) (failed : List (Nat × Outcome))
    (candidates : List (Option Nat × Schema)) :
    Approximates (g.tryInclusions check i member failed candidates)
      (g.tryInclusions check' i member failed candidates) := by
  induction candidates with
  | nil => exact .refl _
  | cons candidate rest ih =>
    have houtcome : Approximates (g.outcome check i member failed candidate.1 candidate.2)
        (g.outcome check' i member failed candidate.1 candidate.2) := by
      unfold outcome
      split
      · exact .refl _
      · exact h _ member _ _
    unfold tryInclusions
    refine houtcome.bind fun outcome => ?_
    split
    · exact .refl _
    · split
      · exact .refl _
      · exact ih

theorem placeMember_approximates (walk : Walk) (i : Nat) (member : Value) :
    Approximates (g.placeMember check walk i member) (g.placeMember check' walk i member) := by
  unfold placeMember
  refine (tryRequireds_approximates h g i member _ _ _).bind fun tried => ?_
  cases tried with
  | matched outcome left => exact .refl _
  | failed failed =>
    dsimp only
    unfold includeMember
    dsimp only
    split
    · exact .refl _
    · exact (tryInclusions_approximates h g i member failed _).bind fun _ => .refl _

/-- One member goes through these parts of a step. -/
theorem step_approximates (walk : Walk) (i : Nat) (member : Value) (rest : List Value) :
    Approximates (g.step check walk i member rest) (g.step check' walk i member rest) := by
  have hplace := placeMember_approximates h g walk i member
  unfold step
  dsimp only
  split
  · exact .refl _
  refine (isExcluded_approximates h g i member _).bind fun excluded => ?_
  split
  · exact .refl _
  split
  · exact hplace
  split
  · exact (h _ member _ _).bind fun _ => .refl _
  · split
    · exact .refl _
    · exact hplace

/-- The walk takes a step for each member. -/
theorem walk_approximates (members : List Value) (walk : Walk) (i : Nat) :
    Approximates (g.walk check walk i members) (g.walk check' walk i members) := by
  induction members generalizing walk i with
  | nil => exact .refl _
  | cons member rest ih =>
    unfold Ground.walk
    refine (step_approximates h g walk i member rest).bind fun step => ?_
    cases step with
    | next walk => exact ih walk (i + 1)
    | finish walk => exact .refl _
    | abort reports => exact .refl _

/-- Places left are asked for defaults from the last one on. -/
theorem defaultsFromEnd_approximates (size : Nat) (parent : Value) (places : List (Schema × Nat)) :
    Approximates (g.defaultsFromEnd check size parent places)
      (g.defaultsFromEnd check' size parent places) := by
  induction places with
  | nil => exact .refl _
  | cons place before ih =>
    unfold defaultsFromEnd
    exact (h place.1 .undefined _ _).bind fun _ => ih.bind fun _ => .refl _

theorem close_approximates (walk : Walk) :
    Approximates (g.close check walk) (g.close check' walk) := by
  unfold close
  dsimp only
  split
  · exact .refl _
  · refine Approximates.bind ?_ fun _ => .refl _
    exact (defaultsFromEnd_approximates h g _ _ _).bind fun _ => .refl _

end Ground

theorem base_approximates (form : ArrayForm Schema) (site : Site) (value : Value) :
    Approximates (form.base check site value) (form.base check' site value) := by
  have hmembers (members : List Value) :
      Approximates (form.checkMembers check site members)
      (form.checkMembers check' site members) := by
    unfold checkMembers
    refine (Ground.walk_approximates h _ members _ 0).bind fun ended => ?_
    cases ended with
    | ok walk => exact Ground.close_approximates h _ walk
    | error reports => exact .refl _
  unfold base
  split
  · exact .refl _
  · split
    · exact (hmembers _).bind fun _ => .refl _
    · exact .refl _

/-- Members are held against a schema until one matches. -/
theorem anyMatches_approximates (site : Site) (schema : Schema) (parent : Value)
    (members : List Value) (i : Nat) :
    Approximates (anyMatches check site schema parent i members)
      (anyMatches check' site schema parent i members) := by
  induction members generalizing i with
  | nil => exact .refl _
  | cons member rest ih =>
    unfold anyMatches
    refine (h.passes schema member _ _).bind fun passed => ?_
    split
    · exact .refl _
    · exact ih (i + 1)

/-- Of the rules of arrays only `has` checks a schema. -/
theorem rule_approximates (site : Site) (name : String) (given : Given) (value : Value) :
    Approximates (rule check site name given value) (rule check' site name given value) := by
  have hhas : Approximates (hasRule check site given value) (hasRule check' site given value) := by
    unfold hasRule
    split
    · exact (anyMatches_approximates h site _ _ _ 0).bind fun _ => .refl _
    · exact .refl _
  unfold rule
  dsimp only
  split
  · exact .refl _
  · exact .refl _
  · exact .refl _
  · exact .refl _
  · exact hhas
  · exact .refl _

end ArrayForm

/-! ### The node -/

namespace Site

variable (site : Site)

/-- What counts as missing is asked of a schema. -/
theorem dropEmpty_approximates (value : Value) :
    Approximates (site.dropEmpty check value) (site.dropEmpty check' value) := by
  unfold dropEmpty
  split
  · split
    · exact (h.passes _ value _ _).bind fun _ => .refl _
    · exact .refl _
  · exact .refl _

/-- The check of the type: lazy nodes make their schema first, and all others go by their form. -/
theorem checkBase_approximates (value : Value) :
    Approximates (site.checkBase check value) (site.checkBase check' value) := by
  unfold checkBase
  cases site.node.form with
  | alternatives form =>
    exact AlternativesForm.tryEntries_approximates h form site value form.entries []
  | array form => exact ArrayForm.base_approximates h form site value
  | object form => exact ObjectForm.base_approximates h form site value
  | lazy form =>
    exact (Approximates.refl (site.env.force form)).bind fun schema =>
      h schema value site.position site.prefs
  | _ => exact .refl _

theorem applyRule_approximates (value : Value) (rule : Rule Schema) :
    Approximates (site.applyRule check value rule) (site.applyRule check' value rule) := by
  have htype (name : String) (given : Given) :
      Approximates (site.typeRule check name given value)
      (site.typeRule check' name given value) := by
    unfold typeRule
    cases site.node.form with
    | array form => exact ArrayForm.rule_approximates h site name given value
    | object form => exact ObjectForm.rule_approximates h site name given value
    | _ => exact .refl _
  unfold applyRule
  split
  · exact .refl _
  split
  · exact .refl _
  split
  · exact .refl _
  · exact htype _ _

/-- Rules are applied in turn, on what the one before has left. -/
theorem applyRules_approximates (rules : List (Rule Schema)) (value : Value)
    (reports : List Report) :
    Approximates (site.applyRules check value reports rules)
      (site.applyRules check' value reports rules) := by
  induction rules generalizing value reports with
  | nil => exact .refl _
  | cons rule rest ih =>
    unfold applyRules
    refine (applyRule_approximates h site value rule).bind fun result => ?_
    cases result with
    | ok next => exact ih next reports
    | error report =>
      dsimp only
      split
      · exact .refl _
      · exact ih value _

theorem checkContent_approximates (value : Value) (reports : List Report) :
    Approximates (site.checkContent check value reports)
      (site.checkContent check' value reports) := by
  unfold checkContent
  refine (checkBase_approximates h site value).bind fun base => ?_
  split
  · exact .refl _
  · exact (applyRules_approximates h site _ base.value reports).bind fun _ => .refl _

/-- A whole node is put together from its steps. -/
theorem run_approximates : Approximates (site.run check) (site.run check') := by
  have hpresent (value : Value) :
      Approximates (site.checkPresent check value) (site.checkPresent check' value) := by
    unfold checkPresent
    split
    · exact .refl _
    split
    · exact .refl _
    · exact checkContent_approximates h site value _
  unfold run
  split
  · exact .refl _
  refine (dropEmpty_approximates h site _).bind fun value => ?_
  split
  · exact .refl _
  · exact hpresent _

end Site

end Steps

/-! ### Limits -/

namespace Check

variable {env : Environment}

/-- Given inner checks that approximate others, so does the check of a node. -/
theorem node_approximates {check check' : Check} (h : check.Approximates check') :
    (Check.node env check).Approximates (Check.node env check') :=
  fun _ _ _ _ => Site.run_approximates h _

/-- One level more approximates: by induction on the levels, with
`node_approximates` as the step. -/
theorem within_succ (fuel : Nat) :
    (Check.within env fuel).Approximates (Check.within env (fuel + 1)) := by
  induction fuel with
  | zero => exact fun _ _ _ _ => .failure
  | succ fuel ih => exact node_approximates ih

/-- What a check comes to, it comes to under every larger limit. -/
theorem within_approximates {fuel more : Nat} (h : fuel ≤ more) :
    (Check.within env fuel).Approximates (Check.within env more) := by
  intro schema value position prefs
  induction h with
  | refl => exact .refl _
  | step _ ih => exact ih.trans (within_succ _ schema value position prefs)

/-- Whatever the limits, checks that come to something come to the same. -/
theorem within_unique {fuel other : Nat} {schema : Schema} {value : Value} {position : Position}
    {prefs : Preferences} {w : Workshop} {r r' : Outcome × Workshop}
    (h : (Check.within env fuel schema value position prefs).run w = some r)
    (h' : (Check.within env other schema value position prefs).run w = some r') : r = r' := by
  rcases Nat.le_total fuel other with hle | hle
  · exact (within_approximates hle schema value position prefs).eq_of_run h h'
  · exact ((within_approximates hle schema value position prefs).eq_of_run h' h).symm

end Check

end Conform
