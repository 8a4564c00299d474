import Conform.Check.Alternatives
import Conform.Check.Array
import Conform.Check.Object
import Conform.Proofs.Runs

/-!
# Steps that only ask

Some steps of a check use no more of the checks inside than whether they pass. A conditional picks
its branch by them, a pattern of keys is about a key or not, a member is forbidden or not, and a
rule asks whether some member matches. So where two checks answer alike, one by a schema and the
other by its image under `f`, these steps go the same way in both. What makes the checks answer
alike is left to those who ask (`Mirror`, `OmissionObject`, `Truncation`).

The comparison is lockstep, and the two relations in it are parameters: of workshops, and of what is
given for a branch. A question to an inner check is asked under preferences that stop at the first
failure, whatever the preferences of the site are, so that the answer is the same even where the two
checks differ in how far they go. That is why the lemmas ask for no more than that answers agree.

A conditional asks its cases in order, and what is asked may be a schema held against the value or
against what a reference finds, so the schemas that are asked are listed with how they stand in the
conditional (`Case.forall_asked`, `Match.forall_conditional`).
-/

namespace Conform

variable {W : Workshop → Workshop → Prop} {check check' : Check} {f : Schema → Schema} {a b : Site}

/-! ### Schemas of conditionals -/

theorem Case.mem_test {c : Case Schema} {t : Schema} (h : t ∈ c.test) : t ∈ c.schemas :=
  List.mem_append_left _ (Option.mem_toList.mpr h)

theorem Case.mem_branch {c : Case Schema} {t : Schema} (h : t ∈ c.branch) : t ∈ c.schemas :=
  List.mem_append_right _ (Option.mem_toList.mpr h)

/-- What holds of the schemas of a case, and of the test of the condition, holds of
the test that is asked. -/
theorem Case.forall_asked {P : Schema → Prop} {c : Case Schema} {test : Option Schema}
    (hc : ∀ t ∈ c.schemas, P t) (htest : ∀ t ∈ test, P t) : ∀ t ∈ (c.test <|> test), P t := by
  intro t ht
  cases hown : c.test with
  | some own =>
    rw [hown] at ht
    obtain rfl := Option.some.inj ht
    exact hc own (Case.mem_test hown)
  | none =>
    rw [hown] at ht
    exact htest t ht

/-- What holds of the schemas of a conditional holds of its condition, of its cases and
of what is otherwise. -/
theorem Match.forall_conditional {P : Schema → Prop} {condition : Condition Schema}
    {cases : List (Case Schema)}
    {otherwise : Option Schema}
    (h : ∀ t ∈ (Match.conditional condition cases otherwise).schemas, P t) :
    (∀ t ∈ condition.schema?, P t) ∧ (∀ c ∈ cases, ∀ t ∈ c.schemas, P t) ∧ ∀ t ∈ otherwise, P t :=
  ⟨fun t ht => h t (List.mem_append_left _ (List.mem_append_left _ (Option.mem_toList.mpr ht))),
    fun c hc t ht =>
    h t (List.mem_append_left _ (List.mem_append_right _ (List.mem_flatMap.mpr ⟨c, hc, ht⟩))),
    fun t ht => h t (List.mem_append_right _ (Option.mem_toList.mpr ht))⟩

/-! ### Conditionals -/

namespace AlternativesForm

variable {P : Schema → Prop}
  (hasks : ∀ t, P t → ∀ input, Lockstep W Eq (check.passes t input a.position a.prefs)
    (check'.passes (f t) input b.position b.prefs))

include hasks

/-- The branch picked is the same but for the change, and it is one of those given. -/
theorem pickCase_lockstep {cases : List (Case Schema)} {test otherwise : Option Schema}
    (hcases : ∀ c ∈ cases, ∀ t ∈ c.schemas, P t) (htest : ∀ t ∈ test, P t)
    (hotherwise : ∀ t ∈ otherwise, P t) (input : Value) (held : Bool) :
    Lockstep W (fun x y => y = x.map f ∧ ∀ t ∈ x, P t)
      (pickCase check a input test otherwise held cases)
      (pickCase check' b input (test.map f) (otherwise.map f) held (cases.map (Case.map f))) := by
  induction cases generalizing held with
  | nil =>
    refine .pure ?_
    cases held with
    | true => exact ⟨rfl, fun t ht => nomatch ht⟩
    | false => exact ⟨rfl, hotherwise⟩
  | cons c rest ih =>
    have ih (held : Bool) := ih (fun c hc => hcases c (List.mem_cons_of_mem _ hc)) held
    have hc := hcases c (List.mem_cons_self ..)
    have hmap : (c.test.map f <|> test.map f) = (c.test <|> test).map f := by cases c.test <;> rfl
    rw [List.map_cons]
    unfold pickCase
    dsimp only [Case.map]
    rw [hmap]
    -- without a test the case is passed over
    cases hasked : c.test <|> test with
    | none => exact ih held
    | some schema =>
      refine (hasks schema (Case.forall_asked hc htest schema hasked) input).bind ?_
      -- both sites answer the test alike, and go on in the same way
      rintro passed _ rfl
      cases passed with
      | false => exact ih false
      | true =>
        cases hbranch : c.branch with
        | none => exact ih true
        | some branch => exact .pure ⟨rfl, fun t ht => hc t (Case.mem_branch (hbranch ▸ ht))⟩

theorem pick_lockstep {condition : Condition Schema} {cases : List (Case Schema)}
    {otherwise : Option Schema}
    (hin : ∀ t ∈ (Match.conditional condition cases otherwise).schemas, P t) (value : Value)
    (hreads : ∀ r ∈ condition.reference?, r.resolve value b.scope = r.resolve value a.scope) :
    Lockstep W (fun x y => y = x.map f ∧ ∀ t ∈ x, P t)
      (pick check a value condition cases otherwise)
      (pick check' b value (condition.map f) (cases.map (Case.map f)) (otherwise.map f)) := by
  obtain ⟨hcondition, hcases, hotherwise⟩ := Match.forall_conditional hin
  cases condition with
  | reference r =>
    unfold pick
    dsimp only [Condition.map]
    rw [hreads r rfl]
    exact pickCase_lockstep hasks hcases hcondition hotherwise _ false
  | schema s => exact pickCase_lockstep hasks hcases hcondition hotherwise value false

end AlternativesForm

/-! ### Keys and members -/

theorem ObjectForm.isAbout_lockstep {p q : Position} {key : String} {matcher : KeyMatcher Schema}
    (hasks : ∀ t ∈ matcher.schema?, Lockstep W Eq (check.passes t (.string key) p a.prefs)
      (check'.passes (f t) (.string key) q b.prefs)) :
    Lockstep W Eq (isAbout check a p key matcher) (isAbout check' b q key (matcher.map f)) := by
  cases matcher with
  | pattern pattern => exact .pure rfl
  | schema schema => exact hasks schema rfl

theorem ArrayForm.Ground.isExcluded_lockstep {g k : Ground} {i : Nat} {member : Value}
    {exclusions : List Schema}
    (hasks : ∀ s ∈ exclusions, Lockstep W Eq (check.passes s member (g.position i) g.site.prefs)
      (check'.passes (f s) member (k.position i) k.site.prefs)) :
    Lockstep W Eq (g.isExcluded check i member exclusions)
      (k.isExcluded check' i member (exclusions.map f)) := by
  induction exclusions with
  | nil => exact .pure rfl
  | cons s rest ih =>
    rw [List.map_cons]
    unfold isExcluded
    refine (hasks s (List.mem_cons_self ..)).bind ?_
    rintro passed _ rfl
    -- the first that the member passes ends the search
    cases passed with
    | true => exact .pure rfl
    | false => exact ih fun s hs => hasks s (List.mem_cons_of_mem _ hs)

theorem ArrayForm.anyMatches_lockstep {s s' : Schema} {parent : Value}
    (hasks : ∀ i member,
      Lockstep W Eq (check.passes s member (a.position.nest (.index i) parent) a.prefs)
      (check'.passes s' member (b.position.nest (.index i) parent) b.prefs)) (i : Nat)
      (members : List Value) :
    Lockstep W Eq (anyMatches check a s parent i members)
      (anyMatches check' b s' parent i members) := by
  induction members generalizing i with
  | nil => exact .pure rfl
  | cons member rest ih =>
    unfold anyMatches
    refine (hasks i member).bind ?_
    rintro passed _ rfl
    cases passed with
    | true => exact .pure rfl
    | false => exact ih (i + 1)

end Conform
