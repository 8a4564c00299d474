import Conform.Proofs.Truncation

/-!
# What workshops keep

Lazy nodes come to schemas that a workshop keeps, so what is known of every schema taking part in a
check has to be known of what the workshop keeps as well (`Workshop.Keeps`). A run `Leaves` a result
with some property if it ends with one and the workshop is still such. Generators need not make the
same schema always, unlike where two runs are compared.

A lazy node that makes its schema once looks into the workshop first, and finds there what an
earlier check has made. So a property that holds throughout a schema would be lost at the first lazy
node, if it were not known of the workshop. `Leaves` is a Hoare triple for runs with that as an
invariant: from a workshop that keeps such schemas a run comes to a result with some property and
leaves a workshop that keeps such schemas, or it comes to nothing.

It is used with binding and returning alone. Steps that only ask whether some schema accepts a
value, of which the outcome is not looked at, have lemmas here, because they occur in every
development that follows one property through a check.

Main statements: `Leaves.bind` and `Environment.force_leaves`.
-/

namespace Conform

/-- The property holds throughout all schemas that the workshop keeps. -/
def Workshop.Keeps (env : Environment) (P : Schema → Prop) (w : Workshop) : Prop :=
  ∀ form t, (form, t) ∈ w.cells → t.Throughout env P

theorem Workshop.keeps_new (env : Environment) (P : Schema → Prop) : Workshop.Keeps env P {} :=
  fun _ _ h => absurd h List.not_mem_nil

/-- If the run comes to an end, the result is such, and the workshop keeps what it may. -/
def Leaves (env : Environment) (P : Schema → Prop) {α : Type} (Q : α → Prop) (x : Run α) : Prop :=
  ∀ w a w₁, w.Keeps env P → x.run w = some (a, w₁) → Q a ∧ w₁.Keeps env P

namespace Leaves

variable {env : Environment} {P : Schema → Prop} {α β : Type} {Q : α → Prop} {x : Run α}

theorem pure {a : α} (h : Q a) : Leaves env P Q (Pure.pure a) := by
  intro w b w₁ hw hrun
  obtain ⟨rfl, rfl⟩ := Runs.pure_some hrun
  exact ⟨h, hw⟩

theorem failure : Leaves env P Q Alternative.failure :=
  fun _ _ _ _ hrun => nomatch hrun

theorem bind {R : β → Prop} {f : α → Run β} (hx : Leaves env P Q x)
    (hf : ∀ a, Q a → Leaves env P R (f a)) : Leaves env P R (x >>= f) := by
  intro w b w₁ hw hrun
  obtain ⟨a, w₂, hfirst, hrest⟩ := Runs.bind_some hrun
  obtain ⟨ha, hkept⟩ := hx w a w₂ hw hfirst
  exact hf a ha w₂ b w₁ hkept hrest

theorem mono {R : α → Prop} (hx : Leaves env P Q x) (himp : ∀ a, Q a → R a) : Leaves env P R x := by
  intro w a w₁ hw hrun
  obtain ⟨ha, hkept⟩ := hx w a w₁ hw hrun
  exact ⟨himp a ha, hkept⟩

end Leaves

namespace Environment

variable {env : Environment} {P : Schema → Prop}

/-- What a lazy node comes to is as all else that takes part. -/
theorem force_leaves (hP : ∀ t u : Schema, u.erase true = t.erase true → P t → P u) {s : Schema}
    (hs : s.Throughout env P) {form : LazyForm} (hform : s.node.form = .lazy form) :
    Leaves env P (fun t => t.Throughout env P) (env.force form) := by
  intro w t w₁ hw hrun
  obtain ⟨hmade, hcells⟩ := force_made hrun
  have ht : t.Throughout env P := by
    rcases hmade with hkept | ⟨used, hmade⟩
    · exact hw form t hkept
    · exact (hs.of_occurs (.made .self hform)).congr hP hmade
  refine ⟨ht, fun other v hv => ?_⟩
  rcases hcells (other, v) hv with heq | hold
  · obtain ⟨rfl, rfl⟩ := Prod.mk.inj heq
    exact ht
  · exact hw other v hold

end Environment

/-! ### Steps that only ask -/

section

variable {env : Environment} {P : Schema → Prop} {check : Check}

theorem ObjectForm.leaves_isAbout {site : Site} {position : Position} {key : String}
    {matcher : KeyMatcher Schema}
    (hasks : ∀ t ∈ matcher.schema?,
      Leaves env P (fun _ => True) (check.passes t (.string key) position site.prefs)) :
    Leaves env P (fun _ => True) (isAbout check site position key matcher) := by
  cases matcher with
  | pattern pattern => exact .pure trivial
  | schema schema => exact hasks schema rfl

/-- The first pattern that is about a key gives what its check gives, and without one
there is nothing to give. -/
theorem ObjectForm.leaves_checkPatterns {site : Site} {Q : ObjectPass → Prop}
    {p : ObjectPass} {key : String} {patterns : List (KeyPattern Schema)}
    (hin : ∀ pattern ∈ patterns, ∀ t ∈ pattern.schemas, (1, t) ∈ site.schema.visited)
    (hasks : ∀ t, (1, t) ∈ site.schema.visited → ∀ value position,
      Leaves env P (fun _ => True) (check.passes t value position site.prefs))
    (hgives : ∀ t, (1, t) ∈ site.schema.visited → ∀ position,
      Leaves env P (fun o => Q (takeMatched site p key o))
        (check t (p.member key) position site.prefs)) :
    Leaves env P (fun next => ∀ p' ∈ next, Q p') (checkPatterns check site p key patterns) := by
  induction patterns with
  | nil => exact .pure fun _ hnext => nomatch hnext
  | cons pattern rest ih =>
    have ih := ih fun pattern hpattern => hin pattern (List.mem_cons_of_mem _ hpattern)
    have hhead := hin pattern (List.mem_cons_self ..)
    have hmatcher : ∀ t ∈ pattern.matcher.schema?, (1, t) ∈ site.schema.visited := fun t ht =>
      hhead t (List.mem_append_left _ (Option.mem_toList.mpr ht))
    have hschema := hhead pattern.schema (List.mem_append_right _ (List.mem_singleton_self _))
    unfold checkPatterns
    refine (leaves_isAbout fun t ht => hasks t (hmatcher t ht) _ _).bind fun about _ => ?_
    cases about with
    | false => exact ih
    | true =>
      refine (hgives pattern.schema hschema _).bind fun o ho => .pure fun p' hp' => ?_
      obtain rfl := Option.some.inj hp'
      exact ho

theorem ArrayForm.Ground.leaves_isExcluded {g : Ground} {i : Nat} {member : Value}
    {exclusions : List Schema}
    (hasks : ∀ s ∈ exclusions,
      Leaves env P (fun _ => True) (check.passes s member (g.position i) g.site.prefs)) :
    Leaves env P (fun _ => True) (g.isExcluded check i member exclusions) := by
  induction exclusions with
  | nil => exact .pure trivial
  | cons exclusion rest ih =>
    unfold isExcluded
    refine (hasks exclusion (List.mem_cons_self ..)).bind fun excluded _ => ?_
    cases excluded with
    | true => exact .pure trivial
    | false => exact ih fun s hs => hasks s (List.mem_cons_of_mem _ hs)

theorem ArrayForm.leaves_anyMatches {site : Site} {s : Schema} {parent : Value}
    (hasks : ∀ i member, Leaves env P (fun _ => True)
      (check.passes s member (site.position.nest (.index i) parent) site.prefs)) (i : Nat)
      (members : List Value) :
    Leaves env P (fun _ => True) (anyMatches check site s parent i members) := by
  induction members generalizing i with
  | nil => exact .pure trivial
  | cons member rest ih =>
    unfold anyMatches
    refine (hasks i member).bind fun passed _ => ?_
    cases passed with
    | true => exact .pure trivial
    | false => exact ih (i + 1)

end

end Conform
