import Conform.Check.Basic

/-!
# Runs

A check is a run: from a workshop, which holds what lazy nodes have made so far, it gives a result
and a workshop, or nothing. `Runs.pure_some` and `Runs.bind_some` take a run of several steps apart
into its steps, so that what a function does is read off step by step.

Two runs are often followed side by side: a check and the check of a changed schema, or the check of
one value in two places. `Lockstep W R` says that from workshops that stand in the relation `W` both
come to nothing, or both to results that stand in `R` and to workshops that stand in `W` again. What
the relation is, is left open: equality for runs that only look, agreement up to cells for runs that
make schemas.

Main statements: `Runs.bind_some` for one run, and `Lockstep.bind_of` for two, by which the rest may
also use where the results came from.
-/

namespace Conform.Runs

variable {α β : Type}

/-- A run that only gives a value leaves the workshop alone. -/
theorem pure_some {a b : α} {w w' : Workshop} (h : (pure a : Run α).run w = some (b, w')) :
    a = b ∧ w = w' :=
  Prod.mk.inj (Option.some.inj h)

/-- What two steps in a row came to, the second came to where the first left off. -/
theorem bind_some {x : Run α} {f : α → Run β} {b : β} {w w' : Workshop}
    (h : (x >>= f).run w = some (b, w')) :
    ∃ a w₁, x.run w = some (a, w₁) ∧ (f a).run w₁ = some (b, w') := by
  rw [StateT.run_bind] at h
  obtain ⟨⟨a, w₁⟩, hx, hf⟩ := Option.bind_eq_some_iff.mp h
  exact ⟨a, w₁, hx, hf⟩

end Conform.Runs

namespace Conform

/-! ### Two runs side by side -/

/-- From workshops that stand in the relation both runs come to nothing, or both to related results
and to workshops that stand in it again. -/
def Lockstep (W : Workshop → Workshop → Prop) {α β : Type} (R : α → β → Prop) (x : Run α)
    (y : Run β) : Prop :=
  ∀ w w', W w w' → Option.Rel (fun r r' => R r.1 r'.1 ∧ W r.2 r'.2) (x.run w) (y.run w')

/-- Where two results come from that runs in lockstep come to. -/
def Lockstep.Comes (W : Workshop → Workshop → Prop) {α β : Type} (x : Run α) (y : Run β)
    (a : α) (b : β) : Prop :=
  ∃ w w' w₁ w₁', W w w' ∧ x.run w = some (a, w₁) ∧ y.run w' = some (b, w₁')

namespace Lockstep

variable {W : Workshop → Workshop → Prop} {α β γ δ : Type} {R : α → β → Prop}

theorem pure {a : α} {b : β} (h : R a b) : Lockstep W R (Pure.pure a) (Pure.pure b) :=
  fun _ _ hw => .some ⟨h, hw⟩

theorem failure : Lockstep W R (Alternative.failure : Run α) (Alternative.failure : Run β) :=
  fun _ _ _ => .none

theorem mono {Q : α → β → Prop} {x : Run α} {y : Run β} (h : Lockstep W R x y)
    (himp : ∀ a b, R a b → Q a b) : Lockstep W Q x y := by
  intro w w' hw
  have h := h w w' hw
  revert h
  generalize x.run w = r
  generalize y.run w' = r'
  rintro (⟨hr, hw⟩ | _)
  · exact .some ⟨himp _ _ hr, hw⟩
  · exact .none

/-- As `bind`, where the rest may use where the results came from. -/
theorem bind_of {Q : γ → δ → Prop} {x : Run α} {y : Run β} {f : α → Run γ} {g : β → Run δ}
    (hx : Lockstep W R x y) (hf : ∀ a b, R a b → Comes W x y a b → Lockstep W Q (f a) (g b)) :
    Lockstep W Q (x >>= f) (y >>= g) := by
  intro w w' hw
  have h := hx w w' hw
  rw [StateT.run_bind, StateT.run_bind]
  revert h
  cases hrun : x.run w with
  | none =>
    cases y.run w' with
    | none => exact fun _ => .none
    | some r' => exact fun h => nomatch h
  | some r =>
    cases hrun' : y.run w' with
    | none => exact fun h => nomatch h
    | some r' =>
      rintro (⟨hr, hw₁⟩ | _)
      exact hf r.1 r'.1 hr ⟨w, w', r.2, r'.2, hw, hrun, hrun'⟩ r.2 r'.2 hw₁

theorem bind {Q : γ → δ → Prop} {x : Run α} {y : Run β} {f : α → Run γ} {g : β → Run δ}
    (hx : Lockstep W R x y) (hf : ∀ a b, R a b → Lockstep W Q (f a) (g b)) :
    Lockstep W Q (x >>= f) (y >>= g) :=
  hx.bind_of fun a b h _ => hf a b h

end Lockstep

end Conform
