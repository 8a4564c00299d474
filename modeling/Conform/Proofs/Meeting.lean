import Conform.Proofs.Matching

/-!
# Runs that both end

Two runs meet if their results are related whenever both come to an end, from any two workshops that
keep nothing but what the generators make. Nothing is said where one of them comes to nothing, so
runs of different lengths can be compared: where one has settled its result and the other goes on,
it is enough to know what the other ends with (`Ends`).

This is weaker than what is said of runs that match, and it is what is wanted where the runs are of
different lengths. A check that stops at the first failure makes fewer checks than one that goes on,
so the one may come to an end where the other has run into a generator without a product. To require
that both come to an end together would be false. Runs that match themselves have an end that
depends on no workshop, and can be put in the place of one another (`Meets.trans_matches`).

Binding is the rule for steps that both runs take. Where only one of them goes on, the result of the
other is settled, and what is known of all ends of the longer one is enough (`Meets.pure_left`).

Main statements: `Meets.bind`, `Ends.bind` and `Meets.pure_left`.
-/

namespace Conform

/-- If both runs come to an end from sound workshops, the results are related and the workshops left
are sound. -/
def Meets (env : Environment) {α β : Type} (R : α → β → Prop) (x : Run α) (y : Run β) : Prop :=
  ∀ w w' a b w₁ w₁', w.Sound env → w'.Sound env → x.run w = some (a, w₁) →
    y.run w' = some (b, w₁') → R a b ∧ w₁.Sound env ∧ w₁'.Sound env

/-- If the run comes to an end from a sound workshop, the result has the property and the
workshop left is sound. -/
def Ends (env : Environment) {α : Type} (P : α → Prop) (x : Run α) : Prop :=
  ∀ w a w₁, w.Sound env → x.run w = some (a, w₁) → P a ∧ w₁.Sound env

variable {env : Environment} {α β γ δ : Type}

namespace Ends

variable {P : α → Prop} {x : Run α}

theorem pure {a : α} (h : P a) : Ends env P (Pure.pure a) := by
  intro w b w₁ hw hrun
  obtain ⟨rfl, rfl⟩ := Runs.pure_some hrun
  exact ⟨h, hw⟩

theorem bind {Q : β → Prop} {f : α → Run β} (hx : Ends env P x) (hf : ∀ a, P a → Ends env Q (f a)) :
    Ends env Q (x >>= f) := by
  intro w b w₁ hw hrun
  obtain ⟨a, w₂, hfirst, hrest⟩ := Runs.bind_some hrun
  obtain ⟨ha, hs⟩ := hx w a w₂ hw hfirst
  exact hf a ha w₂ b w₁ hs hrest

theorem mono {Q : α → Prop} (hx : Ends env P x) (himp : ∀ a, P a → Q a) : Ends env Q x := by
  intro w a w₁ hw hrun
  obtain ⟨ha, hs⟩ := hx w a w₁ hw hrun
  exact ⟨himp a ha, hs⟩

end Ends

theorem Ends.and_results {P Q : α → Prop} {x : Run α} (h : Ends env P x)
    (hx : ∀ w a w₁, x.run w = some (a, w₁) → Q a) : Ends env (fun a => P a ∧ Q a) x := by
  intro w a w₁ hw hrun
  obtain ⟨ha, hs⟩ := h w a w₁ hw hrun
  exact ⟨⟨ha, hx w a w₁ hrun⟩, hs⟩

theorem Matches.ends {x : Run α} {y : Run β} {R : α → β → Prop} (h : Matches env R x y) :
    Ends env (fun _ => True) x := by
  intro w a w₁ hw hrun
  have h := h w w hw hw
  rw [hrun] at h
  revert h
  cases y.run w with
  | none => exact fun h => nomatch h
  | some r =>
    rintro (⟨-, hs, -⟩ | _)
    exact ⟨trivial, hs⟩

theorem Matches.meets {x : Run α} {y : Run β} {R : α → β → Prop} (h : Matches env R x y) :
    Meets env R x y := by
  intro w w' a b w₁ w₁' hw hw' hrun hrun'
  have h := h w w' hw hw'
  rw [hrun, hrun'] at h
  rcases h with ⟨hr, hs, hs'⟩
  exact ⟨hr, hs, hs'⟩

namespace Meets

variable {R : α → β → Prop} {x : Run α} {y : Run β}

theorem pure {a : α} {b : β} (h : R a b) : Meets env R (Pure.pure a) (Pure.pure b) :=
  (Matches.pure h).meets

theorem bind {Q : γ → δ → Prop} {f : α → Run γ} {g : β → Run δ} (hx : Meets env R x y)
    (hf : ∀ a b, R a b → Meets env Q (f a) (g b)) : Meets env Q (x >>= f) (y >>= g) := by
  intro w w' c d w₁ w₁' hw hw' hrun hrun'
  obtain ⟨a, w₂, hfirst, hrest⟩ := Runs.bind_some hrun
  obtain ⟨b, w₂', hfirst', hrest'⟩ := Runs.bind_some hrun'
  obtain ⟨hr, hs, hs'⟩ := hx w w' a b w₂ w₂' hw hw' hfirst hfirst'
  exact hf a b hr w₂ w₂' c d w₁ w₁' hs hs' hrest hrest'

theorem mono {Q : α → β → Prop} (h : Meets env R x y) (himp : ∀ a b, R a b → Q a b) :
    Meets env Q x y := by
  intro w w' a b w₁ w₁' hw hw' hrun hrun'
  obtain ⟨hr, hs⟩ := h w w' a b w₁ w₁' hw hw' hrun hrun'
  exact ⟨himp a b hr, hs⟩

/-- A settled result against a run that goes on. -/
theorem pure_left {a : α} (h : Ends env (R a) y) : Meets env R (Pure.pure a) y := by
  intro w w' a' b w₁ w₁' hw hw' hrun hrun'
  obtain ⟨rfl, rfl⟩ := Runs.pure_some hrun
  obtain ⟨hb, hs⟩ := h w' b w₁' hw' hrun'
  exact ⟨hb, hw, hs⟩

/-- What is known of the results of each run joins what relates them. -/
theorem and_results {P : α → Prop} {Q : β → Prop} (h : Meets env R x y)
    (hx : ∀ w a w₁, x.run w = some (a, w₁) → P a) (hy : ∀ w b w₁, y.run w = some (b, w₁) → Q b) :
    Meets env (fun a b => R a b ∧ P a ∧ Q b) x y := by
  intro w w' a b w₁ w₁' hw hw' hrun hrun'
  obtain ⟨hr, hs⟩ := h w w' a b w₁ w₁' hw hw' hrun hrun'
  exact ⟨⟨hr, hx w a w₁ hrun, hy w' b w₁' hrun'⟩, hs⟩

/-- The second run may be replaced by one that matches it. -/
theorem trans_matches {z : Run β} (h : Meets env R x y) (hz : Matches env Eq y z) :
    Meets env R x z := by
  intro w w' a b w₁ w₁' hw hw' hrun hrun'
  have hmatch := hz w' w' hw' hw'
  rw [hrun'] at hmatch
  revert hmatch
  cases hmid : y.run w' with
  | none => exact fun h => nomatch h
  | some r =>
    rintro (⟨heq, hs, hs'⟩ | _)
    obtain ⟨c, w₂⟩ := r
    obtain rfl : c = b := heq
    obtain ⟨hr, hs₁, -⟩ := h w w' a c w₁ w₂ hw hw' hrun hmid
    exact ⟨hr, hs₁, hs'⟩

end Meets

end Conform
