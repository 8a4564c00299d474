import Conform.Proofs.Runs
import Conform.Proofs.Settle

/-!
# Runs that match

Two runs match if, from any two workshops that keep nothing but what the generators make, either
both come to nothing or both come to an end with related results. What a workshop keeps and how
often its generators were used then makes no difference, provided that each generator makes one
schema always (`Environment.Steady`).

The two runs may start from different workshops, and need not leave the same one either. All that is
known of a workshop is that it is sound: what it keeps for a lazy node is what the generator of the
node makes, but for cells. So a lazy node comes to the same schema whether it is found in the
workshop or made anew, and how often a generator was asked before does not matter; that is where
steadiness is needed, and the only place (`force_matches`).

Matching is lockstep in the relation that both workshops are sound (`matches_iff_lockstep`),
and has its rules from there. It is symmetric and transitive where results are equal, so a
check that matches itself gives one result from all sound workshops (`Matches.gives`), and
may be quoted as a value.

Main statements: `Matches.bind`, by which runs are matched step by step, and `force_matches`, by
which lazy nodes of one generator come to the same schema but for cells.
-/

namespace Conform

namespace Environment

/-- What a generator makes at its first use. -/
def product (env : Environment) (name : String) : Schema := env.made name 0

/-- Every generator makes one schema always. -/
def Steady (env : Environment) : Prop :=
  ∀ name used, env.made name used = env.product name

/-- This generator makes one schema always. -/
def SteadyAt (env : Environment) (name : String) : Prop :=
  ∀ used, env.made name used = env.product name

end Environment

/-- What the workshop keeps is what the generators make. -/
def Workshop.Sound (env : Environment) (w : Workshop) : Prop :=
  ∀ form t, (form, t) ∈ w.cells → t.erase true = (env.product form.generator).erase true

/-- What the workshop keeps for this lazy node is what its generator makes. -/
def Workshop.SoundAt (env : Environment) (w : Workshop) (form : LazyForm) : Prop :=
  ∀ t, (form, t) ∈ w.cells → t.erase true = (env.product form.generator).erase true

theorem Workshop.sound_new (env : Environment) : Workshop.Sound env {} :=
  fun _ _ hmem => absurd hmem List.not_mem_nil

/-- From sound workshops both runs come to nothing, or both to related results and sound
workshops. -/
def Matches (env : Environment) {α β : Type} (R : α → β → Prop) (x : Run α) (y : Run β) : Prop :=
  ∀ w w', w.Sound env → w'.Sound env →
    Option.Rel (fun r r' => R r.1 r'.1 ∧ r.2.Sound env ∧ r'.2.Sound env) (x.run w) (y.run w')

/-- Both workshops keep nothing but what the generators make. -/
def BothSound (env : Environment) (w w' : Workshop) : Prop := w.Sound env ∧ w'.Sound env

/-- Runs that match are in lockstep, where all that is known of either
workshop is that it is sound. -/
theorem matches_iff_lockstep {env : Environment} {α β : Type} {R : α → β → Prop}
    {x : Run α} {y : Run β} : Matches env R x y ↔ Lockstep (BothSound env) R x y :=
  ⟨fun h w w' hw => h w w' hw.1 hw.2, fun h w w' hw hw' => h w w' ⟨hw, hw'⟩⟩

namespace Matches

variable {env : Environment} {α β γ δ : Type} {R : α → β → Prop}

theorem pure {a : α} {b : β} (h : R a b) : Matches env R (Pure.pure a) (Pure.pure b) :=
  matches_iff_lockstep.mpr (.pure h)

theorem failure : Matches env R (Alternative.failure : Run α) (Alternative.failure : Run β) :=
  matches_iff_lockstep.mpr .failure

theorem mono {Q : α → β → Prop} {x : Run α} {y : Run β} (h : Matches env R x y)
    (himp : ∀ a b, R a b → Q a b) : Matches env Q x y :=
  matches_iff_lockstep.mpr ((matches_iff_lockstep.mp h).mono himp)

theorem symm {x : Run α} {y : Run β} (h : Matches env R x y) :
    Matches env (fun b a => R a b) y x := by
  intro w w' hw hw'
  have h := h w' w hw' hw
  revert h
  generalize x.run w' = r
  generalize y.run w = r'
  rintro (⟨hr, hs, hs'⟩ | _)
  · exact .some ⟨hr, hs', hs⟩
  · exact .none

/-- Runs that match a third one with equal results match each other. -/
theorem trans {x : Run α} {y z : Run β} (hx : Matches env R x y)
    (hy : Matches env (fun b c => b = c) y z) : Matches env R x z := by
  intro w w' hw hw'
  have hx := hx w w hw hw
  have hy := hy w w' hw hw'
  revert hx hy
  generalize x.run w = r
  generalize y.run w = r'
  generalize z.run w' = r''
  rintro (⟨hr, hs, -⟩ | _) hy
  · rcases hy with ⟨heq, -, hs'⟩
    exact .some ⟨heq ▸ hr, hs, hs'⟩
  · cases hy
    exact .none

/-- What the one run comes to, the other one comes to. -/
theorem run_some {x y : Run α} (h : Matches env Eq x y) {w w' w₁ : Workshop}
    {a : α} (hw : w.Sound env)
    (hw' : w'.Sound env) (hrun : x.run w = some (a, w₁)) : ∃ w₁', y.run w' = some (a, w₁') := by
  have h := h w w' hw hw'
  rw [hrun] at h
  revert h
  cases y.run w' with
  | none => exact fun h => nomatch h
  | some r =>
    rintro (⟨heq, -⟩ | _)
    exact ⟨r.2, congrArg some (Prod.ext heq.symm rfl)⟩

/-- A run with a match matches itself. -/
theorem left {x y : Run α} (h : Matches env Eq x y) : Matches env Eq x x :=
  h.trans (h.symm.mono fun _ _ heq => heq.symm)

end Matches

/-- Where one result comes from. -/
def Comes {α : Type} (env : Environment) (x : Run α) (a : α) : Prop :=
  ∃ w w₁, w.Sound env ∧ x.run w = some (a, w₁)

section

variable {env : Environment} {α β : Type} {x : Run α} {y : Run β} {a : α} {b : β}

theorem Lockstep.Comes.left (h : Comes (BothSound env) x y a b) : Conform.Comes env x a := by
  obtain ⟨w, w', w₁, w₁', hw, hrun, -⟩ := h
  exact ⟨w, w₁, hw.1, hrun⟩

theorem Lockstep.Comes.right (h : Comes (BothSound env) x y a b) : Conform.Comes env y b := by
  obtain ⟨w, w', w₁, w₁', hw, -, hrun⟩ := h
  exact ⟨w', w₁', hw.2, hrun⟩

end

/-- From every sound workshop, this result. -/
def Gives {α : Type} (env : Environment) (x : Run α) (a : α) : Prop :=
  ∀ w, w.Sound env → ∃ w₁, x.run w = some (a, w₁) ∧ w₁.Sound env

namespace Matches

variable {env : Environment} {α β γ δ : Type} {R : α → β → Prop}

theorem bind {Q : γ → δ → Prop} {x : Run α} {y : Run β} {f : α → Run γ} {g : β → Run δ}
    (hx : Matches env R x y) (hf : ∀ a b, R a b → Matches env Q (f a) (g b)) :
    Matches env Q (x >>= f) (y >>= g) :=
  matches_iff_lockstep.mpr
    ((matches_iff_lockstep.mp hx).bind fun a b h => matches_iff_lockstep.mp (hf a b h))

/-- A run that matches itself gives one result always. -/
theorem gives {x : Run α} (hx : Matches env Eq x x) {a : α}
    (ha : Comes env x a) : Gives env x a := by
  obtain ⟨w₀, w₁, hw₀, hrun⟩ := ha
  intro w hw
  have h := hx w₀ w hw₀ hw
  rw [hrun] at h
  revert h
  cases x.run w with
  | none => exact fun h => nomatch h
  | some r =>
    rintro (⟨heq, -, hs⟩ | _)
    exact ⟨r.2, congrArg some (Prod.ext heq.symm rfl), hs⟩

end Matches

theorem Gives.matches_pure {env : Environment} {α : Type} {x : Run α} {a : α} (h : Gives env x a) :
    Matches env Eq x (Pure.pure a) := by
  intro w w' hw hw'
  obtain ⟨w₁, hrun, hs⟩ := h w hw
  rw [hrun]
  exact .some ⟨rfl, hs, hw'⟩

/-! ### What lazy nodes come to -/

theorem mem_of_lookup {α β : Type} [BEq α] [LawfulBEq α] {entries : List (α × β)}
    {key : α} {value : β} (h : entries.lookup key = some value) : (key, value) ∈ entries := by
  obtain ⟨before, after, rfl, -⟩ := List.lookup_eq_some_iff.mp h
  exact List.mem_append_right _ (List.mem_cons_self ..)

namespace Environment

variable {env : Environment}

/-- What is generated is made by the generator, but for cells, and is not kept yet. -/
theorem generate_made {name : String} {w w₁ : Workshop} {t : Schema}
    (hrun : (env.generate name).run w = some (t, w₁)) :
    (∃ used, t.erase true = (env.made name used).erase true) ∧ w₁.cells = w.cells := by
  obtain ⟨rfl, rfl⟩ := Prod.mk.inj (Option.some.inj hrun)
  exact ⟨⟨_, Schema.furnish_erase _ _⟩, rfl⟩

/-- A lazy node comes to what was kept for it or is made anew, and nothing else is kept for it. -/
theorem force_made {form : LazyForm} {w w₁ : Workshop} {t : Schema}
    (hrun : (env.force form).run w = some (t, w₁)) :
    ((form, t) ∈ w.cells ∨ ∃ used, t.erase true = (env.made form.generator used).erase true) ∧
      ∀ kept ∈ w₁.cells, kept = (form, t) ∨ kept ∈ w.cells := by
  unfold force at hrun
  split at hrun
  next =>
    rw [StateT.run_bind, StateT.run_get, pure_bind] at hrun
    dsimp only at hrun
    cases hlook : w.cells.lookup form with
    | some kept =>
      rw [hlook] at hrun
      obtain ⟨rfl, rfl⟩ := Runs.pure_some hrun
      exact ⟨.inl (mem_of_lookup hlook), fun _ => .inr⟩
    | none =>
      rw [hlook] at hrun
      obtain ⟨u, w₂, hmade, hrest⟩ := Runs.bind_some hrun
      obtain ⟨hu, hcells⟩ := generate_made hmade
      obtain ⟨rfl, rfl⟩ := Prod.mk.inj (Option.some.inj hrest)
      -- the cell just filled holds the schema just made
      exact ⟨.inr hu, fun _ hkept => (List.mem_cons.mp hkept).imp_right fun hold => hcells ▸ hold⟩
  next =>
    obtain ⟨ht, hcells⟩ := generate_made hrun
    exact ⟨.inr ht, fun _ hkept => .inr (hcells ▸ hkept)⟩

/-- A lazy node always comes to something. -/
theorem force_some (form : LazyForm) (w : Workshop) :
    ∃ t w₁, (env.force form).run w = some (t, w₁) := by
  unfold force
  split
  next =>
    rw [StateT.run_bind, StateT.run_get, pure_bind]
    cases w.cells.lookup form with
    | some kept => exact ⟨_, _, rfl⟩
    | none => exact ⟨_, _, rfl⟩
  next => exact ⟨_, _, rfl⟩

/-- A lazy node comes to the product of its generator but for cells, and
nothing else is kept for it. -/
theorem force_makes {form : LazyForm} (hsteady : env.SteadyAt form.generator) {w : Workshop}
    (hw : w.SoundAt env form) :
    ∃ t w₁, (env.force form).run w = some (t, w₁) ∧
      t.erase true = (env.product form.generator).erase true ∧
      ∀ kept ∈ w₁.cells, kept = (form, t) ∨ kept ∈ w.cells := by
  obtain ⟨t, w₁, hrun⟩ := force_some form w
  obtain ⟨hmade, hcells⟩ := force_made hrun
  refine ⟨t, w₁, hrun, ?_, hcells⟩
  rcases hmade with hkept | ⟨used, hmade⟩
  · exact hw t hkept
  · rw [hmade, hsteady]

/-- Under steady generators, what a lazy node comes to leaves the workshop sound. -/
theorem force_gives (hsteady : env.Steady) (form : LazyForm) {w : Workshop} (hw : w.Sound env) :
    ∃ t w₁, (env.force form).run w = some (t, w₁) ∧
      t.erase true = (env.product form.generator).erase true ∧ w₁.Sound env := by
  obtain ⟨t, w₁, hrun, hsame, hcells⟩ := force_makes (hsteady form.generator) (hw form)
  refine ⟨t, w₁, hrun, hsame, fun other kept hkept => ?_⟩
  rcases hcells (other, kept) hkept with heq | hold
  · obtain ⟨rfl, rfl⟩ := Prod.mk.inj heq
    exact hsame
  · exact hw other kept hold

/-- Lazy nodes of one generator come to one schema but for cells. -/
theorem force_matches (hsteady : env.Steady) (form form' : LazyForm)
    (hname : form'.generator = form.generator) :
    Matches env (fun t u => t.erase true = (env.product form.generator).erase true ∧
      u.erase true = (env.product form.generator).erase true) (env.force form)
        (env.force form') := by
  intro w w' hw hw'
  obtain ⟨t, w₁, hrun, hsame, hs⟩ := force_gives hsteady form hw
  obtain ⟨u, w₂, hrun', hsame', hs'⟩ := force_gives hsteady form' hw'
  rw [hrun, hrun']
  exact .some ⟨⟨hsame, hname ▸ hsame'⟩, hs, hs'⟩

end Environment

end Conform
