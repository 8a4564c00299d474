import Mathlib.Data.List.Forall2

/-!
# Steps that may be refused

Putting a schema together and building it from a description are chains of steps any of which may be
refused. A chain that is not refused is taken apart here step by step.

The lemmas come in two directions. Going forward, the results of the steps are known and that of the
chain is to be found: `ok_bind` for one step, and `mapM_map_pure` and `mapM_map_self` for one step
on each item of a list. Going backward, the chain is known to have come to something, and each step
to have come to what the next one took: `bind_ok`, `map_ok` and, for lists, `mapM_ok_iff`, which
gives the items and their results side by side.

What is refused is refused with a reason, and the first step to be refused decides on it
(`bind_error`, `mapM_error`). Chains that change one thing after another, as when rules are added to
a node, are folds; what each of their steps keeps they keep (`foldlM_ok`), and they are the same if
their steps are (`foldlM_congr`).
-/

namespace Conform.Attempt

/-- A step that is not refused. -/
theorem ok_bind {ε α β : Type} (a : α) (f : α → Except ε β) :
    ((Except.ok a : Except ε α) >>= f) = f a := rfl

section Pure

variable {α β γ : Type} {m : Type → Type} [Monad m] [LawfulMonad m] {f : β → m γ}
  {g : α → β} {h : α → γ}

/-- Steps whose results are known, one for each item. -/
theorem mapM_map_pure {items : List α} (hf : ∀ a ∈ items, f (g a) = pure (h a)) :
    (items.map g).mapM f = pure (items.map h) := by
  induction items with
  | nil => rfl
  | cons a rest ih =>
    have hrest := ih fun b hb => hf b (List.mem_cons_of_mem _ hb)
    rw [List.map_cons, List.mapM_cons, hf a (List.mem_cons_self ..), pure_bind, hrest, pure_bind,
      List.map_cons]

theorem option_mapM_map_pure {o : Option α} (hf : ∀ a ∈ o, f (g a) = pure (h a)) :
    (o.map g).mapM f = pure (o.map h) := by
  cases o with
  | none => rfl
  | some a =>
    show some <$> f (g a) = _
    rw [hf a rfl, map_pure]
    rfl

/-- Steps that undo a change, one for each item. -/
theorem mapM_map_self {f : β → m α} {items : List α} (hf : ∀ a ∈ items, f (g a) = pure a) :
    (items.map g).mapM f = pure items := by
  rw [mapM_map_pure (h := id) hf, List.map_id]

theorem option_mapM_map_self {f : β → m α} {o : Option α} (hf : ∀ a ∈ o, f (g a) = pure a) :
    (o.map g).mapM f = pure o := by
  rw [option_mapM_map_pure (h := id) hf, Option.map_id_apply]

end Pure

variable {ε α β : Type}

theorem bind_ok {x : Except ε α} {f : α → Except ε β} {b : β} (h : (x >>= f) = .ok b) :
    ∃ a, x = .ok a ∧ f a = .ok b := by
  cases x with
  | error e => exact absurd h (by simp [bind, Except.bind])
  | ok a => exact ⟨a, rfl, h⟩

theorem map_ok {x : Except ε α} {f : α → β} {b : β} (h : x.map f = .ok b) :
    ∃ a, x = .ok a ∧ f a = b := by
  cases x with
  | error e => exact absurd h (by simp [Except.map])
  | ok a => exact ⟨a, rfl, Except.ok.inj h⟩

theorem bind_error {x : Except ε α} {f : α → Except ε β} {e : ε} (h : (x >>= f) = .error e) :
    x = .error e ∨ ∃ a, x = .ok a ∧ f a = .error e := by
  cases x with
  | error e' => exact .inl (congrArg Except.error (Except.error.inj h))
  | ok a => exact .inr ⟨a, rfl, h⟩

/-- A step for each item fails as it does for one of them. -/
theorem mapM_error {f : α → Except ε β} {items : List α} {e : ε} (h : items.mapM f = .error e) :
    ∃ a ∈ items, f a = .error e := by
  induction items with
  | nil => exact nomatch h
  | cons a rest ih =>
    rw [List.mapM_cons] at h
    rcases bind_error h with hfirst | ⟨b, -, hrest⟩
    · exact ⟨a, List.mem_cons_self .., hfirst⟩
    · rcases bind_error hrest with hrest | ⟨bs, -, hpure⟩
      · obtain ⟨c, hc, hfails⟩ := ih hrest
        exact ⟨c, List.mem_cons_of_mem _ hc, hfails⟩
      · exact nomatch hpure

/-- A step for each item succeeds if it does for each of them. -/
theorem mapM_ok_iff {f : α → Except ε β} {items : List α} {results : List β} :
    items.mapM f = .ok results ↔ List.Forall₂ (fun a b => f a = .ok b) items results := by
  induction items generalizing results with
  | nil =>
    rw [List.mapM_nil, List.forall₂_nil_left_iff]
    exact ⟨fun h => (Except.ok.inj h).symm, fun h => congrArg Except.ok h.symm⟩
  | cons a rest ih =>
    rw [List.mapM_cons, List.forall₂_cons_left_iff]
    constructor
    · intro h
      obtain ⟨b, hb, h⟩ := bind_ok h
      obtain ⟨bs, hbs, h⟩ := bind_ok h
      exact ⟨b, bs, hb, ih.mp hbs, (Except.ok.inj h).symm⟩
    · rintro ⟨b, bs, hb, hbs, rfl⟩
      rw [hb, ih.mpr hbs]
      rfl

theorem exists_of_mem_forall₂ {R : α → β → Prop} {as : List α} {bs : List β}
    (h : List.Forall₂ R as bs) {b : β} (hb : b ∈ bs) : ∃ a ∈ as, R a b := by
  induction h with
  | nil => exact absurd hb List.not_mem_nil
  | cons hfirst _ ih =>
    rcases List.mem_cons.mp hb with rfl | hb
    · exact ⟨_, List.mem_cons_self .., hfirst⟩
    · obtain ⟨a, ha, hr⟩ := ih hb
      exact ⟨a, List.mem_cons_of_mem _ ha, hr⟩

theorem exists_of_mem_forall₂_left {R : α → β → Prop} {as : List α} {bs : List β}
    (h : List.Forall₂ R as bs) {a : α} (ha : a ∈ as) : ∃ b ∈ bs, R a b :=
  exists_of_mem_forall₂ h.flip ha

theorem mem_of_mapM {f : α → Except ε β} {items : List α} {results : List β}
    (h : items.mapM f = .ok results) {b : β} (hb : b ∈ results) : ∃ a ∈ items, f a = .ok b :=
  exists_of_mem_forall₂ (mapM_ok_iff.mp h) hb

theorem option_mapM_isSome {f : α → Except ε β} {o : Option α} {result : Option β}
    (h : o.mapM f = .ok result) : result.isSome = o.isSome := by
  cases o with
  | none => exact Except.ok.inj h ▸ rfl
  | some a =>
    obtain ⟨b, -, rfl⟩ := map_ok h
    rfl

/-- An optional step, if it is taken, succeeds. -/
theorem option_mapM_ok {f : α → Except ε β} {o : Option α} {result : Option β}
    (h : o.mapM f = .ok result) {b : β} (hb : b ∈ result) : ∃ a ∈ o, f a = .ok b := by
  cases o with
  | none =>
    obtain rfl : none = result := Except.ok.inj h
    exact absurd hb (by simp)
  | some a =>
    obtain ⟨b', hb', h⟩ := map_ok h
    obtain rfl : some b' = result := h
    obtain rfl : b' = b := Option.some.inj hb
    exact ⟨a, rfl, hb'⟩

theorem map_bind {γ : Type} (x : Except ε α) (f : α → Except ε β) (g : β → γ) :
    (x >>= f).map g = x >>= fun a => (f a).map g := by
  cases x <;> rfl

/-- Chains of the same steps. -/
theorem foldlM_congr {f g : β → α → Except ε β} {items : List α}
    (h : ∀ a ∈ items, ∀ b, f b a = g b a)
    (start : β) : items.foldlM f start = items.foldlM g start := by
  induction items generalizing start with
  | nil => rfl
  | cons a rest ih =>
    rw [List.foldlM_cons, List.foldlM_cons, h a (List.mem_cons_self ..)]
    exact bind_congr fun b => ih (fun a ha => h a (List.mem_cons_of_mem _ ha)) b

/-- What each step keeps, a chain keeps. -/
theorem foldlM_ok {P : β → Prop} {f : β → α → Except ε β} {items : List α}
    (hstep : ∀ b a b', a ∈ items → P b → f b a = .ok b' → P b') {start result : β}
    (hstart : P start) (h : items.foldlM f start = .ok result) : P result := by
  induction items generalizing start with
  | nil =>
    obtain rfl : start = result := Except.ok.inj h
    exact hstart
  | cons a rest ih =>
    rw [List.foldlM_cons] at h
    obtain ⟨next, hnext, h⟩ := bind_ok h
    refine ih (fun b a' b' ha' => hstep b a' b' (List.mem_cons_of_mem _ ha')) ?_ h
    exact hstep start a next (List.mem_cons_self ..) hstart hnext

end Conform.Attempt
