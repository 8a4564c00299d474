import Conform.Proofs.MirrorNode

/-!
# Checks at two positions

Two checks of one value by one schema, made at positions that agree on all that the schema reads, go
through the same steps and come to the same. So much is known already where the generators of lazy
schemas make the same schema always. Here nothing is asked of generators: only some relation of the
workshops has to be kept by lazy nodes (`Steers.forced`). Where nothing that takes part is lazy, it
may be any relation (`Check.within_eager`), so that such a check neither looks at the workshop nor
changes it. Otherwise it is that both runs have one workshop, which keeps what generators made
(`Check.within_abreast`).

The statement is a property of one schema and one check (`Movable`): at any two positions that
agree on what the schema reads, the check comes to the same. For the induction it has to be
known of all schemas that take part, and these are found inside the schema and in what its lazy
nodes come to. What a lazy node comes to depends on the workshop, so the relation of the two
workshops has to be such that both find the same there; that is the one thing asked of it
(`Steers`), besides being kept.

Two relations are used. Where there are no lazy nodes any relation will do, and so a
check can be moved between unrelated workshops. Where there are some, the two runs have
one workshop between them.

Main statement: `Check.within_movable`.
-/

namespace Conform

variable {W : Workshop → Workshop → Prop} {env : Environment}

/-- The check by `t` comes to the same at all positions that agree on what `t` reads. -/
def Movable (W : Workshop → Workshop → Prop) (env : Environment) (check : Check)
    (t : Schema) : Prop :=
  ∀ value p q prefs, Schema.Agree env t p q →
    Lockstep W Eq (check t value p prefs) (check t value q prefs)

theorem Movable.passes {check : Check} {t : Schema} (h : Movable W env check t) {p q : Position}
    (hagree : Schema.Agree env t p q) (value : Value) (prefs : Preferences) :
    Lockstep W Eq (check.passes t value p prefs) (check.passes t value q prefs) :=
  Mirrors.passes (f := id) h hagree value prefs

/-- Schemas that have the property have it inside as well, and what their lazy nodes come to has it
and reads no more; the relation of workshops is kept. -/
structure Steers (W : Workshop → Workshop → Prop) (env : Environment)
    (P : Schema → Prop) : Prop where
  visited : ∀ s, P s → ∀ levels t, (levels, t) ∈ s.visited → P t
  withPresence : ∀ s, P s → P (s.updateFlags ({ · with presence := some .optional }))
  forced : ∀ s, P s → ∀ form, s.node.form = .lazy form →
    Lockstep W (fun t u => u = t ∧ P t ∧ ∀ p q, Schema.Agree env s p q → Schema.Agree env t p q)
      (env.force form) (env.force form)

theorem Check.within_movable {P : Schema → Prop} (h : Steers W env P) (fuel : Nat) :
    ∀ s, P s → Movable W env (Check.within env fuel) s := by
  induction fuel with
  | zero => exact fun _ _ _ _ _ _ _ => .failure
  | succ fuel ih =>
    intro s hs value p q prefs hagree
    -- nothing is changed inside, so that the mirror is the check by the schema itself
    have hmirror : Site.Mirror W (Check.within env fuel) id
        ⟨env, s, p, prefs.merged s.node.prefs, value⟩
        ⟨env, s, q, prefs.merged s.node.prefs, value⟩ :=
      { alike := Site.alike_of_node rfl rfl hagree.path rfl rfl
          (fun _ hlook value => hagree.own hlook value _) (fun _ _ _ _ => rfl)
          (fun _ _ _ _ => rfl)
        prefs := rfl
        agree := hagree
        inner := fun levels t ht => ih t (h.visited s hs levels t ht) }
    refine Site.MirrorWhole.run ⟨hmirror, ArrayForm.unseen_id, ?_, ?_⟩
    · intro form hform
      refine ⟨fun t ht => ?_, fun parent =>
        ⟨_, ArrayForm.Ground.recall_of_kept hmirror hform ArrayForm.unseen_id
        fun _ _ => rfl⟩⟩
      obtain ⟨item, hitem, rfl⟩ := List.mem_map.mp ht
      have hvisited := ArrayForm.Ground.visited_of_items (s := s) hform
        (List.mem_append_left _ (List.mem_filter.mp hitem).1)
      exact ih _ (h.withPresence item (h.visited s hs 1 item hvisited))
    · intro form form' hform hform' _
      obtain rfl : form = form' := Form.lazy.inj (hform.symm.trans hform')
      refine (h.forced s hs form hform).mono ?_
      rintro t _ ⟨rfl, ht, hreads⟩ value
      exact ih _ ht value p q _ (hreads p q hagree)

/-- Where nothing is lazy, workshops do not matter. -/
theorem Check.within_eager {s : Schema} (hs : s.Throughout env fun t => t.kind ≠ .lazy)
    (W : Workshop → Workshop → Prop) (fuel : Nat) : Movable W env (Check.within env fuel) s := by
  have hsteers : Steers W env (Schema.Throughout env fun t => t.kind ≠ .lazy) := by
    refine ⟨fun s hs levels t ht => hs.visited ht, fun s hs depth t ht => ?_,
      fun s hs form hform => ?_⟩
    · rcases ht.of_updateFlags with ⟨-, rfl⟩ | hoccurs
      · exact hs.self
      · exact hs depth t hoccurs
    · exact absurd (congrArg Form.kind hform) hs.self
  exact Check.within_movable hsteers fuel s hs

/-- What the workshop keeps was made by generators. -/
def Workshop.Made (env : Environment) (w : Workshop) : Prop :=
  ∀ form t, (form, t) ∈ w.cells → ∃ used, t.erase true = (env.made form.generator used).erase true

theorem Workshop.made_new (env : Environment) : Workshop.Made env {} :=
  fun _ _ h => absurd h List.not_mem_nil

/-- Both runs have one workshop, which keeps what generators made. -/
def Abreast (env : Environment) (w w' : Workshop) : Prop := w' = w ∧ w.Made env

namespace Environment

/-- What a lazy node comes to was made by its generator, also if it was kept. -/
theorem force_kept {form : LazyForm} {w w₁ : Workshop} {t : Schema} (hw : w.Made env)
    (hrun : (env.force form).run w = some (t, w₁)) :
    (∃ used, t.erase true = (env.made form.generator used).erase true) ∧ w₁.Made env := by
  obtain ⟨hmade, hcells⟩ := force_made hrun
  have hmade := hmade.elim (hw form t) id
  refine ⟨hmade, fun other v hv => ?_⟩
  rcases hcells (other, v) hv with heq | hold
  · obtain ⟨rfl, rfl⟩ := Prod.mk.inj heq
    exact hmade
  · exact hw other v hold

theorem force_abreast (form : LazyForm) :
    Lockstep (Abreast env)
      (fun t u => u = t ∧ ∃ used, t.erase true = (env.made form.generator used).erase true)
      (env.force form) (env.force form) := by
  rintro _ w ⟨rfl, hw⟩
  cases hrun : (env.force form).run w with
  | none => exact .none
  | some r =>
    obtain ⟨hmade, hkept⟩ := force_kept hw hrun
    exact .some ⟨⟨rfl, hmade⟩, rfl, hkept⟩

end Environment

/-- With one workshop, a check comes to the same at positions that agree on
what the schema reads. -/
theorem Check.within_abreast (fuel : Nat) (s : Schema) :
    Movable (Abreast env) env (Check.within env fuel) s := by
  refine Check.within_movable (P :=
    fun _ => True) ⟨fun _ _ _ _ _ => trivial, fun _ _ => trivial, ?_⟩ fuel s trivial
  intro s _ form hform
  refine (Environment.force_abreast form).mono ?_
  rintro t _ ⟨rfl, used, hmade⟩
  exact ⟨rfl, trivial, fun p q hagree => (hagree.made hform used).of_reads fun _ _ =>
    Schema.Reads.congr hmade.symm⟩

end Conform
