import Conform.Proofs.MirrorNode

/-!
# Marks make no difference to a check

Under steady generators a check by a schema and one by the schema erased come to the same, from
whatever workshops they start, wherever what the schema reads is the same. Two schemas that are the
same but for cells and stamps are then one to every caller, as are two positions.

The comparison is an instance of mirroring, where the function on schemas is erasing. What mirroring
asks of arrays is the one point where stamps are looked at: the walk over members tells copies of a
required schema by them, and takes over the outcome of a copy that failed already. So it has to be
known that only copies of one item schema bear one stamp (`Honest`), and that holds of all schemas
in which numbers were given by settling.

Being careful is a property of a whole check, and the induction on levels gives it for the check of
any depth. It is stated for both kinds of erasing at once, with stamps and without; where stamps are
kept nothing has to be known of them. At the end are the two forms in which it is used, for schemas
that differ in marks and for positions that differ in what is not read.

Main statement: `Check.within_careful`, from which `check_congr` and `check_agree` follow.
-/

namespace Conform

/-- The check gives the same by `s` and by `s` erased, wherever what `s` reads is the same. -/
def Indifferent (env : Environment) (check : Check) (keep : Bool) (s : Schema) : Prop :=
  ∀ value p q prefs, Schema.Agree env s p q →
    Matches env Eq (check s value p prefs) (check (s.erase keep) value q prefs)

theorem Indifferent.mirrors {env : Environment} {check : Check} {keep : Bool} {s : Schema}
    (h : Indifferent env check keep s) : Mirrors (BothSound env) env check (Schema.erase keep) s :=
  fun value p q prefs hagree => matches_iff_lockstep.mp (h value p q prefs hagree)

namespace Schema

/-- Only copies of one item schema bear one stamp, at every depth. -/
def Honest (s : Schema) : Prop :=
  s.Everywhere fun t => ∀ form, t.node.form = .array form → form.HonestItems

theorem Honest.updateFlags {s : Schema} (h : s.Honest) (f : Flags → Flags) :
    (s.updateFlags f).Honest :=
  everywhere_iff.mpr ⟨h.self, fun _ hchild => Everywhere.inner h hchild⟩

end Schema

/-- The check is indifferent to marks, stamps at least where only copies bear one. -/
def Careful (env : Environment) (check : Check) : Prop :=
  ∀ keep s, keep = true ∨ s.Honest → Indifferent env check keep s

namespace Site

/-- The same check by the schema erased, at another position. -/
def twin (site : Site) (keep : Bool) (q : Position) : Site :=
  { site with schema := site.schema.erase keep, position := q }

/-- What is known of a site and its twin: they agree on what is read, and what is inside may be
checked either way. -/
structure Twin (check : Check) (keep : Bool) (site : Site) (q : Position) : Prop where
  agree : Schema.Agree site.env site.schema site.position q
  inner : ∀ levels child, (levels, child) ∈ site.schema.visited →
    Indifferent site.env check keep child

namespace Twin

variable {check : Check} {keep : Bool} {site : Site} {q : Position} (h : site.Twin check keep q)

theorem node (site : Site) (keep : Bool) (q : Position) :
    (site.twin keep q).node = (site.node.map (Schema.erase keep)).withoutCell :=
  Schema.node_erase keep site.schema

include h

theorem alike : Site.Alike (Schema.erase keep) site (site.twin keep q) where
  env := rfl
  input := rfl
  path := h.agree.path
  flags := by
    rw [node]
    rfl
  allowed := by
    rw [node]
    rfl
  denied := by
    rw [node]
    rfl
  empty := congrArg Node.empty (node site keep q)
  rules := congrArg Node.rules (node site keep q)
  form := by
    rw [node]
    -- erasing takes the cell of a lazy node, and changes nothing else in forms
    show Form.Alike _ site.node.form (site.node.form.map _).withoutCell
    cases site.node.form with
    | lazy form => exact .lazy rfl
    | _ => exact .map _
  prefs := rfl
  sees := fun _ hlook value => h.agree.own hlook value site.prefs
  customs := fun _ _ _ _ => rfl
  defaults := fun _ _ _ _ => rfl

theorem mirror : site.Mirror (BothSound site.env) check (Schema.erase keep) (site.twin keep q) where
  alike := h.alike
  prefs := rfl
  agree := h.agree
  inner := fun levels t ht => (h.inner levels t ht).mirrors

end Twin

end Site

/-! ### What arrays recall -/

namespace ArrayForm.Ground

variable {check : Check} {site : Site} {q : Position} {form : ArrayForm Schema}

section

variable (h : site.Twin check false q) (hform : site.node.form = .array form) (parent : Value)

include h hform

/-- Where only copies bear one stamp, required schemas that bear one number give one outcome. -/
theorem reliable_of_honest (hhonest : form.HonestItems) : Reliable ⟨site, form, parent⟩ check := by
  intro n s t hs ht i member prefs
  have herased {u : Schema} (hu : (n, u) ∈ form.numberedRequireds) :=
    h.inner 1 u (visited_of_numbered (g := ⟨site, form, parent⟩) hform hu) member _ _ prefs
      (Schema.Agree.refl u ((⟨site, form, parent⟩ : Ground).position i))
  have hsame : t.erase false = s.erase false := bare_of_numbered hhonest hs ht
  have hright := herased ht
  rw [hsame] at hright
  exact (herased hs).trans (hright.symm.mono fun _ _ heq => heq.symm)

theorem reliable_twin :
    Reliable (mirror ⟨site, form, parent⟩ (Schema.erase false) (site.twin false q)) check := by
  intro n s t hs ht i member prefs
  have hsame : t.erase false = s.erase false := bare_of_numbered (honestItems_erase form) hs ht
  have hs := (place_of_numbered hs).1
  have ht := (place_of_numbered ht).1
  unfold mirror at hs ht
  rw [(unseen_erase false).requireds_map] at hs ht
  obtain ⟨u, hu, rfl⟩ := List.mem_map.mp hs
  obtain ⟨v, -, rfl⟩ := List.mem_map.mp ht
  -- both are erased already, so that the two are one
  rw [Schema.erase_erase, Schema.erase_erase] at hsame
  have hsame : v.erase false = u.erase false := hsame
  have hvisited := visited_of_items hform (List.mem_append_left _ (List.mem_filter.mp hu).1)
  have hu := h.inner 1 u hvisited member _ _ prefs (h.agree.nest hvisited (.index i) parent)
  rw [hsame]
  exact (hu.symm.mono fun _ _ heq => heq.symm).trans hu

end

theorem recall_twin {keep : Bool} (h : site.Twin check keep q)
    (hform : site.node.form = .array form)
    (hhonest : keep = true ∨ form.HonestItems) (parent : Value) :
    ∃ R, Recall (BothSound site.env) check (Schema.erase keep) ⟨site, form, parent⟩
      (site.twin keep q) R := by
  cases keep with
  | true =>
    exact ⟨_, recall_of_kept h.mirror hform (unseen_erase true) fun s t => isSame_erase true s t⟩
  | false =>
    have hhonest := hhonest.resolve_left Bool.false_ne_true
    exact ⟨_, recall_of_reliable h.mirror hform (unseen_erase false)
      (reliable_of_honest h hform parent hhonest) (reliable_twin h hform parent)⟩

end ArrayForm.Ground

/-! ### Whole checks -/

variable {env : Environment} {check : Check}

theorem Site.Twin.whole {site : Site} {keep : Bool} {q : Position} (h : site.Twin check keep q)
    (hsteady : site.env.Steady) (hcareful : Careful site.env check)
    (htrusted : keep = true ∨ site.schema.Honest) :
    site.MirrorWhole (BothSound site.env) check (Schema.erase keep) (site.twin keep q) where
  toMirror := h.mirror
  unseen := ArrayForm.unseen_erase keep
  array := by
    intro form hform
    refine ⟨?_, ArrayForm.Ground.recall_twin h hform
      (htrusted.imp_right fun hh => hh.self form hform)⟩
    intro s hs
    obtain ⟨item, hitem, rfl⟩ := List.mem_map.mp hs
    have hinner : item ∈ site.schema.inner := by
      refine List.mem_append_right _ ?_
      rw [show site.schema.node.form = .array form from hform]
      exact List.mem_append_left _ (List.mem_filter.mp hitem).1
    exact (hcareful keep _ (htrusted.imp_right fun hh =>
      Schema.Honest.updateFlags (Schema.Everywhere.inner hh hinner) _)).mirrors
  forced := by
    intro form form' hform _ hname
    refine matches_iff_lockstep.mp ((Environment.force_matches hsteady form form' hname).mono ?_)
    rintro t u ⟨ht, hu⟩ value
    -- both schemas are the product but for cells
    have hagree : Schema.Agree site.env t site.position q :=
      (h.agree.made hform 0).of_reads fun _ _ => Schema.Reads.congr ht.symm
    have hleft := hcareful true t (.inl rfl) value site.position q site.prefs hagree
    have hright := hcareful true u (.inl rfl) value q q site.prefs (Schema.Agree.refl u q)
    rw [ht, ← hu] at hleft
    exact matches_iff_lockstep.mp (hleft.trans (hright.symm.mono fun _ _ heq => heq.symm))

theorem Check.node_careful (hsteady : env.Steady) (hcareful : Careful env check) :
    Careful env (Check.node env check) := by
  intro keep s htrusted value p q prefs hagree
  have hprefs : (s.erase keep).node.prefs = s.node.prefs := by
    rw [Schema.node_erase]
    rfl
  unfold Check.node
  rw [hprefs]
  have htwin : (⟨env, s, p, prefs.merged s.node.prefs, value⟩ : Site).Twin check keep q :=
    ⟨hagree, fun levels child hchild => hcareful keep child
      (htrusted.imp_right fun hh => Schema.Everywhere.inner hh (Node.mem_inner_of_visited hchild))⟩
  exact matches_iff_lockstep.mpr (htwin.whole hsteady hcareful htrusted).run

/-- Checks are indifferent to marks. -/
theorem Check.within_careful (hsteady : env.Steady) (fuel : Nat) :
    Careful env (Check.within env fuel) := by
  induction fuel with
  | zero => exact fun _ _ _ _ _ _ _ _ => .failure
  | succ fuel ih => exact Check.node_careful hsteady ih

namespace Check

variable (hsteady : env.Steady) (fuel : Nat) (value : Value) (p : Position) (prefs : Preferences)

include hsteady

/-- Schemas that are the same but for what is erased come to the same, where positions
agree on what is read. -/
theorem check_erased {keep : Bool} {s t : Schema} {q : Position} (hs : keep = true ∨ s.Honest)
    (ht : keep = true ∨ t.Honest) (h : t.erase keep = s.erase keep)
    (hagree : Schema.Agree env s p q) :
    Matches env Eq (Check.within env fuel s value p prefs)
      (Check.within env fuel t value q prefs) := by
  have hleft := within_careful hsteady fuel keep s hs value p q prefs hagree
  have hright := within_careful hsteady fuel keep t ht value q q prefs (Schema.Agree.refl t q)
  rw [h] at hright
  exact hleft.trans (hright.symm.mono fun _ _ heq => heq.symm)

/-- Schemas that are the same but for marks come to the same. -/
theorem check_congr {s t : Schema} (hs : s.Honest) (ht : t.Honest) (h : t.bare = s.bare) :
    Matches env Eq (Check.within env fuel s value p prefs)
      (Check.within env fuel t value p prefs) :=
  check_erased hsteady fuel value p prefs (.inr hs) (.inr ht) h (Schema.Agree.refl s p)

/-- Where positions agree on what a schema reads, its check comes to the same. -/
theorem check_agree {s : Schema} {q : Position} (h : Schema.Agree env s p q) :
    Matches env Eq (Check.within env fuel s value p prefs)
      (Check.within env fuel s value q prefs) :=
  check_erased hsteady fuel value p prefs (.inl rfl) (.inl rfl) rfl h

/-- A check comes to the same whatever was made before. -/
theorem check_self (s : Schema) :
    Matches env Eq (Check.within env fuel s value p prefs)
      (Check.within env fuel s value p prefs) :=
  check_agree hsteady fuel value p prefs (Schema.Agree.refl s p)

end Check

end Conform
