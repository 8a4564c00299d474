import Mathlib.Data.List.Forall2
import Conform.Proofs.Mirror

/-!
# Arrays and their mirrors

A required item schema that failed for a member is not tried again: its outcome is recalled by a
number that copies of one schema share. In a mirror the numbers may be others, where the change
takes away the stamps by which copies are known. What is recalled on either side is then asked to be
what trying once more would give (`Ground.Recall`); where all numbers stay, nothing is asked
(`Ground.recall_of_kept`). Given that, the walk over the members is mirrored.

A walk and its mirror have the outputs, the reports and the places in common, and required items
left that are numbered pairwise (`Walk.Mirror`, `ArrayForm.Numbered`). Each step of the walk keeps
this: a member is excluded by forbidden items, or goes to its place, or is tried with the required
items and then with the others (`isExcluded_mirrors`, `tryRequireds_mirrors`,
`tryInclusions_mirrors`), and what comes of it is taken over alike (`takeOrdered_mirrors` and the
two beside it). `step_mirrors` puts them together, and the walk over all members follows by
induction on the members, the end of it with reports on what was missed and with defaults for the
places left by `close_mirrors`.

The relation of workshops is left open, as everywhere in these comparisons: that inner checks come
to the same, and keep it, is in the hypothesis on the site.

Main statement: `ArrayForm.base_mirrors`.
-/

namespace Conform

/-- Items that bear one stamp are one schema but for marks inside. -/
def ArrayForm.HonestItems (form : ArrayForm Schema) : Prop :=
  ∀ s ∈ form.items, ∀ t ∈ form.items, s.isSame t = true → t.bare = s.bare

namespace ArrayForm

/-- A change of schemas that the choice among items does not see. -/
structure KeepsChoice (f : Schema → Schema) : Prop where
  presence : ∀ s, (f s).node.flags.presence = s.node.flags.presence
  exclusion : ∀ s, (f s).updateFlags ({ · with presence := some .optional }) =
    f (s.updateFlags ({ · with presence := some .optional }))

/-- A change of schemas that neither the choice among items nor a report about them sees. -/
structure Unseen (f : Schema → Schema) : Prop extends KeepsChoice f where
  label : ∀ s, (f s).node.flags.label = s.node.flags.label

/-- No change at all keeps apart what is apart. -/
theorem unseen_id : Unseen id where
  presence := fun _ => rfl
  exclusion := fun _ => rfl
  label := fun _ => rfl

/-- Marks do not bear on the choice among items. -/
theorem unseen_erase (keep : Bool) : Unseen (Schema.erase keep) where
  presence := fun s => by
    rw [Schema.node_erase]
    rfl
  exclusion := fun s => by
    rw [Schema.erase_eq, Schema.erase_eq keep (s.updateFlags _)]
    cases keep <;> rfl
  label := fun s => by
    rw [Schema.node_erase]
    rfl

/-- Schemas without marks are known as copies only if their stamps are kept. -/
theorem isSame_erase (keep : Bool) (s t : Schema) :
    (s.erase keep).isSame (t.erase keep) = (keep && s.isSame t) := by
  unfold Schema.isSame
  rw [Schema.erase_eq, Schema.erase_eq keep t]
  cases keep <;> rfl

variable {W : Workshop → Workshop → Prop} {check : Check} {f : Schema → Schema}
  {form : ArrayForm Schema}

namespace KeepsChoice

variable (h : KeepsChoice f)

include h

/-- Schemas are picked by their presence, which the change keeps. -/
theorem filter_presence (test : Option Presence → Bool) (schemas : List Schema) :
    (schemas.map f).filter (fun s => test s.node.flags.presence) =
      (schemas.filter fun s => test s.node.flags.presence).map f := by
  rw [List.filter_map]
  congr 2
  funext s
  show test (f s).node.flags.presence = _
  rw [h.presence]

variable (form)

/-- The required items of the mirror are the changed ones. -/
theorem requireds_map : (form.map f).requireds = form.requireds.map f :=
  h.filter_presence (fun presence => decide (presence = some .required)) form.items

/-- The items that may be there are the changed ones. -/
theorem inclusions_map : (form.map f).inclusions = form.inclusions.map f :=
  h.filter_presence
    (fun presence => decide (presence ≠ some .required ∧ presence ≠ some .forbidden)) form.items

/-- The forbidden items are the changed ones. -/
theorem exclusions_map : (form.map f).exclusions = form.exclusions.map f := by
  have hfilter := h.filter_presence (fun presence => decide (presence = some .forbidden)) form.items
  unfold exclusions
  show ((form.items.map f).filter _).map _ = _
  rw [hfilter, List.map_map, List.map_map]
  exact List.map_congr_left fun s _ => h.exclusion s

/-- The numbers of the mirror are given anew, by the first copy of each changed schema. -/
theorem numberedRequireds_map : (form.map f).numberedRequireds = form.requireds.zipIdx.map
    fun x => (((form.requireds.map f).findIdx? (f x.1).isSame).getD x.2, f x.1) := by
  unfold numberedRequireds
  dsimp only
  rw [h.requireds_map, List.zipIdx_map, List.map_map]
  rfl

end KeepsChoice

/-! ### Numbers -/

/-- The required schemas with their numbers, each beside the one it is changed to. -/
def numberedPairs (form : ArrayForm Schema) (f : Schema → Schema) :
    List ((Nat × Schema) × (Nat × Schema)) :=
  form.numberedRequireds.zip (form.map f).numberedRequireds

/-- Some required schemas with their numbers, and what they are changed to. -/
def Numbered (form : ArrayForm Schema) (f : Schema → Schema) :
    List (Nat × Schema) → List (Nat × Schema) → Prop :=
  List.Forall₂ fun x y => (x, y) ∈ form.numberedPairs f

/-- All required items of either side are numbered pairwise. -/
theorem numbered_all (h : KeepsChoice f) (form : ArrayForm Schema) :
    form.Numbered f form.numberedRequireds (form.map f).numberedRequireds := by
  refine List.forall₂_iff_zip.mpr ⟨?_, fun hpair => hpair⟩
  rw [h.numberedRequireds_map]
  unfold numberedRequireds
  dsimp only
  rw [List.length_map, List.length_map]

/-- The second schema of a pair is the first one, changed. -/
theorem schema_of_pair (h : KeepsChoice f) {x y : Nat × Schema}
    (hpair : (x, y) ∈ form.numberedPairs f) : y.2 = f x.2 := by
  have hall : List.Forall₂ (fun x y : Nat × Schema => y.2 = f x.2) form.numberedRequireds
      (form.map f).numberedRequireds := by
    rw [h.numberedRequireds_map]
    unfold numberedRequireds
    dsimp only
    rw [List.forall₂_map_left_iff, List.forall₂_map_right_iff, List.forall₂_same]
    exact fun _ _ => rfl
  exact (List.forall₂_iff_zip.mp hall).2 hpair

/-- A change that leaves it as it is which schemas are copies leaves the numbers. -/
theorem number_of_pair (h : KeepsChoice f) (hsame : ∀ s t, (f s).isSame (f t) = s.isSame t)
    {x y : Nat × Schema} (hpair : (x, y) ∈ form.numberedPairs f) : y.1 = x.1 := by
  have hall : List.Forall₂ (fun x y : Nat × Schema => y.1 = x.1) form.numberedRequireds
      (form.map f).numberedRequireds := by
    rw [h.numberedRequireds_map]
    unfold numberedRequireds
    dsimp only
    rw [List.forall₂_map_left_iff, List.forall₂_map_right_iff, List.forall₂_same]
    intro x _
    have hcopies : (f x.1).isSame ∘ f = x.1.isSame := funext (hsame x.1)
    rw [List.findIdx?_map, hcopies]
  exact (List.forall₂_iff_zip.mp hall).2 hpair

/-- A number is the place of a required schema, of which the numbered one is a copy. -/
theorem place_of_numbered {n : Nat} {s : Schema} (hs : (n, s) ∈ form.numberedRequireds) :
    s ∈ form.requireds ∧ ∃ t, form.requireds[n]? = some t ∧ (s.isSame t = true ∨ t = s) := by
  obtain ⟨⟨u, place⟩, hplace, heq⟩ := List.mem_map.mp hs
  obtain ⟨hnumber, hschema⟩ := Prod.mk.inj heq
  obtain rfl : u = s := hschema
  have hget : form.requireds[place]? = some u := by
    have hget := List.getElem?_eq_some_iff.mpr ⟨_, (List.mem_zipIdx' hplace).2.symm⟩
    exact hget
  refine ⟨List.mem_of_getElem? hget, ?_⟩
  cases hfind : form.requireds.findIdx? u.isSame with
  | none =>
    rw [hfind] at hnumber
    obtain rfl : place = n := hnumber
    exact ⟨u, hget, .inr rfl⟩
  | some first =>
    rw [hfind] at hnumber
    obtain rfl : first = n := hnumber
    obtain ⟨hlt, hsame, -⟩ := List.findIdx?_eq_some_iff_getElem.mp hfind
    exact ⟨_, List.getElem?_eq_getElem hlt, .inl hsame⟩

/-- Among honest items a number stands for one schema but for marks. -/
theorem bare_of_numbered (hhonest : form.HonestItems) {n : Nat} {s t : Schema}
    (hs : (n, s) ∈ form.numberedRequireds) (ht : (n, t) ∈ form.numberedRequireds) :
    t.bare = s.bare := by
  have hitems {u : Schema} (hu : u ∈ form.requireds) : u ∈ form.items := (List.mem_filter.mp hu).1
  have hfirst {u first : Schema} (hu : u ∈ form.requireds) (hf : form.requireds[n]? = some first)
      (h : u.isSame first = true ∨ first = u) : first.bare = u.bare := by
    rcases h with hsame | rfl
    · exact hhonest u (hitems hu) first (hitems (List.mem_of_getElem? hf)) hsame
    · rfl
  obtain ⟨hsin, first, hget, hsame⟩ := place_of_numbered hs
  obtain ⟨htin, first', hget', hsame'⟩ := place_of_numbered ht
  obtain rfl : first = first' := Option.some.inj (hget ▸ hget')
  rw [← hfirst hsin hget hsame, ← hfirst htin hget' hsame']

/-- Without stamps nothing counts as a copy. -/
theorem honestItems_erase (form : ArrayForm Schema) :
    (form.map (Schema.erase false)).HonestItems := by
  intro s hs t ht hsame
  obtain ⟨s, -, rfl⟩ := List.mem_map.mp hs
  obtain ⟨t, -, rfl⟩ := List.mem_map.mp ht
  rw [isSame_erase] at hsame
  exact absurd hsame (by simp)

/-- Lists that are related member by member are empty together. -/
theorem isEmpty_of_forall₂ {α β : Type} {R : α → β → Prop} {xs : List α} {ys : List β}
    (h : List.Forall₂ R xs ys) : ys.isEmpty = xs.isEmpty := by
  cases h <;> rfl

namespace Ground

/-! ### What the items hand values on to -/

/-- An array hands its members on to its items and its places. -/
theorem visited_of_items {s : Schema} {form : ArrayForm Schema} (hform : s.node.form = .array form)
    {t : Schema} (ht : t ∈ form.items ++ form.ordered) : (1, t) ∈ s.visited := by
  unfold Schema.visited Node.visited
  refine List.mem_append_right _ ?_
  rw [hform]
  exact List.mem_map_of_mem ht

section

variable {g : Ground} (hform : g.site.node.form = .array g.form)

include hform

/-- An array hands members on to the numbered required items. -/
theorem visited_of_numbered {x : Nat × Schema} (hx : x ∈ g.form.numberedRequireds) :
    (1, x.2) ∈ g.site.schema.visited :=
  visited_of_items hform (List.mem_append_left _
    (List.mem_filter.mp (place_of_numbered (n := x.1) (s := x.2) hx).1).1)

/-- An array hands members on to the candidates for a member behind the last place. -/
theorem visited_of_candidates {c : Option Nat × Schema} (hc : c ∈ g.candidates) :
    (1, c.2) ∈ g.site.schema.visited := by
  rcases List.mem_append.mp hc with hitem | hrequired
  · obtain ⟨s, hs, rfl⟩ := List.mem_map.mp hitem
    exact visited_of_items hform (List.mem_append_left _ (List.mem_filter.mp hs).1)
  · obtain ⟨x, hx, rfl⟩ := List.mem_map.mp hrequired
    exact visited_of_numbered hform hx

end

/-! ### What is recalled -/

variable {g : Ground} {b : Site}

/-- The same walk by the mirror. -/
def mirror (g : Ground) (f : Schema → Schema) (b : Site) : Ground := ⟨b, g.form.map f, g.parent⟩

/-- Failures that may be recalled for a member in a walk and in its mirror: none at first,
then those that came of trying, and each schema comes to the same on both sides, whether its
outcome is recalled or not. -/
structure Recall (W : Workshop → Workshop → Prop) (check : Check) (f : Schema → Schema)
    (g : Ground) (b : Site)
    (R : Nat → Value → List (Nat × Outcome) → List (Nat × Outcome) → Prop) : Prop where
  start : ∀ i member, R i member [] []
  add : ∀ {i member failed failed' x y o}, R i member failed failed' →
    (x, y) ∈ g.form.numberedPairs f →
    Lockstep.Comes W (check x.2 member (g.position i) g.site.prefs)
      (check y.2 member ((g.mirror f b).position i) b.prefs) o o →
    R i member (failed ++ [(x.1, o)]) (failed' ++ [(y.1, o)])
  outcome : ∀ {i member failed failed' x y}, R i member failed failed' →
    (x, y) ∈ g.form.numberedPairs f → Lockstep W Eq (g.outcome check i member failed (some x.1) x.2)
      ((g.mirror f b).outcome check i member failed' (some y.1) y.2)

/-- Failures with the numbers of schemas that they came of. -/
def Recalls (g : Ground) (check : Check) (i : Nat) (member : Value)
    (failed : List (Nat × Outcome)) : Prop :=
  ∀ n o, (n, o) ∈ failed → ∃ s, (n, s) ∈ g.form.numberedRequireds ∧
    Comes g.site.env (check s member (g.position i) g.site.prefs) o

/-- Schemas of one number give one outcome. -/
def Reliable (g : Ground) (check : Check) : Prop :=
  ∀ n s t, (n, s) ∈ g.form.numberedRequireds → (n, t) ∈ g.form.numberedRequireds → ∀ i member prefs,
    Matches g.site.env Eq (check s member (g.position i) prefs)
    (check t member (g.position i) prefs)

/-- What is recalled is what trying once more would give. -/
theorem Reliable.outcome (h : g.Reliable check) {i : Nat} {member : Value}
    {failed : List (Nat × Outcome)}
    (hfailed : g.Recalls check i member failed) {n : Nat} {t : Schema}
    (ht : (n, t) ∈ g.form.numberedRequireds) :
    Matches g.site.env Eq (g.outcome check i member failed (some n) t)
      (check t member (g.position i) g.site.prefs) := by
  unfold Ground.outcome
  dsimp only [Option.bind]
  cases hlook : failed.lookup n with
  | none => exact h n t t ht ht i member _
  | some o =>
    obtain ⟨s, hs, hcomes⟩ := hfailed n o (mem_of_lookup hlook)
    have hgives := (h n s s hs hs i member _).gives hcomes
    exact (hgives.matches_pure.symm.mono fun _ _ heq => heq.symm).trans (h n s t hs ht i member _)

/-- One more failure is recalled as what trying came to. -/
theorem Recalls.add {i : Nat} {member : Value} {failed : List (Nat × Outcome)}
    (h : g.Recalls check i member failed)
    {x : Nat × Schema} (hx : x ∈ g.form.numberedRequireds) {o : Outcome}
    (ho : Comes g.site.env (check x.2 member (g.position i) g.site.prefs) o) :
    g.Recalls check i member (failed ++ [(x.1, o)]) := by
  intro m o hmem
  rcases List.mem_append.mp hmem with hold | hnew
  · exact h m o hold
  · obtain ⟨rfl, rfl⟩ := Prod.mk.inj (List.mem_singleton.mp hnew)
    exact ⟨x.2, hx, ho⟩

section

variable (h : g.site.Mirror W check f b) (hform : g.site.node.form = .array g.form) (hf : Unseen f)

include h hform

/-- What item schemas give, whether they stand among the items or the places. -/
theorem item_mirrors {s : Schema} (hs : s ∈ g.form.items ++ g.form.ordered) (i : Nat)
    (parent member : Value) (prefs : Preferences) :
    Lockstep W Eq (check s member (g.site.position.nest (.index i) parent) prefs)
      (check (f s) member (b.position.nest (.index i) parent) prefs) :=
  h.below (visited_of_items hform hs) (.index i) parent member prefs

include hf

/-- Trying a required item and its partner comes to the same. -/
theorem required_mirrors {x y : Nat × Schema} (hpair : (x, y) ∈ g.form.numberedPairs f)
    (i : Nat) (member : Value) : Lockstep W Eq (check x.2 member (g.position i) g.site.prefs)
      (check y.2 member ((g.mirror f b).position i) b.prefs) := by
  rw [schema_of_pair hf.toKeepsChoice hpair, h.prefs]
  exact h.below (visited_of_numbered hform (List.of_mem_zip hpair).1) (.index i) g.parent member _

/-- Where the numbers stay, both sides recall the same. -/
theorem recall_of_kept (hsame : ∀ s t, (f s).isSame (f t) = s.isSame t) :
    Recall W check f g b fun _ _ failed failed' => failed' = failed where
  start := fun _ _ => rfl
  add := by
    rintro i member failed _ x y o rfl hpair -
    rw [number_of_pair hf.toKeepsChoice hsame hpair]
  outcome := by
    rintro i member failed _ x y rfl hpair
    unfold Ground.outcome
    dsimp only [Option.bind]
    rw [number_of_pair hf.toKeepsChoice hsame hpair]
    split
    · exact .pure rfl
    · exact required_mirrors h hform hf hpair i member

end

/-- Where schemas of one number give one outcome on either side, both recall
what trying would give. -/
theorem recall_of_reliable (h : g.site.Mirror (BothSound g.site.env) check f b)
    (hform : g.site.node.form = .array g.form) (hf : Unseen f) (hreliable : g.Reliable check)
    (hreliable' : (g.mirror f b).Reliable check) :
    Recall (BothSound g.site.env) check f g b fun i member failed failed' =>
      g.Recalls check i member failed ∧ (g.mirror f b).Recalls check i member failed' where
  start := fun _ _ =>
    ⟨fun _ _ hmem => absurd hmem List.not_mem_nil, fun _ _ hmem => absurd hmem List.not_mem_nil⟩
  add := by
    rintro i member failed failed' x y o ⟨hleft, hright⟩ hpair hcomes
    obtain ⟨hx, hy⟩ := List.of_mem_zip hpair
    have henv : (g.mirror f b).site.env = g.site.env := h.alike.env
    exact ⟨hleft.add hx hcomes.left, hright.add hy (henv ▸ hcomes.right)⟩
  outcome := by
    rintro i member failed failed' x y ⟨hleft, hright⟩ hpair
    obtain ⟨hx, hy⟩ := List.of_mem_zip hpair
    have henv : (g.mirror f b).site.env = g.site.env := h.alike.env
    have hleft := hreliable.outcome hleft hx
    have hright := hreliable'.outcome hright hy
    rw [henv] at hright
    have hboth := matches_iff_lockstep.mpr (required_mirrors h hform hf hpair i member)
    exact matches_iff_lockstep.mp
      ((hleft.trans hboth).trans (hright.symm.mono fun _ _ heq => heq.symm))

end Ground

/-! ### The walk -/

/-- How far a walk and its mirror have come. -/
structure Walk.Mirror (form : ArrayForm Schema) (f : Schema → Schema) (a b : Walk) : Prop where
  requireds : form.Numbered f a.requireds b.requireds
  ordereds : b.ordereds = a.ordereds.map f
  listed : ∀ s ∈ a.ordereds, s ∈ form.ordered
  out : b.out = a.out
  reports : b.reports = a.reports

/-- What a member does to a walk and to its mirror. -/
inductive Step.Mirror (form : ArrayForm Schema) (f : Schema → Schema) : Step → Step → Prop
  | next {a b : Walk} : Walk.Mirror form f a b → Step.Mirror form f (.next a) (.next b)
  | finish {a b : Walk} : Walk.Mirror form f a b → Step.Mirror form f (.finish a) (.finish b)
  | abort (reports : List Report) : Step.Mirror form f (.abort reports) (.abort reports)

namespace Walk.Mirror

variable {a b : Walk}

/-- The mirror puts out the same values. -/
theorem push (hw : Walk.Mirror form f a b) (value : Value) :
    Walk.Mirror form f { a with out := a.out ++ [value] } { b with out := b.out ++ [value] } :=
  ⟨hw.requireds, hw.ordereds, hw.listed, congrArg (· ++ [value]) hw.out, hw.reports⟩

/-- The mirror reports the same. -/
theorem report (hw : Walk.Mirror form f a b) (reports : List Report) :
    Walk.Mirror form f { a with reports := a.reports ++ reports }
      { b with reports := b.reports ++ reports } :=
  ⟨hw.requireds, hw.ordereds, hw.listed, hw.out, congrArg (· ++ reports) hw.reports⟩

/-- The mirror uses up its places in step. -/
theorem tail (hw : Walk.Mirror form f a b) :
    Walk.Mirror form f { a with ordereds := a.ordereds.tail }
      { b with ordereds := b.ordereds.tail } := by
  refine ⟨hw.requireds, ?_, fun s hs => hw.listed s (List.mem_of_mem_tail hs), hw.out, hw.reports⟩
  dsimp only
  rw [hw.ordereds, List.map_tail]

end Walk.Mirror

namespace Ground

variable {g : Ground} {b : Site} {walk walk' : Walk}
  {R : Nat → Value → List (Nat × Outcome) → List (Nat × Outcome) → Prop}

/-- What came of trying the required schemas, and of trying their mirrors. -/
inductive Tried.Mirror (form : ArrayForm Schema) (f : Schema → Schema)
    (R : List (Nat × Outcome) → List (Nat × Outcome) → Prop) : Tried → Tried → Prop
  | matched (outcome : Outcome) {left left' : List (Nat × Schema)} : form.Numbered f left left' →
      Tried.Mirror form f R (.matched outcome left) (.matched outcome left')
  | failed {failed failed' : List (Nat × Outcome)} : R failed failed' →
      Tried.Mirror form f R (.failed failed) (.failed failed')

section

variable (h : g.site.Mirror W check f b)

include h

/-- Members are reported on alike. -/
theorem memberReport_mirror : (g.mirror f b).memberReport = g.memberReport := by
  funext code i member context
  unfold memberReport
  refine congrFun
    (congrFun (congrFun (reportAt_congr (congrArg Flags.label h.alike.flags) ?_) _) _) _
  show b.position.path ++ _ = g.site.position.path ++ _
  rw [h.agree.path]

omit h in
/-- Holes are the same. -/
theorem isHole_mirror : (g.mirror f b).isHole = g.isHole := rfl

/-- A failure ends both walks, or both go on. -/
theorem fail_mirrors (hw : Walk.Mirror g.form f walk walk') (reports : List Report)
    {goOn goOn' : Walk → Step}
    (hgo : ∀ a b, Walk.Mirror g.form f a b → Step.Mirror g.form f (goOn a) (goOn' b)) :
    Step.Mirror g.form f (g.fail walk reports goOn) ((g.mirror f b).fail walk' reports goOn') := by
  have hreport := hw.report reports
  have hprefs : (g.mirror f b).site.prefs = g.site.prefs := h.prefs
  unfold fail
  rw [hprefs]
  split
  · dsimp only
    rw [hw.reports]
    exact .abort _
  · exact hgo _ _ hreport

/-- What comes of a member that an item accepts is the same. -/
theorem takeIncluded_mirrors (hw : Walk.Mirror g.form f walk walk') (i : Nat) (outcome : Outcome) :
    Step.Mirror g.form f (g.takeIncluded walk i outcome)
      ((g.mirror f b).takeIncluded walk' i outcome) := by
  unfold takeIncluded
  rw [memberReport_mirror h, isHole_mirror]
  split
  · exact .next hw
  · split
    · exact fail_mirrors h hw _ fun _ _ => .next
    · exact .next (hw.push _)

/-- What comes of a member that a required item accepts is the same. -/
theorem takeRequired_mirrors (hw : Walk.Mirror g.form f walk walk') (i : Nat) (outcome : Outcome) :
    Step.Mirror g.form f (g.takeRequired walk i outcome)
      ((g.mirror f b).takeRequired walk' i outcome) := by
  unfold takeRequired
  rw [memberReport_mirror h, isHole_mirror]
  dsimp only
  split
  · exact fail_mirrors h hw _ fun _ _ hw => .next (hw.push _)
  · exact .next (hw.push _)

/-- What comes of a member at its place is the same. -/
theorem takeOrdered_mirrors (hw : Walk.Mirror g.form f walk walk') (i : Nat) (outcome : Outcome) :
    Step.Mirror g.form f (g.takeOrdered walk i outcome)
      ((g.mirror f b).takeOrdered walk' i outcome) := by
  unfold takeOrdered
  rw [memberReport_mirror h, isHole_mirror]
  split
  · exact fail_mirrors h hw _ fun _ _ hw => .next (hw.push _)
  · split
    · exact .next hw
    · split
      · exact fail_mirrors h hw _ fun _ _ => .next
      · exact .next (hw.push _)

variable (hform : g.site.node.form = .array g.form) (hf : Unseen f)

include hform hf

/-- The required items are tried in step: both come to the same match, and leave items that are
numbered pairwise, or both recall the same failures. -/
theorem tryRequireds_mirrors (hrecall : Recall W check f g b R) {i : Nat} {member : Value}
    {xs ys before before' : List (Nat × Schema)} {failed failed' : List (Nat × Outcome)}
    (hxs : g.form.Numbered f xs ys) (hbefore : g.form.Numbered f before before')
    (hfailed : R i member failed failed') :
    Lockstep W (Tried.Mirror g.form f (R i member)) (g.tryRequireds check i member before failed xs)
      ((g.mirror f b).tryRequireds check i member before' failed' ys) := by
  induction hxs generalizing before before' failed failed' with
  | nil => exact .pure (.failed hfailed)
  | @cons x y rest rest' hpair hrest ih =>
    unfold tryRequireds
    refine (required_mirrors h hform hf hpair i member).bind_of ?_
    rintro outcome _ rfl hcomes
    split
    · exact .pure (.matched outcome (List.rel_append hbefore hrest))
    · exact ih (List.rel_append hbefore (.cons hpair .nil)) (hrecall.add hfailed hpair hcomes)

/-- A candidate and its mirror give one outcome, whether it is recalled or not. -/
theorem outcome_mirrors (hrecall : Recall W check f g b R) {i : Nat} {member : Value}
    {failed failed' : List (Nat × Outcome)} (hfailed : R i member failed failed') :
    List.Forall₂ (fun c c' => Lockstep W Eq (g.outcome check i member failed c.1 c.2)
      ((g.mirror f b).outcome check i member failed' c'.1 c'.2)) g.candidates
        (g.mirror f b).candidates := by
  unfold candidates
  refine List.rel_append ?_ ?_
  · show List.Forall₂ _ _ (List.map _ (g.form.map f).inclusions)
    rw [hf.inclusions_map, List.map_map, List.forall₂_map_left_iff,
      List.forall₂_map_right_iff, List.forall₂_same]
    intro s hs
    have hitem := item_mirrors h hform
      (List.mem_append_left _ (List.mem_filter.mp hs).1) i g.parent member g.site.prefs
    unfold Ground.outcome
    dsimp only [Option.bind, Function.comp]
    rw [show (g.mirror f b).site.prefs = g.site.prefs from h.prefs]
    exact hitem
  · rw [List.forall₂_map_left_iff, List.forall₂_map_right_iff]
    exact (numbered_all hf.toKeepsChoice g.form).imp fun _ _ hpair => hrecall.outcome hfailed hpair

omit h hform hf in
/-- Candidates are tried in step if each comes to the same as its partner, recalled or tried. -/
theorem tryInclusions_mirrors {i : Nat} {member : Value} {failed failed' : List (Nat × Outcome)}
    {cs cs' : List (Option Nat × Schema)}
    (hcs : List.Forall₂ (fun c c' => Lockstep W Eq (g.outcome check i member failed c.1 c.2)
      ((g.mirror f b).outcome check i member failed' c'.1 c'.2)) cs cs') :
    Lockstep W Eq (g.tryInclusions check i member failed cs)
      ((g.mirror f b).tryInclusions check i member failed' cs') := by
  induction hcs with
  | nil => exact .pure rfl
  | @cons c c' rest rest' hc hrest ih =>
    obtain ⟨number, s⟩ := c
    obtain ⟨number', s'⟩ := c'
    have hempty : rest'.isEmpty = rest.isEmpty := isEmpty_of_forall₂ hrest
    unfold tryInclusions
    refine hc.bind ?_
    rintro outcome _ rfl
    rw [hempty]
    split
    · exact .pure rfl
    · split
      · exact .pure rfl
      · exact ih

/-- A member behind the last place is taken alike. -/
theorem includeMember_mirrors (hrecall : Recall W check f g b R)
    (hw : Walk.Mirror g.form f walk walk') {i : Nat}
    {member : Value} {failed failed' : List (Nat × Outcome)} (hfailed : R i member failed failed') :
    Lockstep W (Step.Mirror g.form f) (g.includeMember check walk i member failed)
      ((g.mirror f b).includeMember check walk' i member failed') := by
  have hcs := outcome_mirrors h hform hf hrecall hfailed
  have hlength : (g.mirror f b).candidates.length = g.candidates.length := hcs.length_eq.symm
  have hempty : (g.mirror f b).candidates.isEmpty = g.candidates.isEmpty := isEmpty_of_forall₂ hcs
  have hprefs : (g.mirror f b).site.prefs = g.site.prefs := h.prefs
  unfold includeMember
  dsimp only
  rw [hempty, hlength, memberReport_mirror h, hprefs]
  split
  · exact .pure (.next (hw.push member))
  · refine (tryInclusions_mirrors hcs).bind ?_
    rintro ⟨taken, last⟩ _ rfl
    cases taken with
    | some outcome => exact .pure (takeIncluded_mirrors h hw i outcome)
    | none =>
      dsimp only
      split
      · exact .pure (.next hw)
      · split
        · exact .pure (fail_mirrors h hw _ fun _ _ hw => .next (hw.push member))
        · exact .pure (fail_mirrors h hw _ fun _ _ hw => .next (hw.push member))

/-- A member behind the last place is matched or left in step. -/
theorem placeMember_mirrors (hrecall : Recall W check f g b R)
    (hw : Walk.Mirror g.form f walk walk') (i : Nat) (member : Value) :
    Lockstep W (Step.Mirror g.form f) (g.placeMember check walk i member)
      ((g.mirror f b).placeMember check walk' i member) := by
  refine (tryRequireds_mirrors h hform hf hrecall hw.requireds .nil
    (hrecall.start i member)).bind ?_
  rintro _ _ (@⟨outcome, left, left', hleft⟩ | hfailed)
  · have hwalk : Walk.Mirror g.form f { walk with requireds := left }
        { walk' with requireds := left' } :=
      ⟨hleft, hw.ordereds, hw.listed, hw.out, hw.reports⟩
    exact .pure (takeRequired_mirrors h hwalk i outcome)
  · exact includeMember_mirrors h hform hf hrecall hw hfailed

omit hf in
/-- A member is excluded in both walks or in neither. -/
theorem isExcluded_mirrors {exclusions : List Schema}
    (hlisted : ∀ s ∈ exclusions, s ∈ g.form.exclusions)
    (hexcluded : ∀ s ∈ g.form.exclusions, Mirrors W g.site.env check f s)
    (i : Nat) (member : Value) : Lockstep W Eq (g.isExcluded check i member exclusions)
      ((g.mirror f b).isExcluded check i member (exclusions.map f)) := by
  have hprefs : (g.mirror f b).site.prefs = g.site.prefs := h.prefs
  refine isExcluded_lockstep fun s hs => ?_
  have hagree : Schema.Agree g.site.env s (g.position i) ((g.mirror f b).position i) := by
    obtain ⟨item, hitem, rfl⟩ := List.mem_map.mp (hlisted s hs)
    have hvisited := visited_of_items hform (List.mem_append_left _ (List.mem_filter.mp hitem).1)
    exact (h.agree.nest hvisited (.index i) g.parent).of_reads fun _ _ =>
      Schema.Reads.of_updateFlags rfl rfl
  rw [hprefs]
  exact (hexcluded s (hlisted s hs)).passes hagree member g.site.prefs

/-- One step of the walk is mirrored. -/
theorem step_mirrors (hrecall : Recall W check f g b R)
    (hexcluded : ∀ s ∈ g.form.exclusions, Mirrors W g.site.env check f s)
    (hw : Walk.Mirror g.form f walk walk') (i : Nat) (member : Value) (rest : List Value) :
    Lockstep W (Step.Mirror g.form f) (g.step check walk i member rest)
      ((g.mirror f b).step check walk' i member rest) := by
  have hitems : (g.mirror f b).form.items.isEmpty = g.form.items.isEmpty := List.isEmpty_map
  have hordered : (g.mirror f b).form.ordered.isEmpty = g.form.ordered.isEmpty := List.isEmpty_map
  have hlength : (g.mirror f b).form.ordered.length = g.form.ordered.length := List.length_map _
  have hexclusions : (g.mirror f b).form.exclusions = g.form.exclusions.map f :=
    hf.exclusions_map g.form
  have hprefs : (g.mirror f b).site.prefs = g.site.prefs := h.prefs
  unfold step
  dsimp only
  rw [hitems, hordered, hlength, hexclusions, hprefs, memberReport_mirror h, isHole_mirror]
  -- a hole is reported by both
  split
  · exact .pure (fail_mirrors h hw _ fun _ _ hw => .next hw.tail)
  · -- both find the member excluded, or neither does
    refine (isExcluded_mirrors h hform (fun _ hs => hs) hexcluded i member).bind ?_
    rintro excluded _ rfl
    split
    · exact .pure (fail_mirrors h hw _ fun _ _ hw => .next hw.tail)
    · -- the places in order come before the items
      split
      · exact placeMember_mirrors h hform hf hrecall hw i member
      · rw [hw.ordereds]
        cases hplaces : walk.ordereds with
        | nil =>
          dsimp only [List.map_nil]
          split
          · exact .pure (fail_mirrors h hw _ fun a b hw => .finish
              ⟨hw.requireds, hw.ordereds, hw.listed,
                congrArg (· ++ member :: rest) hw.out, hw.reports⟩)
          · exact placeMember_mirrors h hform hf hrecall hw i member
        | cons s ordereds =>
          have hs := hw.listed s (hplaces ▸ List.mem_cons_self ..)
          have hwalk : Walk.Mirror g.form f { walk with ordereds }
              { walk' with ordereds := ordereds.map f } :=
            ⟨hw.requireds, rfl,
              fun t ht => hw.listed t (hplaces ▸ List.mem_cons_of_mem _ ht), hw.out,
              hw.reports⟩
          dsimp only [List.map_cons]
          -- a place asks its schema, the same but for the change
          refine (item_mirrors h hform
            (List.mem_append_right _ hs) i g.parent member g.site.prefs).bind ?_
          rintro outcome _ rfl
          exact .pure (takeOrdered_mirrors h hwalk i outcome)

/-- Walks that end alike, or with the same reports. -/
theorem walk_mirrors (hrecall : Recall W check f g b R)
    (hexcluded : ∀ s ∈ g.form.exclusions, Mirrors W g.site.env check f s) (members : List Value)
    (hw : Walk.Mirror g.form f walk walk') (i : Nat) :
    Lockstep W
      (fun x y => (∃ reports, x = .error reports ∧ y = .error reports) ∨
        ∃ a b, x = .ok a ∧ y = .ok b ∧ Walk.Mirror g.form f a b)
      (g.walk check walk i members) ((g.mirror f b).walk check walk' i members) := by
  induction members generalizing walk walk' i with
  | nil => exact .pure (.inr ⟨walk, walk', rfl, rfl, hw⟩)
  | cons member rest ih =>
    unfold Ground.walk
    refine (step_mirrors h hform hf hrecall hexcluded hw i member rest).bind ?_
    rintro _ _ (hnext | hfinish | reports)
    · exact ih hnext (i + 1)
    · exact .pure (.inr ⟨_, _, rfl, rfl, hfinish⟩)
    · exact .pure (.inl ⟨reports, rfl, rfl⟩)

/-! ### The end of the walk -/

omit hf in
/-- The places left are asked for defaults in step, the last one first. -/
theorem defaultsFromEnd_mirrors {places : List (Schema × Nat)}
    (hplaces : ∀ place ∈ places, place.1 ∈ g.form.ordered) (size : Nat) (parent : Value) :
    Lockstep W Eq (g.defaultsFromEnd check size parent places)
      ((g.mirror f b).defaultsFromEnd check size parent (places.map (Prod.map f id))) := by
  have hprefs : (g.mirror f b).site.prefs = g.site.prefs := h.prefs
  induction places with
  | nil => exact .pure rfl
  | cons place before ih =>
    obtain ⟨s, offset⟩ := place
    have hs := hplaces _ (List.mem_cons_self ..)
    rw [List.map_cons]
    unfold defaultsFromEnd
    dsimp only [Prod.map]
    rw [hprefs]
    refine (item_mirrors h hform (List.mem_append_right _ hs)
      (size + offset) parent .undefined _).bind ?_
    rintro outcome _ rfl
    refine (ih fun place hplace => hplaces place (List.mem_cons_of_mem _ hplace)).bind ?_
    rintro values _ rfl
    exact .pure rfl

omit hf in
/-- The defaults that are added at the end are the same. -/
theorem defaults_mirrors {ordereds : List Schema} (hlisted : ∀ s ∈ ordereds, s ∈ g.form.ordered)
    (out : List Value) :
    Lockstep W Eq (g.defaults check out ordereds)
      ((g.mirror f b).defaults check out (ordereds.map f)) := by
  unfold Ground.defaults
  rw [List.zipIdx_map, ← List.map_reverse]
  refine Lockstep.bind (defaultsFromEnd_mirrors h hform ?_ _ _) ?_
  · rintro ⟨s, offset⟩ hplace
    have hget := List.mem_zipIdx' (List.mem_reverse.mp hplace)
    exact hlisted s (hget.2 ▸ List.getElem_mem _)
  · rintro values _ rfl
    exact .pure rfl

omit hform in
/-- Schemas that were missed are reported by their labels alone. -/
theorem missedReports_mirror (value : Value) (missed : List Schema) :
    missedReports b value (missed.map f) = missedReports g.site value missed := by
  have hlabels : (missed.map f).filterMap (fun s => s.node.flags.label.map Value.string) =
      missed.filterMap fun s => s.node.flags.label.map Value.string := by
    rw [List.filterMap_map]
    refine List.filterMap_congr fun s _ => ?_
    show (f s).node.flags.label.map _ = _
    rw [hf.label]
  unfold missedReports missedReport
  rw [hlabels, List.length_map, h.alike.report, List.isEmpty_map]

omit hform in
/-- The reports at the end are the same. -/
theorem reports_mirror (hw : Walk.Mirror g.form f walk walk') :
    (g.mirror f b).reports walk' = g.reports walk := by
  have hpending : walk'.requireds.map (·.2) = (walk.requireds.map (·.2)).map f := by
    have hsame := hw.requireds
    generalize walk.requireds = xs at hsame
    generalize walk'.requireds = ys at hsame
    induction hsame with
    | nil => rfl
    | cons hpair _ ih =>
      rw [List.map_cons, List.map_cons, List.map_cons, schema_of_pair hf.toKeepsChoice hpair, ih]
  have hmissing :=
    hf.filter_presence (fun presence => decide (presence = some .required)) walk.ordereds
  have hmissed (missed : List Schema) := missedReports_mirror (g := g) h hf (.array walk.out) missed
  unfold Ground.reports
  dsimp only
  rw [hw.ordereds, hw.out, hw.reports, hpending, hmissing]
  show walk.reports ++ missedReports b _ _ ++ missedReports b _ _ = _
  rw [hmissed, hmissed]

/-- The end of the walk comes to the same. -/
theorem close_mirrors (hw : Walk.Mirror g.form f walk walk') :
    Lockstep W Eq (g.close check walk) ((g.mirror f b).close check walk') := by
  unfold Ground.close
  dsimp only
  rw [reports_mirror h hf hw, hw.ordereds, hw.out, List.isEmpty_map]
  split
  · exact .pure rfl
  · refine (defaults_mirrors h hform hw.listed walk.out).bind ?_
    rintro values _ rfl
    exact .pure rfl

end

end Ground

/-! ### The whole -/

/-- What is known of an array and its mirror besides what is known of their sites: forbidden item
schemas may be checked either way, and so may those that are recalled. -/
structure Mirrored (W : Workshop → Workshop → Prop) (check : Check)
    (f : Schema → Schema) (a b : Site) (form : ArrayForm Schema) : Prop where
  excluded : ∀ s ∈ form.exclusions, Mirrors W a.env check f s
  recalled : ∀ parent, ∃ R, Ground.Recall W check f ⟨a, form, parent⟩ b R

theorem base_mirrors {a b : Site} (h : a.Mirror W check f b) (hform : a.node.form = .array form)
    (hf : Unseen f) (harray : form.Mirrored W check f a b) (value : Value) :
    Lockstep W Eq (form.base check a value) ((form.map f).base check b value) := by
  have hneeds : (form.map f).needsWalk = form.needsWalk := by
    have hitems : (form.map f).items.isEmpty = form.items.isEmpty := List.isEmpty_map
    have hordered : (form.map f).ordered.isEmpty = form.ordered.isEmpty := List.isEmpty_map
    unfold needsWalk
    rw [hitems, hordered]
    rfl
  have hmembers (members : List Value) :
      Lockstep W Eq (form.checkMembers check a members)
      ((form.map f).checkMembers check b members) := by
    -- the walks start with the same members to come
    have hstart : Walk.Mirror form f
        { requireds := form.numberedRequireds, ordereds := form.ordered }
        { requireds := (form.map f).numberedRequireds, ordereds := (form.map f).ordered } :=
      ⟨numbered_all hf.toKeepsChoice form, rfl, fun _ hs => hs, rfl, rfl⟩
    obtain ⟨R, hrecall⟩ := harray.recalled (.array members)
    have hwalk := Ground.walk_mirrors (g := ⟨a, form, .array members⟩) h hform hf hrecall
      harray.excluded members hstart 0
    unfold checkMembers
    refine hwalk.bind ?_
    rintro _ _ (⟨reports, rfl, rfl⟩ | ⟨walk, walk', rfl, rfl, hw⟩)
    · exact .pure rfl
    · exact Ground.close_mirrors (g := ⟨a, form, .array members⟩) h hform hf hw
  have hsome : (form.map f).members? value = form.members? value := rfl
  unfold base
  rw [hneeds, hsome, h.alike.report]
  split
  · exact .pure rfl
  · split
    · refine (hmembers _).bind ?_
      rintro result _ rfl
      exact .pure rfl
    · exact .pure rfl

end ArrayForm

end Conform
