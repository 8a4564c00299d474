import Conform.Proofs.ChildOrder
import Conform.Proofs.Abreast
import Conform.Proofs.Renames
import Conform.Proofs.Reordered

/-!
# Children in another order, phase by phase

Where a child looks up nothing, and nothing in it is lazy, what comes of it depends on what stands
under its own key and on the path alone (`Check.Fixed`). No sibling writes there, so it is the same
in every order of the children. The phases after the children take undeclared keys and dependencies
in an order of their own, which the order of the children does not bear on.

A check that the first failure has ended may have met another failure first. So each phase is
followed only as long as the check goes on (`Tracks`); that it is ended in both orders follows at
the end, since if it were not in one of them it would not be in the other one.

The phase of the children is the heart of it. A turn is the child's answer, taken over into the
working copy (`checkChild_run`), and the answers of the other children do not change by it
(`childAnswer_takeChild`). So the whole phase is a fold of answers that are known before it
begins, and folds over permutations of the children come to working copies that are alike: the
same members in another order, reports in the same places, the same keys to be stripped
(`ObjectPass.Alike`). That much is kept by the phases that follow, so an object comes to outcomes
that are alike, or is ended in both orders.

Main statement: `ObjectForm.base_alike`.
-/

namespace Conform

/-! ### Checks that depend on the value and the path -/

namespace Check

/-- What a check comes to at a path where nothing stands around. -/
def answer (check : Check) (t : Schema) (value : Value) (path : List Segment)
    (prefs : Preferences) : Option Outcome :=
  ((check t value ⟨path, []⟩ prefs).run {}).map Prod.fst

/-- Neither what stands around nor the workshop matters to the check, and it
leaves the workshop alone. -/
def Fixed (check : Check) (t : Schema) : Prop :=
  ∀ value (p : Position) prefs w,
    (check t value p prefs).run w = (check.answer t value p.path prefs).map (·, w)

/-- A schema whose check depends on value and path alone passes or fails by them. -/
theorem Fixed.passes {check : Check} {t : Schema} (h : check.Fixed t) (value : Value) (p : Position)
    (prefs : Preferences) (w : Workshop) :
    (check.passes t value p prefs).run w =
      ((check.answer t value p.path { prefs with abortEarly := true }).map Outcome.isOk).map
        (·, w) := by
  unfold Check.passes
  rw [StateT.run_bind, h value p _ w]
  cases check.answer t value p.path { prefs with abortEarly := true } <;> rfl

end Check

/-- The schema looks up nothing, and it is not lazy. -/
structure Schema.IsIsolated (t : Schema) : Prop where
  looks : t.looks = []
  kind : t.kind ≠ .lazy

/-- A schema that looks up nothing, and has nothing lazy inside, is checked by
value and path alone. -/
theorem Check.within_fixed {env : Environment} {t : Schema} (h : t.Throughout env Schema.IsIsolated)
    (fuel : Nat) : (Check.within env fuel).Fixed t := by
  intro value p prefs w
  have heager : t.Throughout env fun t => t.kind ≠ .lazy := h.mono fun _ h => h.kind
  have hagree : Schema.Agree env t ⟨p.path, []⟩ p := by
    refine ⟨rfl, fun depth look hreads => ?_⟩
    obtain ⟨u, hu, hlook⟩ := hreads
    rw [(h depth u hu).looks] at hlook
    exact absurd hlook List.not_mem_nil
  -- the relation that holds of these two workshops only says that both stay as they are
  have hmoves :=
    Check.within_eager heager (fun a b => a = {} ∧ b = w) fuel value ⟨p.path, []⟩ p prefs hagree
    {} w ⟨rfl, rfl⟩
  unfold Check.answer
  revert hmoves
  generalize (Check.within env fuel t value ⟨p.path, []⟩ prefs).run {} = r
  generalize (Check.within env fuel t value p prefs).run w = r'
  rintro (⟨heq, -, hkept⟩ | _)
  · exact congrArg some (Prod.ext heq.symm hkept)
  · rfl

/-! ### Runs over working copies -/

/-- Whenever the one run goes on to the end, so does the other one, with the same findings, and the
workshop stays as it is. -/
def Tracks (x y : Run ObjectPass) : Prop :=
  ∀ w p w₁, x.run w = some (p, w₁) → p.stopped = false →
    ∃ q, y.run w = some (q, w) ∧ p.Alike q ∧ w₁ = w

namespace Tracks

variable {x y : Run ObjectPass} {p q : ObjectPass}

/-- Two ends are related if they are unless the check has ended. -/
theorem pure (h : p.stopped = false → p.Alike q) : Tracks (Pure.pure p) (Pure.pure q) := by
  intro w p w₁ hrun hgoes
  obtain ⟨rfl, rfl⟩ := Runs.pure_some hrun
  exact ⟨q, rfl, h hgoes, rfl⟩

/-- A phase that only a check that goes on comes to. -/
theorem andThen {f g : ObjectPass → Run ObjectPass} (h : Tracks x y)
    (hnext : ∀ p q, p.Alike q → Tracks (f p) (g q)) :
    Tracks (x >>= fun p => if p.stopped then Pure.pure p else f p)
      (y >>= fun q => if q.stopped then Pure.pure q else g q) := by
  intro w p₁ w₁ hrun hgoes
  obtain ⟨p, w₂, hx, hrest⟩ := Runs.bind_some hrun
  cases hended : p.stopped with
  | true =>
    rw [if_pos hended] at hrest
    obtain ⟨rfl, -⟩ := Runs.pure_some hrest
    exact absurd (hended.symm.trans hgoes) (by simp)
  | false =>
    rw [if_neg (by simp [hended])] at hrest
    obtain ⟨q, hy, halike, rfl⟩ := h w p w₂ hx hended
    obtain ⟨q₁, hother, halike₁, rfl⟩ := hnext p q halike w₂ p₁ w₁ hrest hgoes
    refine ⟨q₁, ?_, halike₁, rfl⟩
    rw [StateT.run_bind, hy]
    show (if q.stopped = true then Pure.pure q else g q : Run ObjectPass).run w₁ = _
    rw [if_neg (by simp [halike.goes'])]
    exact hother

end Tracks

/-! ### Forms -/

namespace ObjectForm

/-- Forms that differ in the order of their children alone. -/
structure Reordered (f g : ObjectForm Schema) : Prop where
  left : f.Ordered
  right : g.Ordered
  children : g.children.Perm f.children
  isNone : g.keys.isNone = f.keys.isNone
  others : g = { f with keys := g.keys, order := g.order }

namespace Reordered

variable {f g : ObjectForm Schema} (h : f.Reordered g)

include h

/-- An order of children comes of any other one. -/
theorem symm : g.Reordered f := by
  refine ⟨h.right, h.left, h.children.symm, h.isNone.symm, ?_⟩
  rw [h.others]

/-- The children are the same, in another order. -/
theorem orderedChildren : f.orderedChildren.Perm g.orderedChildren :=
  h.left.perm_orderedChildren.trans (h.children.symm.trans h.right.perm_orderedChildren.symm)

theorem renames : g.renames = f.renames := by rw [h.others]

theorem dependencies : g.dependencies = f.dependencies := by rw [h.others]

theorem patterns : g.patterns = f.patterns := by rw [h.others]

theorem unknown : g.unknown = f.unknown := by rw [h.others]

/-- What stands inside is the same. -/
theorem mem_schemas {t : Schema} : t ∈ (Form.object g).schemas ↔ t ∈ (Form.object f).schemas := by
  have hchildren : t ∈ g.childSchemas ↔ t ∈ f.childSchemas := (h.children.map Prod.snd).mem_iff
  show t ∈ g.childSchemas ++ g.patterns.flatMap _ ↔ t ∈ f.childSchemas ++ f.patterns.flatMap _
  rw [List.mem_append, List.mem_append, hchildren, h.patterns]

theorem isPlain : g.isPlain = f.isPlain := by
  unfold ObjectForm.isPlain
  rw [h.isNone, h.renames, h.dependencies, h.patterns]

end Reordered

/-- Declaring the same children in another order gives a form that differs in their order alone. -/
theorem setChildren_reordered {form f g : ObjectForm Schema}
    (hform : Members.Distinct form.children)
    {added other : List (String × Schema)} (hadded : Members.Distinct added)
    (hperm : other.Perm added)
    (hf : form.setChildren added = .ok f)
    (hg : form.setChildren other = .ok g) : f.Reordered g := by
  have hother : Members.Distinct other := (hperm.map Prod.fst).nodup_iff.mpr hadded
  have hget (key : String) : Members.get? other key = Members.get? added key := by
    cases hfound : Members.get? added key with
    | some child => exact hother.get?_of_mem (hperm.mem_iff.mpr (Members.mem_of_get? hfound))
    | none =>
      rw [Members.get?_eq_none_iff] at hfound ⊢
      exact fun hkey => hfound ((hperm.map Prod.fst).mem_iff.mp hkey)
  obtain ⟨order, -, rfl⟩ := setChildren_eq_ok.mp hf
  obtain ⟨order', -, rfl⟩ := setChildren_eq_ok.mp hg
  refine ⟨setChildren_ordered hform hf, setChildren_ordered hform hg, ?_, rfl, rfl⟩
  refine Members.perm_of_get?_eq (hform.insertAll other) (hform.insertAll added) fun key => ?_
  show Members.get? (Members.insertAll form.children other) key =
    Members.get? (Members.insertAll form.children added) key
  rw [Members.get?_insertAll hother, Members.get?_insertAll hadded, hget]

/-- Children that read no siblings may stand in the order in which they were
declared, whatever that is. -/
theorem reordered_declared {children other : List (String × Schema)}
    (hchildren : Members.Distinct children)
    (hperm : other.Perm children) (hreads : ∀ child ∈ children, child.2.siblingRefs 1 = []) :
    Reordered { keys := some children, order := Members.keys children }
      { keys := some other, order := Members.keys other } := by
  have hordered {children : List (String × Schema)} (h : Members.Distinct children)
      (hreads : ∀ child ∈ children, child.2.siblingRefs 1 = []) :
      Ordered { keys := some children, order := Members.keys children } := by
    refine ⟨h, .refl _, fun key schema peer hmem hpeer => ?_⟩
    rw [hreads (key, schema) hmem] at hpeer
    exact absurd hpeer List.not_mem_nil
  have hother := hordered ((hperm.map Prod.fst).nodup_iff.mpr hchildren) fun child hchild =>
    hreads child (hperm.mem_iff.mp hchild)
  exact ⟨hordered hchildren hreads, hother, hperm, rfl, rfl⟩

variable {check : Check} {site : Site} {f g : ObjectForm Schema}
  {p q p₁ : ObjectPass} {w w₁ : Workshop}

/-! ### Children -/

/-- What comes of a child over a working copy. -/
def childAnswer (check : Check) (site : Site) (p : ObjectPass)
    (child : String × Schema) : Option Outcome :=
  check.answer child.2 (p.member child.1) (site.position.path ++ [.key child.1]) site.prefs

/-- One turn of the phase is the child's answer, taken over. -/
theorem checkChild_run {child : String × Schema} (h : check.Fixed child.2) :
    (checkChild check site p child).run w =
      (childAnswer check site p child).map fun o => (takeChild site p child.1 o, w) := by
  unfold checkChild childAnswer
  rw [StateT.run_bind, h]
  show Option.bind
    (Option.map _ (check.answer child.2 _ (site.position.path ++ [.key child.1]) _)) _ = _
  cases check.answer child.2 (p.member child.1)
    (site.position.path ++ [.key child.1]) site.prefs <;> rfl

/-- Something comes of the child that the check survives. -/
def Settles (check : Check) (site : Site) (p : ObjectPass) (child : String × Schema) : Prop :=
  ∃ o, childAnswer check site p child = some o ∧ Harmless site o

/-- What is known of the children over a working copy. -/
def known (check : Check) (site : Site) (p : ObjectPass) (child : String × Schema) : Outcome :=
  (childAnswer check site p child).getD default

/-- What a child answers does not depend on what another one left, as it wrote under another key. -/
theorem childAnswer_takeChild {child other : String × Schema}
    (hne : child.1 ≠ other.1) (o : Outcome) :
    childAnswer check site (takeChild site p child.1 o) other = childAnswer check site p other := by
  unfold childAnswer
  rw [member_takeChild_ne site p hne]

variable {children : List (String × Schema)} (hfixed : ∀ child ∈ children, check.Fixed child.2)
  (hkeys : Members.Distinct children)

include hfixed hkeys

/-- A check of children that goes on to the end has survived what comes of each of them. -/
theorem settles_of_forEach (hp : p.stopped = false)
    (hrun : (p.forEach (checkChild check site) children).run w = some (p₁, w₁))
    (hgoes : p₁.stopped = false) : ∀ child ∈ children, Settles check site p child := by
  induction children generalizing p w with
  | nil => exact fun _ h => absurd h List.not_mem_nil
  | cons child rest ih =>
    -- the first child by itself, the rest where it is done
    obtain ⟨hnew, hrest⟩ := List.nodup_cons.mp hkeys
    rw [ObjectPass.forEach, if_neg (by simp [hp])] at hrun
    obtain ⟨next, w₂, hchild, hothers⟩ := Runs.bind_some hrun
    rw [checkChild_run (hfixed child (List.mem_cons_self ..))] at hchild
    obtain ⟨o, hanswer, heq⟩ := Option.map_eq_some_iff.mp hchild
    obtain ⟨rfl, rfl⟩ := Prod.mk.inj heq
    have hstopped := stopped_takeChild site child.1 o hp
    -- a stop at this child would be a stop at the end
    cases hended : (takeChild site p child.1 o).stopped with
    | true =>
      rw [ObjectPass.forEach_stopped hended] at hothers
      obtain ⟨rfl, rfl⟩ := Runs.pure_some hothers
      exact absurd (hended.symm.trans hgoes) (by simp)
    | false =>
      have hharmless : Harmless site o := by
        intro hearly
        rw [hended, hearly, Bool.and_true] at hstopped
        simpa using hstopped.symm
      intro other hother
      rcases List.mem_cons.mp hother with rfl | hother
      · exact ⟨o, hanswer, hharmless⟩
      · -- other keys do not see what became of this one
        have hne : child.1 ≠ other.1 := fun heq => hnew (List.mem_map.mpr ⟨other, hother, heq.symm⟩)
        obtain ⟨o', hanswer', hharmless'⟩ :=
          ih (fun c hc => hfixed c (List.mem_cons_of_mem _ hc)) hrest hended
          hothers other hother
        exact ⟨o', (childAnswer_takeChild hne o).symm.trans hanswer', hharmless'⟩

/-- If the check survives what comes of each child, it takes them one after another. -/
theorem forEach_of_settles (start : ObjectPass) (hp : p.stopped = false)
    (hsame : ∀ child ∈ children, childAnswer check site p child =
      childAnswer check site start child)
    (hsettles : ∀ child ∈ children, Settles check site start child) :
    (p.forEach (checkChild check site) children).run w =
      some (takeAll site (known check site start) p children, w) := by
  induction children generalizing p with
  | nil => rfl
  | cons child rest ih =>
    obtain ⟨hnew, hrest⟩ := List.nodup_cons.mp hkeys
    obtain ⟨o, hanswer, hharmless⟩ := hsettles child (List.mem_cons_self ..)
    have hknown : known check site start child = o := by rw [known, hanswer]; rfl
    have hnext := ih (fun c hc => hfixed c (List.mem_cons_of_mem _ hc)) hrest
      (goes_takeChild hp child.1 hharmless)
      (fun other hother => ?_) (fun c hc => hsettles c (List.mem_cons_of_mem _ hc))
    · rw [takeAll, List.foldl_cons, hknown, ObjectPass.forEach,
        if_neg (by simp [hp]), StateT.run_bind,
        checkChild_run (hfixed child (List.mem_cons_self ..)),
        hsame child (List.mem_cons_self ..), hanswer]
      exact hnext
    · have hne : child.1 ≠ other.1 := fun heq => hnew (List.mem_map.mpr ⟨other, hother, heq.symm⟩)
      exact (childAnswer_takeChild hne o).trans (hsame other (List.mem_cons_of_mem _ hother))

omit hfixed hkeys

/-- The phase of the children comes to the same in both orders, as far as the check goes on. -/
theorem checkChildren_tracks (h : f.Reordered g)
    (hfixed : ∀ child ∈ f.children, check.Fixed child.2)
    (hmembers : Members.Distinct p.members) (hp : p.stopped = false) :
    Tracks (f.checkChildren check site p) (g.checkChildren check site p) := by
  have hfixed' : ∀ child ∈ f.orderedChildren, check.Fixed child.2 := fun child hchild =>
    hfixed child (h.left.mem_orderedChildren.mp hchild)
  have hkeys : Members.Distinct f.orderedChildren := by
    unfold Members.Distinct Members.keys
    rw [h.left.keys_orderedChildren]
    exact h.left.nodup_order
  have hperm := h.orderedChildren
  -- children that settle do so in any order
  have heach : Tracks (p.forEach (checkChild check site) f.orderedChildren)
      (p.forEach (checkChild check site) g.orderedChildren) := by
    intro w p₁ w₁ hrun hgoes
    have hsettles := settles_of_forEach hfixed' hkeys hp hrun hgoes
    have hforward := forEach_of_settles (w := w) hfixed' hkeys p hp (fun _ _ => rfl) hsettles
    have hother := forEach_of_settles (w := w) (fun c hc => hfixed' c (hperm.mem_iff.mpr hc))
      ((hperm.map Prod.fst).nodup_iff.mp hkeys) p hp (fun _ _ => rfl)
      fun c hc => hsettles c (hperm.mem_iff.mpr hc)
    obtain ⟨rfl, rfl⟩ := Prod.mk.inj (Option.some.inj (hrun.symm.trans hforward))
    refine ⟨_, hother, takeAll_perm hperm (fun c hc => ?_) hkeys (.refl hmembers hp), rfl⟩
    obtain ⟨o, hanswer, hharmless⟩ := hsettles c hc
    rw [known, hanswer]
    exact hharmless
  have hdrop (f : ObjectForm Schema) : f.checkChildren check site p =
      (p.forEach (checkChild check site) f.orderedChildren) >>= fun p =>
        if p.stopped then pure p else pure (p.eraseAll p.stripped) := by
    unfold checkChildren
    congr 1
    funext p
    split <;> rfl
  rw [hdrop, hdrop]
  exact heach.andThen fun p q halike => .pure fun _ => halike.eraseAll halike.stripped

/-! ### Undeclared keys -/

/-- Whether a pattern is about a key does not depend on what else there is. -/
theorem isAbout_run (site : Site) {matcher : KeyMatcher Schema}
    (hfixed : ∀ t ∈ matcher.schema?, check.Fixed t) (key : String) :
    ∃ about : Option Bool, ∀ (parent : Value) w,
      (isAbout check site (site.position.nest (.key key) parent) key matcher).run w =
        about.map (·, w) := by
  cases matcher with
  | pattern pattern => exact ⟨some (pattern.isMatch key), fun _ _ => rfl⟩
  | schema t =>
    let prefs := { site.prefs with abortEarly := true }
    refine ⟨(check.answer t (.string key) (site.position.path ++ [.key key]) prefs).map
      Outcome.isOk, ?_⟩
    exact fun parent w =>
      (hfixed t rfl).passes (.string key) (site.position.nest (.key key) parent) site.prefs w

/-- Which pattern is about a key, and what comes of it, depends on what stands under the key. -/
theorem checkPatterns_run (site : Site) {patterns : List (KeyPattern Schema)}
    (hfixed : ∀ pattern ∈ patterns, ∀ t ∈ pattern.schemas, check.Fixed t)
    (key : String) (v : Value) :
    ∃ found : Option (Option Outcome), ∀ p : ObjectPass, p.member key = v → ∀ w,
      (checkPatterns check site p key patterns).run w =
        found.map fun o => (o.map (takeMatched site p key), w) := by
  induction patterns with
  | nil => exact ⟨some none, fun _ _ _ => rfl⟩
  -- the first pattern that is about the key decides
  | cons pattern rest ih =>
    obtain ⟨found, hrest⟩ := ih fun pattern hpattern =>
      hfixed pattern (List.mem_cons_of_mem _ hpattern)
    have hhead := hfixed pattern (List.mem_cons_self ..)
    have hschema := hhead pattern.schema (List.mem_append_right _ (List.mem_singleton_self _))
    obtain ⟨about, habout⟩ := isAbout_run site
      (fun t (ht : t ∈ pattern.matcher.schema?) =>
        hhead t (List.mem_append_left _ (Option.mem_toList.mpr ht))) key
    let answer := check.answer pattern.schema v (site.position.path ++ [.key key]) site.prefs
    refine ⟨about.bind fun about => if about then answer.map some else found, fun p hp w => ?_⟩
    unfold checkPatterns
    rw [StateT.run_bind, habout]
    cases about with
    | none => rfl
    | some about =>
      cases about with
      | false => exact hrest p hp w
      | true =>
        show ((check pattern.schema (p.member key) _ site.prefs >>= fun o =>
          pure (some (takeMatched site p key o)) : Run (Option ObjectPass))).run w =
            (answer.map some).map _
        rw [StateT.run_bind, hschema, hp]
        show Option.bind (Option.map _ answer) _ = _
        cases answer <;> rfl

/-- What comes of an undeclared key is taken over alike. -/
theorem takeMatched_alike (h : p.Alike q) (key : String) (o : Outcome)
    (hgoes : (takeMatched site p key o).stopped = false) :
    (takeMatched site p key o).Alike (takeMatched site q key o) := by
  unfold takeMatched at hgoes ⊢
  split at hgoes
  next hfails =>
    rw [if_pos hfails, if_pos hfails]
    exact h.fail rfl hgoes
  next hpasses =>
    rw [if_neg hpasses, if_neg hpasses]
    unfold keepMatched
    split
    · refine ⟨⟨h.members.left.erase key, h.members.right.erase key, fun other => ?_⟩,
        h.reports, h.stripped, h.goes, h.goes'⟩
      show Members.get? (Members.erase _ _) _ = Members.get? (Members.erase _ _) _
      rw [Members.get?_erase, Members.get?_erase, h.members.get?]
    · refine ⟨⟨h.members.left.insert key _, h.members.right.insert key _, fun other => ?_⟩,
        h.reports, h.stripped, h.goes, h.goes'⟩
      show Members.get? (Members.insert _ _ _) _ = Members.get? (Members.insert _ _ _) _
      rw [Members.get?_insert, Members.get?_insert, h.members.get?]

/-- Undeclared keys are gone through in their own order. -/
theorem checkUndeclared_alike (h : f.Reordered g)
    (hfixed : ∀ pattern ∈ f.patterns, ∀ t ∈ pattern.schemas, check.Fixed t) (halike : p.Alike q)
    {left keys left₁ : List String}
    (hrun : (f.checkUndeclared check site p left keys).run w = some ((p₁, left₁), w₁))
    (hgoes : p₁.stopped = false) :
    ∃ q₁, (g.checkUndeclared check site q left keys).run w = some ((q₁, left₁), w) ∧
      p₁.Alike q₁ ∧ w₁ = w := by
  induction keys generalizing p q left with
  | nil =>
    obtain ⟨heq, rfl⟩ := Runs.pure_some hrun
    obtain ⟨rfl, rfl⟩ := Prod.mk.inj heq
    exact ⟨q, rfl, halike, rfl⟩
  | cons key rest ih =>
    obtain ⟨found, hfound⟩ := checkPatterns_run site hfixed key (p.member key)
    rw [checkUndeclared, if_neg (by simp [halike.goes])] at hrun
    rw [checkUndeclared, if_neg (by simp [halike.goes']), h.patterns, StateT.run_bind,
      hfound q (halike.member key)]
    obtain ⟨next, w₂, hpatterns, hrest⟩ := Runs.bind_some hrun
    rw [hfound p rfl] at hpatterns
    obtain ⟨o, rfl, heq⟩ := Option.map_eq_some_iff.mp hpatterns
    obtain ⟨rfl, rfl⟩ := Prod.mk.inj heq
    cases o with
    | none => exact ih halike hrest
    | some o =>
      cases hended : (takeMatched site p key o).stopped with
      | false => exact ih (takeMatched_alike halike key o hended) hrest
      -- the stop lasts, against what is assumed
      | true =>
        have hnothing (left : List String) :
            f.checkUndeclared check site (takeMatched site p key o) left rest =
            pure (takeMatched site p key o, left) := by
          cases rest with
          | nil => rfl
          | cons second others => rw [checkUndeclared, if_pos hended]
        have hrest :
            (f.checkUndeclared check site (takeMatched site p key o) left rest).run w = _ := hrest
        rw [hnothing] at hrest
        obtain ⟨heq, -⟩ := Runs.pure_some hrest
        rw [← (Prod.mk.inj heq).1] at hgoes
        exact absurd (hended.symm.trans hgoes) (by simp)

/-- Keys that nothing is about are settled in their own order. -/
theorem settleUnknown_alike (h : f.Reordered g) (halike : p.Alike q) (keys : List String)
    (hgoes : (f.settleUnknown site p keys).stopped = false) :
    (f.settleUnknown site p keys).Alike (g.settleUnknown site q keys) := by
  have hreports : unknownReport site q = unknownReport site p := by
    funext key
    unfold unknownReport
    rw [halike.member]
  unfold settleUnknown at hgoes ⊢
  rw [h.isNone, h.patterns, h.unknown, hreports]
  split
  next => exact halike
  next hkeys =>
    rw [if_neg hkeys] at hgoes
    split
    next => exact halike.eraseAll fun _ => Iff.rfl
    next hstrip =>
      rw [if_neg hstrip] at hgoes
      split
      next => exact halike
      next hallowed =>
        rw [if_neg hallowed] at hgoes
        exact halike.failEach rfl hgoes

/-- The phase of undeclared keys comes to the same in both orders of the children. -/
theorem checkUnknown_tracks (h : f.Reordered g)
    (hfixed : ∀ pattern ∈ f.patterns, ∀ t ∈ pattern.schemas, check.Fixed t) (halike : p.Alike q)
    (keys : List String) :
    Tracks (f.checkUnknown check site p keys) (g.checkUnknown check site q keys) := by
  intro w p₁ w₁ hrun hgoes
  obtain ⟨⟨last, left⟩, w₂, hundeclared, hlast⟩ := Runs.bind_some hrun
  have hlast :
      (pure (if last.stopped = true then last else f.settleUnknown site last left) : Run _).run w₂ =
    some (p₁, w₁) := hlast
  obtain ⟨hresult, rfl⟩ := Runs.pure_some hlast
  cases hended : last.stopped with
  | true =>
    rw [if_pos hended] at hresult
    exact absurd (hended.symm.trans (hresult ▸ hgoes)) (by simp)
  | false =>
    rw [if_neg (by simp [hended])] at hresult
    obtain ⟨q₁, hother, halike₁, rfl⟩ := checkUndeclared_alike h hfixed halike hundeclared hended
    refine ⟨g.settleUnknown site q₁ left, ?_,
      hresult ▸ settleUnknown_alike h halike₁ left (hresult ▸ hgoes), rfl⟩
    unfold checkUnknown
    rw [StateT.run_bind, hother]
    show (pure (if q₁.stopped = true then q₁ else g.settleUnknown site q₁ left) :
      Run ObjectPass).run _ = _
    rw [if_neg (by simp [halike₁.goes'])]
    rfl

/-! ### Dependencies -/

/-- Where a dependency reports does not depend on the order of members. -/
theorem dependencyReports_places (site : Site) {v v' : Value} (h : v.Reorders v') (d : Dependency) :
    (dependencyReports site v' d).map Report.place =
      (dependencyReports site v d).map Report.place := by
  unfold dependencyReports
  rw [h.isPresent]
  have hplace (code : String) (context : List (String × Value)) :
      (site.report code v' context).place = (site.report code v context).place := rfl
  cases d.relation with
  | nand =>
    cases d.peers with
    | nil => rfl
    | cons main others =>
      dsimp only
      split <;> rfl
  | «with» | without =>
    dsimp only
    cases d.key with
    | none => rfl
    | some main =>
      dsimp only
      split
      · rw [List.map_map, List.map_map]
        rfl
      · rfl
  -- the other relations count who is present
  | _ =>
    dsimp only
    split
    · rfl
    · first
        | rfl
        | (split <;> rfl)

/-- Dependencies fail alike. -/
theorem checkDependencies_alike (h : f.Reordered g) (halike : p.Alike q)
    (hgoes : (f.checkDependencies site p).stopped = false) :
    (f.checkDependencies site p).Alike (g.checkDependencies site q) := by
  unfold checkDependencies at hgoes ⊢
  rw [h.dependencies]
  generalize f.dependencies = dependencies at hgoes
  induction dependencies generalizing p q with
  | nil => exact halike
  | cons d rest ih =>
    rw [ObjectPass.forEach, if_neg (by simp [halike.goes])] at hgoes ⊢
    rw [ObjectPass.forEach, if_neg (by simp [halike.goes'])]
    have hplaces := dependencyReports_places site halike.value d
    cases hended : (p.failEach site (dependencyReports site p.value d)).stopped with
    | false => exact ih (halike.failEach hplaces hended) hgoes
    | true =>
      have hgoes : ((p.failEach site (dependencyReports site p.value d)).forEach
        (fun p dependency => p.failEach site (dependencyReports site p.value dependency) : _ → _ →
          Id ObjectPass)
        rest).stopped = false := hgoes
      rw [ObjectPass.forEach_stopped hended] at hgoes
      exact absurd (hended.symm.trans hgoes) (by simp)

/-! ### The whole -/

/-- Through all phases. -/
theorem checkMembers_tracks (h : f.Reordered g)
    (hfixed : ∀ t ∈ (Form.object f).schemas, check.Fixed t)
    {members : List (String × Value)} (hmembers : Members.Distinct members) :
    Tracks (f.checkMembers check site members) (g.checkMembers check site members) := by
  have hchildren : ∀ child ∈ f.children, check.Fixed child.2 := fun child hchild =>
    hfixed child.2 (List.mem_append_left _ (List.mem_map.mpr ⟨child, hchild, rfl⟩))
  have hpatterns : ∀ pattern ∈ f.patterns, ∀ t ∈ pattern.schemas, check.Fixed t :=
    fun pattern hpattern t ht =>
    hfixed t (List.mem_append_right _ (List.mem_flatMap.mpr ⟨pattern, hpattern, ht⟩))
  -- the declared keys are the same ones
  have hdeclared (key : String) : (g.orderedChildren.map (·.1)).contains key =
      (f.orderedChildren.map (·.1)).contains key := by
    rw [Bool.eq_iff_iff, List.contains_iff_mem, List.contains_iff_mem]
    exact (h.orderedChildren.map _).mem_iff.symm
  have hrenamed := distinct_applyRenames site f.renames [] (p := { members }) hmembers
  unfold checkMembers
  dsimp only
  rw [h.renames]
  simp only [hdeclared]
  generalize applyRenames site [] { members } f.renames = p at hrenamed
  cases hended : p.stopped with
  | true =>
    rw [if_pos rfl, if_pos rfl]
    exact .pure fun hgoes => absurd (hended.symm.trans hgoes) (by simp)
  | false =>
    rw [if_neg Bool.false_ne_true, if_neg Bool.false_ne_true]
    refine (checkChildren_tracks h hchildren hrenamed hended).andThen fun p q halike => ?_
    refine (checkUnknown_tracks h hpatterns halike _).andThen fun p q halike => ?_
    exact .pure fun hgoes => checkDependencies_alike h halike hgoes

/-- The two checks are ended together, since each follows one that goes on. -/
theorem stopped_alike (h : f.Reordered g) (hfixed : ∀ t ∈ (Form.object f).schemas, check.Fixed t)
    {members : List (String × Value)} (hmembers : Members.Distinct members)
    {w w₁ w₂ : Workshop} {p q : ObjectPass}
    (hrun : (f.checkMembers check site members).run w = some (p, w₁))
    (hrun' : (g.checkMembers check site members).run w = some (q, w₂)) :
    q.stopped = p.stopped := by
  cases hgoes : p.stopped with
  | false =>
    obtain ⟨q', hother, halike, -⟩ := checkMembers_tracks h hfixed hmembers w p w₁ hrun hgoes
    obtain ⟨rfl, -⟩ := Prod.mk.inj (Option.some.inj (hother.symm.trans hrun'))
    exact halike.goes'
  | true =>
    cases hgoes' : q.stopped with
    | true => rfl
    | false =>
      have hfixed' : ∀ t ∈ (Form.object g).schemas, check.Fixed t := fun t ht =>
        hfixed t (h.mem_schemas.mp ht)
      obtain ⟨p', hother, halike, -⟩ :=
        checkMembers_tracks h.symm hfixed' hmembers w q w₂ hrun' hgoes'
      obtain ⟨rfl, -⟩ := Prod.mk.inj (Option.some.inj (hother.symm.trans hrun))
      exact absurd (hgoes.symm.trans halike.goes') (by simp)

end ObjectForm

/-! ### By the other schema -/

/-- The same check by another schema. -/
def Site.under (site : Site) (t : Schema) : Site := { site with schema := t }

section

variable {check : Check} {site : Site} {t : Schema}
  (hlabel : t.node.flags.label = site.node.flags.label)

include hlabel in
/-- A report does not depend on the order of the children. -/
theorem Site.report_under : @Site.report (site.under t) = @Site.report site := by
  funext code value context
  exact congrFun (congrFun (congrFun (reportAt_congr hlabel rfl) code) value) context

namespace ObjectForm

variable {f : ObjectForm Schema}

/-- Patterns are tried on a key whatever the order of the children. -/
theorem checkPatterns_under (p : ObjectPass) (key : String) (patterns : List (KeyPattern Schema)) :
    checkPatterns check (site.under t) p key patterns =
      checkPatterns check site p key patterns := by
  induction patterns with
  | nil => rfl
  | cons pattern rest ih =>
    rw [checkPatterns, checkPatterns, ih]
    rfl

/-- Undeclared keys are gone through whatever the order of the children. -/
theorem checkUndeclared_under (p : ObjectPass) (left keys : List String) :
    f.checkUndeclared check (site.under t) p left keys =
      f.checkUndeclared check site p left keys := by
  induction keys generalizing p left with
  | nil => rfl
  | cons key rest ih => simp only [checkUndeclared, ih, checkPatterns_under]

include hlabel

/-- Renames do not look at the children. -/
theorem applyRenames_under (taken : List String) (p : ObjectPass) (renames : List Rename) :
    applyRenames (site.under t) taken p renames = applyRenames site taken p renames := by
  induction renames generalizing taken p with
  | nil => rfl
  | cons rename rest ih =>
    unfold applyRenames
    simp only [ih, Site.report_under hlabel]
    rfl

/-- The phases know of the schema no more than the label. -/
theorem checkMembers_under (members : List (String × Value)) :
    f.checkMembers check (site.under t) members = f.checkMembers check site members := by
  have hunknown (p : ObjectPass) : unknownReport (site.under t) p = unknownReport site p := by
    funext key
    unfold unknownReport
    exact congrFun (congrFun (congrFun (reportAt_congr hlabel rfl) _) _) _
  have hundeclared (p : ObjectPass) (keys : List String) :
      f.checkUnknown check (site.under t) p keys = f.checkUnknown check site p keys := by
    unfold checkUnknown settleUnknown
    simp only [checkUndeclared_under, hunknown]
    rfl
  have hdependencies (p : ObjectPass) : f.checkDependencies (site.under t) p =
      f.checkDependencies site p := by
    unfold checkDependencies dependencyReports
    rw [Site.report_under hlabel]
    rfl
  unfold checkMembers
  simp only [applyRenames_under hlabel, hundeclared, hdependencies]
  rfl

theorem rule_under : ObjectForm.rule check (site.under t) = ObjectForm.rule check site := by
  have hreport : reportAt (site.under t).schema = reportAt site.schema :=
    funext fun _ => reportAt_congr hlabel rfl
  have hassert : assertRule check (site.under t) = assertRule check site := by
    unfold assertRule
    simp only [hreport]
    rfl
  unfold ObjectForm.rule Site.requireSize Site.limitReport
  rw [Site.report_under hlabel, hassert]

end ObjectForm

end

/-! ### What comes of an object -/

/-- Outcomes that are the same but for the order of members and of reports. Where the first failure
settles the check, they may fail for different reasons. -/
structure Outcome.Alike (early : Bool) (o o' : Outcome) : Prop where
  ok : o'.isOk = o.isOk
  value : o.isOk = true → o.value.Reorders o'.value
  defined : o'.value.isDefined = o.value.isDefined
  places : early = false → (o'.reports.map Report.place).Perm (o.reports.map Report.place)
  strip : o'.strip = o.strip

namespace Outcome.Alike

variable {early : Bool} {o o' : Outcome}

/-- An outcome is like itself. -/
theorem refl (early : Bool) (o : Outcome) : Outcome.Alike early o o :=
  ⟨rfl, fun _ => .refl _, rfl, fun _ => .refl _, rfl⟩

/-- Where the first failure settles a check, two failures are alike, whatever they report. -/
theorem of_failures (ho : o.isOk = false) (ho' : o'.isOk = false)
    (hdefined : o'.value.isDefined = o.value.isDefined) (hstrip : o'.strip = o.strip) :
    Outcome.Alike true o o' :=
  ⟨ho'.trans ho.symm, fun hok => absurd (ho.symm.trans hok) (by simp), hdefined,
    fun hlate => absurd hlate (by simp), hstrip⟩

end Outcome.Alike

/-- Reports in the same places are there together. -/
theorem Report.isEmpty_of_places {reports reports' : List Report}
    (h : (reports'.map Report.place).Perm (reports.map Report.place)) :
    reports'.isEmpty = reports.isEmpty := by
  have hlength := h.length_eq
  rw [List.length_map, List.length_map] at hlength
  rw [Bool.eq_iff_iff, List.isEmpty_iff_length_eq_zero, List.isEmpty_iff_length_eq_zero, hlength]

/-- The two orders come to the same, and a check that passes leaves the workshop alone. -/
theorem ObjectForm.base_alike {check : Check} {site : Site} {t : Schema} {f g : ObjectForm Schema}
    (h : f.Reordered g) (hform : site.node.form = .object f)
    (hnode : t.node = { site.node with form := .object g })
    (hfixed : ∀ t ∈ (Form.object f).schemas, check.Fixed t) {value : Value}
    (hnames : value.namesOnce = true) {w w₁ w₂ : Workshop}
    {o o' : Outcome} (hrun : (f.base check site value).run w = some (o, w₁))
    (hrun' : (g.base check (site.under t) value).run w = some (o', w₂)) :
    Outcome.Alike site.prefs.abortEarly o o' ∧ (o.isOk = true → w₁ = w ∧ w₂ = w) := by
  have hlabel : t.node.flags.label = site.node.flags.label := by rw [hnode]
  unfold base at hrun hrun'
  cases value with
  | object members =>
    dsimp only at hrun hrun'
    rw [h.isPlain] at hrun'
    split at hrun
    next hplain =>
      rw [if_pos hplain] at hrun'
      obtain ⟨rfl, rfl⟩ := Runs.pure_some hrun
      obtain ⟨rfl, rfl⟩ := Runs.pure_some hrun'
      exact ⟨.refl _ _, fun _ => ⟨rfl, rfl⟩⟩
    next hplain =>
      rw [if_neg hplain] at hrun'
      obtain ⟨p, w₃, hphases, hresult⟩ := Runs.bind_some hrun
      obtain ⟨q, w₄, hphases', hresult'⟩ := Runs.bind_some hrun'
      obtain ⟨rfl, rfl⟩ := Runs.pure_some hresult
      obtain ⟨rfl, rfl⟩ := Runs.pure_some hresult'
      have hended := checkMembers_ended hform hphases
      have hform' : (site.under t).node.form = .object g := congrArg Node.form hnode
      have hended' := checkMembers_ended hform' hphases'
      rw [checkMembers_under hlabel] at hphases'
      have hmembers : (Members.keys members).Nodup := of_decide_eq_true hnames
      have hstopped : q.stopped = p.stopped := stopped_alike h hfixed hmembers hphases hphases'
      cases hgoes : p.stopped with
      | false =>
        obtain ⟨q', hother, halike, rfl⟩ :=
          checkMembers_tracks h hfixed hmembers w p w₃ hphases hgoes
        obtain ⟨rfl, rfl⟩ := Prod.mk.inj (Option.some.inj (hother.symm.trans hphases'))
        exact ⟨⟨Report.isEmpty_of_places halike.reports, fun _ => halike.value, rfl,
          fun _ => halike.reports, rfl⟩, fun _ => ⟨rfl, rfl⟩⟩
      | true =>
        obtain ⟨hearly, hreports⟩ := hended hgoes
        obtain ⟨-, hreports'⟩ := hended' (hstopped.trans hgoes)
        have hfails : p.reports.isEmpty = false := List.isEmpty_eq_false_iff.mpr hreports
        have hfails' : q.reports.isEmpty = false := List.isEmpty_eq_false_iff.mpr hreports'
        rw [hearly]
        exact ⟨.of_failures hfails hfails' rfl rfl,
          fun hok => absurd (hfails.symm.trans hok) (by simp)⟩
  | _ =>
    dsimp only at hrun hrun'
    rw [Site.report_under hlabel] at hrun'
    obtain ⟨rfl, rfl⟩ := Runs.pure_some hrun
    obtain ⟨rfl, rfl⟩ := Runs.pure_some hrun'
    exact ⟨.refl _ _, fun hnever => absurd hnever (by simp [Outcome.isOk, Outcome.failure])⟩

end Conform
