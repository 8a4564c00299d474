import Mathlib.Data.List.Nodup
import Conform.Proofs.ItemMatching

/-!
# The order of item schemas

A member goes to the first required schema still to be matched that accepts it, and it stays
there. Where two required schemas accept some of the same members, the one declared first may
take a member that the other is in need of; so the order of declaration can decide whether an
array passes. It has no bearing where neighbours are exchanged that accept the same members, or
none in common (`MayTrade`).

Two arguments carry this. A list that is gone through for the first match gives related results for
lists that come of each other by such exchanges (`firstTake_shuffled`), so what is left to match
stays related over the members. And if there is a member for each required schema, there still is
after each member is given away, provided that schemas declared earlier accept less (`reassign`):
the schema that has lost its member gets the one that the taker had.

Both speak of the matching alone (`Ground.passAll?`), a function of the members and of what each
schema makes of each of them. That the walk over the members ends with what the matching leaves is
known from the module before, where schemas are honest about their copies, so the statements here
need no runs but at the end. At the end stand the two results, `admits_iff` by which acceptance is
the matching, and the exchange, and then an array with two required schemas for which everything
that is asked can be evaluated.

Main statement: `order_of_items_immaterial`.
-/

namespace Conform

namespace ArrayForm

/-- Lists that come of each other by exchanging neighbours and by replacing
elements that are alike. -/
inductive Shuffled {α : Type} (Alike Swap : α → α → Prop) : List α → List α → Prop
  | nil : Shuffled Alike Swap [] []
  | cons {x y : α} {xs ys : List α} : Alike x y → Shuffled Alike Swap xs ys →
      Shuffled Alike Swap (x :: xs) (y :: ys)
  | swap {x y : α} {xs : List α} : Swap x y → Shuffled Alike Swap (x :: y :: xs) (y :: x :: xs)
  | trans {xs ys zs : List α} : Shuffled Alike Swap xs ys → Shuffled Alike Swap ys zs →
      Shuffled Alike Swap xs zs

namespace Shuffled

variable {α β : Type} {Alike Swap : α → α → Prop} {xs ys : List α}

/-- A list is shuffled from itself. -/
theorem refl (hrefl : ∀ x, Alike x x) (xs : List α) : Shuffled Alike Swap xs xs := by
  induction xs with
  | nil => exact .nil
  | cons x rest ih => exact .cons (hrefl x) ih

/-- Shuffled lists are of one length. -/
theorem length_eq (h : Shuffled Alike Swap xs ys) : xs.length = ys.length := by
  induction h with
  | nil => rfl
  | cons _ _ ih => exact congrArg (· + 1) ih
  | swap _ => rfl
  | trans _ _ ih₁ ih₂ => exact ih₁.trans ih₂

/-- Lists that come of each other by exchanges alone are permutations. -/
theorem perm (h : Shuffled Eq Swap xs ys) : xs.Perm ys := by
  induction h with
  | nil => exact .refl _
  | cons heq _ ih => exact heq ▸ ih.cons _
  | swap _ => exact .swap ..
  | trans _ _ ih₁ ih₂ => exact ih₁.trans ih₂

/-- Of a shuffled list, those elements are shuffled that are asked for. -/
theorem filter {Swap' : α → α → Prop} (p : α → Bool) (hrefl : ∀ x, Alike x x)
    (hswap : ∀ x y zs, Swap' x y → p x = true → p y = true →
      Shuffled Alike Swap (x :: y :: zs) (y :: x :: zs))
    (h : Shuffled Eq Swap' xs ys) : Shuffled Alike Swap (xs.filter p) (ys.filter p) := by
  induction h with
  | nil => exact .nil
  | @cons x y xs ys heq _ ih =>
    subst heq
    by_cases hx : p x = true
    · rw [List.filter_cons_of_pos hx, List.filter_cons_of_pos hx]
      exact .cons (hrefl x) ih
    · rw [List.filter_cons_of_neg hx, List.filter_cons_of_neg hx]
      exact ih
  | @swap x y xs hs =>
    by_cases hx : p x = true <;> by_cases hy : p y = true
    · simp only [List.filter_cons, hx, hy, if_true]
      exact hswap x y _ hs hx hy
    all_goals
      simp only [List.filter_cons, hx, hy, if_true]
      exact .refl hrefl _
  | trans _ _ ih₁ ih₂ => exact ih₁.trans ih₂

/-- The first image is the same if elements are exchanged that have none or the same. -/
theorem findSome?_eq {f : α → Option β} (halike : ∀ x y, Alike x y → f x = f y)
    (hswap : ∀ x y, Swap x y → f x = none ∨ f y = none ∨ f x = f y)
    (h : Shuffled Alike Swap xs ys) : xs.findSome? f = ys.findSome? f := by
  induction h with
  | nil => rfl
  | @cons x y _ _ hxy _ ih => rw [List.findSome?_cons, List.findSome?_cons, halike x y hxy, ih]
  | @swap x y _ hs =>
    simp only [List.findSome?_cons]
    rcases hswap x y hs with hx | hy | hsame
    · rw [hx]
    · rw [hy]
    · rw [hsame]
  | trans _ _ ih₁ ih₂ => exact ih₁.trans ih₂

/-- What is left of shuffled lists after the first match is shuffled. -/
theorem firstTake_shuffled {f : α → Option β} (hrefl : ∀ x, Alike x x)
    (halike : ∀ x y, Alike x y → f x = f y) (hswap : ∀ x y, Swap x y → f x = none ∨ f y = none)
    (h : Shuffled Alike Swap xs ys) :
    Option.Rel (fun a b => a.1 = b.1 ∧ Shuffled Alike Swap a.2 b.2) (firstTake f xs)
      (firstTake f ys) := by
  induction h with
  | nil => exact .none
  | @cons x y xs ys hxy hrest ih =>
    unfold firstTake
    rw [← halike x y hxy]
    cases f x with
    | some b => exact .some ⟨rfl, hrest⟩
    | none =>
      revert ih
      generalize firstTake f xs = a
      generalize firstTake f ys = b
      rintro (⟨hb, hleft⟩ | _)
      · exact .some ⟨hb, .cons hxy hleft⟩
      · exact .none
  | @swap x y xs hs =>
    cases hx : f x with
    | some b =>
      have hy : f y = none := (hswap x y hs).resolve_left (by simp [hx])
      simp only [firstTake, hx, hy, Option.map_some]
      exact .some ⟨rfl, .refl hrefl _⟩
    | none =>
      cases hy : f y with
      | some b =>
        simp only [firstTake, hx, hy, Option.map_some]
        exact .some ⟨rfl, .refl hrefl _⟩
      | none =>
        -- neither is taken, so they are still neighbours
        simp only [firstTake, hx, hy]
        cases firstTake f xs with
        | none => exact .none
        | some a => exact .some ⟨rfl, .swap hs⟩
  | @trans xs ys zs _ _ ih₁ ih₂ =>
    revert ih₁ ih₂
    generalize firstTake f xs = a
    generalize firstTake f ys = b
    generalize firstTake f zs = c
    rintro (⟨hb, hleft⟩ | _) hrest
    · rcases hrest with ⟨hb', hleft'⟩
      exact .some ⟨hb.trans hb', hleft.trans hleft'⟩
    · cases hrest
      exact .none

end Shuffled

/-! ### Exchanged items -/

namespace Ground

/-- The schema accepts the member in place `i`. -/
def Suits (g : Ground) (check : Check) (members : List Value) (i : Nat) (s : Schema) : Prop :=
  ∃ member take, members[i]? = some member ∧ g.take? check i member s = some take

/-- Both schemas make the same of each member. -/
def Alike (g : Ground) (check : Check) (members : List Value) (s t : Schema) : Prop :=
  ∀ i member, members[i]? = some member → g.take? check i member s = g.take? check i member t

/-- No member is accepted by both. -/
def Apart (g : Ground) (check : Check) (members : List Value) (s t : Schema) : Prop :=
  ∀ i, ¬ (g.Suits check members i s ∧ g.Suits check members i t)

/-- Of the members that both accept, they leave the same as holes. -/
def SameGaps (g : Ground) (check : Check) (members : List Value) (s t : Schema) : Prop :=
  ∀ i member a b, members[i]? = some member → g.take? check i member s = some a →
    g.take? check i member t = some b → (a = .gap ↔ b = .gap)

/-- Neighbouring items whose order has no bearing: required ones that make the same of each member
or accept none in common, other ones that agree on holes, and any two of which one is required, or
forbidden, and the other is not. -/
structure MayTrade (g : Ground) (check : Check) (members : List Value) (s t : Schema) : Prop where
  required : s.node.flags.presence = some .required → t.node.flags.presence = some .required →
    g.Alike check members s t ∨ g.Apart check members s t
  plain : s.node.flags.presence ≠ some .required ∧ s.node.flags.presence ≠ some .forbidden →
    t.node.flags.presence ≠ some .required ∧ t.node.flags.presence ≠ some .forbidden →
    g.SameGaps check members s t

/-- Which of two neighbours was declared first does not matter to whether they may trade places. -/
theorem MayTrade.symm {g : Ground} {check : Check} {members : List Value} {s t : Schema}
    (h : g.MayTrade check members s t) : g.MayTrade check members t s where
  required := fun ht hs => (h.required hs ht).imp
    (fun halike i member hmember => (halike i member hmember).symm) fun hapart i hsuits =>
    hapart i hsuits.symm
  plain := fun ht hs i member a b hmember ha hb => (h.plain hs ht i member b a hmember hb ha).symm

/-- Walks over the same members whose item schemas are the same but for exchanges. -/
structure Reordered (g g' : Ground) (check : Check) (members : List Value) : Prop where
  takes : g'.take? check = g.take? check
  holes : g'.isHole = g.isHole
  barred : g'.isBarred check = g.isBarred check
  prefs : g'.site.prefs = g.site.prefs
  requireds : Shuffled (g.Alike check members)
    (g.Apart check members) g.form.requireds g'.form.requireds
  inclusions : Shuffled Eq (g.SameGaps check members) g.form.inclusions g'.form.inclusions

variable {g g' : Ground} {check : Check} {members : List Value} {i : Nat}
  {member : Value} {s t : Schema}

/-- A schema makes the same of each member as it does. -/
theorem Alike.refl (s : Schema) : g.Alike check members s s := fun _ _ _ => rfl

/-- What is made of a member says whether it suits a schema. -/
theorem Suits.of_take {take : Take} (hmember : members[i]? = some member)
    (h : g.take? check i member s = some take) : g.Suits check members i s :=
  ⟨member, take, hmember, h⟩

/-- Of a member that suits a schema something is made. -/
theorem Suits.take (h : g.Suits check members i s) (hmember : members[i]? = some member) :
    ∃ take, g.take? check i member s = some take := by
  obtain ⟨_, take, hmember', htake⟩ := h
  obtain rfl := Option.some.inj (hmember.symm.trans hmember')
  exact ⟨take, htake⟩

/-- A member of which nothing is made does not suit the schema. -/
theorem not_suits_of_none (hmember : members[i]? = some member)
    (h : g.take? check i member s = none) : ¬ g.Suits check members i s := by
  intro hsuits
  obtain ⟨take, htake⟩ := hsuits.take hmember
  exact nomatch h.symm.trans htake

/-- Of two schemas that share no member at most one accepts a member. -/
theorem Apart.none_of_member (h : g.Apart check members s t) (hmember : members[i]? = some member) :
    g.take? check i member s = none ∨ g.take? check i member t = none := by
  cases hs : g.take? check i member s with
  | none => exact .inl rfl
  | some a =>
    refine .inr ?_
    cases ht : g.take? check i member t with
    | none => rfl
    | some b => exact absurd ⟨.of_take hmember hs, .of_take hmember ht⟩ (h i)

/-- Whether a member may stay that no required schema takes is the same. -/
theorem Reordered.mayStay (h : g.Reordered g' check members) (hmember : members[i]? = some member) :
    g'.mayStay check i member = g.mayStay check i member := by
  -- of the item schemas that accept the member, the first ones agree on whether it leaves a hole
  have hfind : ((g.form.inclusions ++ g.form.requireds).findSome? (g.take? check i member)).map
        (fun take => decide (take = .gap)) =
      ((g'.form.inclusions ++ g'.form.requireds).findSome? (g.take? check i member)).map
        fun take => decide (take = .gap) := by
    rw [List.map_findSome?, List.map_findSome?, List.findSome?_append, List.findSome?_append]
    congr 1
    · refine h.inclusions.findSome?_eq (fun s t heq => by rw [heq]) fun s t hst => ?_
      cases hs : g.take? check i member s with
      | none => exact .inl (by simp [hs])
      | some a =>
        cases ht : g.take? check i member t with
        | none => exact .inr (.inl (by simp [ht]))
        | some b => exact .inr (.inr (by simp [hs, ht, hst i member a b hmember hs ht]))
    · refine h.requireds.findSome?_eq (fun s t hst => ?_) fun s t hst => ?_
      · exact congrArg (Option.map _) (hst i member hmember)
      · rcases hst.none_of_member hmember with hs | ht
        · exact .inl (by simp [hs])
        · exact .inr (.inl (by simp [ht]))
  have hempty : (g'.form.inclusions ++ g'.form.requireds).isEmpty =
      (g.form.inclusions ++ g.form.requireds).isEmpty := by
    refine Bool.eq_iff_iff.mpr ?_
    rw [List.isEmpty_iff_length_eq_zero, List.isEmpty_iff_length_eq_zero,
      List.length_append, List.length_append, h.inclusions.length_eq, h.requireds.length_eq]
  unfold Ground.mayStay
  dsimp only
  rw [h.takes, h.prefs, hempty]
  revert hfind
  cases (g.form.inclusions ++ g.form.requireds).findSome? (g.take? check i member) <;>
    cases (g'.form.inclusions ++ g'.form.requireds).findSome? (g.take? check i member)
  · exact fun _ => rfl
  · exact fun h => nomatch h
  · exact fun h => nomatch h
  · intro hgap
    have hgap := Option.some.inj hgap
    simp only [decide_eq_decide] at hgap
    simp [hgap]

/-- What is left to match after a member is the same but for exchanges. -/
theorem Reordered.place? (h : g.Reordered g' check members) (hmember : members[i]? = some member)
    {pending pending' : List Schema}
    (hpending : Shuffled (g.Alike check members) (g.Apart check members) pending pending') :
    Option.Rel (Shuffled (g.Alike check members) (g.Apart check members))
      (g.place? check i member pending) (g'.place? check i member pending') := by
  have hfirst := hpending.firstTake_shuffled (f := g.take? check i member) Alike.refl
    (fun s t hst => hst i member hmember) fun s t hst => hst.none_of_member hmember
  unfold Ground.place?
  rw [h.takes, h.mayStay hmember]
  revert hfirst
  generalize firstTake (g.take? check i member) pending = first
  generalize firstTake (g.take? check i member) pending' = first'
  rintro (⟨htake, hleft⟩ | _)
  · dsimp only
    rw [htake]
    split
    · exact .some hleft
    · exact .none
  · dsimp only
    split
    · exact .some hpending
    · exact .none

/-- What is left to match stays related from member to member. -/
theorem Reordered.passAll? (h : g.Reordered g' check members) {pending pending' : List Schema}
    (hpending : Shuffled (g.Alike check members) (g.Apart check members) pending pending')
    {rest : List Value}
    (hrest : ∀ k member, rest[k]? = some member → members[i + k]? = some member) :
    Option.Rel (Shuffled (g.Alike check members) (g.Apart check members))
      (g.passAll? check i pending rest) (g'.passAll? check i pending' rest) := by
  induction rest generalizing i pending pending' with
  | nil => exact .some hpending
  | cons member rest ih =>
    have hmember : members[i]? = some member := hrest 0 member rfl
    -- both walks pass this member or neither does, and what is left is again shuffled
    have hpass : Option.Rel (Shuffled (g.Alike check members) (g.Apart check members))
        (g.pass? check i member pending) (g'.pass? check i member pending') := by
      unfold Ground.pass?
      rw [h.holes, h.barred]
      split
      · exact .none
      · exact h.place? hmember hpending
    unfold Ground.passAll?
    revert hpass
    generalize g.pass? check i member pending = left
    generalize g'.pass? check i member pending' = left'
    rintro (hleft | _)
    · refine ih hleft fun k m hm => ?_
      rw [Nat.succ_add_eq_add_succ]
      exact hrest (k + 1) m hm
    · exact .none

/-- All members pass and nothing is left to match in the one walk if and only if so in the other. -/
theorem Reordered.passAll_iff (h : g.Reordered g' check members) :
    g.passAll? check 0 g.form.requireds members = some [] ↔
      g'.passAll? check 0 g'.form.requireds members = some [] := by
  have hall : ∀ k member, members[k]? = some member → members[0 + k]? = some member := by
    intro k member hmember
    rwa [Nat.zero_add]
  have hrel := h.passAll? h.requireds hall
  revert hrel
  generalize g.passAll? check 0 g.form.requireds members = left
  generalize g'.passAll? check 0 g'.form.requireds members = left'
  rintro (@⟨left, left', hleft⟩ | _)
  · rw [Option.some_inj, Option.some_inj, ← List.length_eq_zero_iff,
      ← List.length_eq_zero_iff, hleft.length_eq]
  · exact Iff.rfl

/-! ### A member for each required schema -/

/-- For each required schema there is a member of its own, and each member is matched: it is not
missing, it matches no forbidden schema but some other one, and none makes nothing of it. Of two
required schemas that share members, the one declared first accepts no others. -/
structure Matchable (g : Ground) (check : Check) (members : List Value) : Prop where
  own : ∃ places : List Nat, places.Nodup ∧
    List.Forall₂ (fun s i => g.Suits check members i s) g.form.requireds places
  nested : g.form.requireds.Pairwise fun s t =>
    g.Apart check members s t ∨ ∀ i, g.Suits check members i s → g.Suits check members i t
  allowed : ∀ i member, members[i]? = some member →
    g.isHole member = false ∧ g.isBarred check i member = false
  covered : ∀ i member, members[i]? = some member →
    ∃ s ∈ g.form.items, s.node.flags.presence ≠ some .forbidden ∧ g.Suits check members i s
  solid : ∀ i member, members[i]? = some member → ∀ s ∈ g.form.items, ∀ take,
    s.node.flags.presence ≠ some .forbidden → g.take? check i member s = some take →
    take = .value ∨ take = .stripped ∧ s.node.flags.presence ≠ some .required

end Ground

section

variable {α β : Type} {f : α → Option β} {xs : List α}

/-- Where nothing was taken, nothing can be. -/
theorem firstTake_none (h : firstTake f xs = none) : ∀ x ∈ xs, f x = none := by
  induction xs with
  | nil => exact List.forall_mem_nil _
  | cons x rest ih =>
    unfold firstTake at h
    cases hx : f x with
    | some b =>
      rw [hx] at h
      exact absurd h (by simp)
    | none =>
      rw [hx] at h
      exact List.forall_mem_cons.mpr ⟨hx, ih (Option.map_eq_none_iff.mp h)⟩

/-- What is taken is the first that can be, and the rest stays in order. -/
theorem firstTake_some {b : β} {left : List α} (h : firstTake f xs = some (b, left)) :
    ∃ front x back, xs = front ++ x :: back ∧ left = front ++ back ∧ f x = some b ∧
      ∀ y ∈ front, f y = none := by
  induction xs generalizing left with
  | nil => exact nomatch h
  | cons x rest ih =>
    unfold firstTake at h
    cases hx : f x with
    | some c =>
      rw [hx] at h
      obtain ⟨rfl, rfl⟩ := Prod.mk.inj (Option.some.inj h)
      exact ⟨[], x, rest, rfl, rfl, hx, List.forall_mem_nil _⟩
    | none =>
      rw [hx] at h
      obtain ⟨⟨c, left'⟩, hrest, heq⟩ := Option.map_eq_some_iff.mp h
      obtain ⟨rfl, rfl⟩ := Prod.mk.inj heq
      obtain ⟨front, y, back, hsplit, hleft, hy, hfront⟩ := ih hrest
      exact ⟨x :: front, y, back, congrArg (x :: ·) hsplit, congrArg (x :: ·) hleft, hy,
        List.forall_mem_cons.mpr ⟨hx, hfront⟩⟩

/-- Where nobody has place `j` and place `i` is gone, the one that place `i` was for, if there
is one, gets place `j`. -/
theorem refill {Suits : Nat → α → Prop} {i j : Nat} {places : List Nat} (hij : i ≤ j)
    (hown : List.Forall₂ (fun s p => i ≤ p ∧ Suits p s) xs places) (hapart : places.Nodup)
    (hfree : j ∉ places) (hswap : ∀ s ∈ xs, Suits i s → Suits j s) :
    ∃ places', List.Forall₂ (fun s p => i + 1 ≤ p ∧ Suits p s) xs places' ∧ places'.Nodup ∧
      places' ⊆ j :: places := by
  have hne {p : Nat} (hp : p ∈ places) : j ≠ p := fun heq => hfree (heq ▸ hp)
  -- whoever had place `i` moves to place `j`, and the others stay
  refine ⟨places.map fun p => if p = i then j else p, ?_, ?_, ?_⟩
  · have hplaces := (List.forall₂_and_left _ _).mpr ⟨fun p (hp : p ∈ places) => hp, hown.flip⟩
    have hmem := (List.forall₂_and_left _ _).mpr ⟨fun s (hs : s ∈ xs) => hs, hplaces.flip⟩
    rw [List.forall₂_map_right_iff]
    refine hmem.imp ?_
    rintro s p ⟨hs, hp, hle, hsuits⟩
    have hjp := hne hp
    split
    next heq => exact ⟨by omega, hswap s hs (heq ▸ hsuits)⟩
    next hother => exact ⟨by omega, hsuits⟩
  · refine List.Nodup.map_on (fun p hp q hq heq => ?_) hapart
    have hjp := hne hp
    have hjq := hne hq
    split at heq <;> split at heq <;> omega
  · intro q hq
    obtain ⟨p, hp, rfl⟩ := List.mem_map.mp hq
    split
    · exact List.mem_cons_self ..
    · exact List.mem_cons_of_mem _ hp

/-- After place `i` went to `x`, the others still have places of their own: the one that place `i`
was for, if there is one, gets the place that was for `x`. -/
theorem reassign {Suits : Nat → α → Prop} {i : Nat} {front back : List α}
    {x : α} {places : List Nat}
    (hown : List.Forall₂ (fun s p => i ≤ p ∧ Suits p s) (front ++ x :: back) places)
    (hapart : places.Nodup)
    (hfront : ∀ s ∈ front, ¬ Suits i s)
    (hback : ∀ s ∈ back, Suits i s → ∀ p, Suits p x → Suits p s) :
    ∃ places', List.Forall₂ (fun s p => i + 1 ≤ p ∧ Suits p s) (front ++ back) places' ∧
      places'.Nodup ∧
      places' ⊆ places := by
  induction front generalizing places with
  | nil =>
    obtain ⟨j, rest, ⟨hj, hx⟩, hrest, rfl⟩ := List.forall₂_cons_left_iff.mp hown
    obtain ⟨hfree, hapart⟩ := List.nodup_cons.mp hapart
    exact refill hj hrest hapart hfree fun s hs hsuits => hback s hs hsuits j hx
  | cons s front ih =>
    obtain ⟨p, rest, ⟨hp, hs⟩, hrest, rfl⟩ := List.forall₂_cons_left_iff.mp hown
    obtain ⟨hfree, hapart⟩ := List.nodup_cons.mp hapart
    obtain ⟨hnot, hfront⟩ := List.forall_mem_cons.mp hfront
    obtain ⟨places', hown', hapart', hsub⟩ := ih hrest hapart hfront
    have hne : p ≠ i := fun heq => hnot (heq ▸ hs)
    refine ⟨p :: places', .cons ⟨by omega, hs⟩ hown', ?_, List.cons_subset_cons _ hsub⟩
    exact List.nodup_cons.mpr ⟨fun hmem => hfree (hsub hmem), hapart'⟩

end

namespace Ground

variable {g : Ground} {check : Check} {members : List Value} {i : Nat} {member : Value}

/-- A member that some item schema accepts may stay, as none leaves a hole. -/
theorem Matchable.mayStay (h : g.Matchable check members) (hmember : members[i]? = some member) :
    g.mayStay check i member = true := by
  obtain ⟨s, hs, hpresence, hsuits⟩ := h.covered i member hmember
  obtain ⟨take, htake⟩ := hsuits.take hmember
  unfold Ground.mayStay
  dsimp only
  cases hfound : (g.form.inclusions ++ g.form.requireds).findSome? (g.take? check i member) with
  | none =>
    have hrefuses :=
      List.findSome?_eq_none_iff.mp hfound s (mem_candidateSchemas.mpr ⟨hs, hpresence⟩)
    exact nomatch hrefuses.symm.trans htake
  | some found =>
    obtain ⟨t, ht, htakes⟩ := List.exists_of_findSome?_eq_some hfound
    obtain ⟨hitem, hpresence⟩ := mem_candidateSchemas.mp ht
    rcases h.solid i member hmember t hitem found hpresence htakes with rfl | ⟨rfl, -⟩ <;> rfl

/-- If there is a member for each schema still to be matched, all members
pass and nothing is left. -/
theorem Matchable.passAll? (h : g.Matchable check members)
    {pending : List Schema} {places : List Nat}
    (hpending : pending.Sublist g.form.requireds) (hapart : places.Nodup)
    (hown : List.Forall₂ (fun s p => i ≤ p ∧ g.Suits check members p s) pending places)
    {rest : List Value}
    (hrest : ∀ k, members[i + k]? = rest[k]?) : g.passAll? check i pending rest = some [] := by
  induction rest generalizing i pending places with
  | nil =>
    -- no member is left to be had
    cases hown with
    | nil => rfl
    | @cons s p _ _ hs _ =>
      obtain ⟨hle, member, _, hmember, -⟩ := hs
      have hnone := hrest (p - i)
      rw [Nat.add_sub_cancel' hle, hmember] at hnone
      exact nomatch hnone
  | cons member rest ih =>
    have hmember : members[i]? = some member := hrest 0
    have hrest : ∀ k, members[i + 1 + k]? = rest[k]? := by
      intro k
      rw [Nat.succ_add_eq_add_succ]
      exact hrest (k + 1)
    obtain ⟨hvalue, hallowed⟩ := h.allowed i member hmember
    have hpass : g.pass? check i member pending = g.place? check i member pending :=
      if_neg (by simp [hvalue, hallowed])
    unfold Ground.passAll?
    rw [hpass, Ground.place?]
    cases hfirst : firstTake (g.take? check i member) pending with
    | none =>
      -- nobody was meant to have this member, so all places are behind it
      rw [h.mayStay hmember]
      refine ih hpending hapart ?_ hrest
      refine ((List.forall₂_and_left _ _).mpr ⟨firstTake_none hfirst, hown⟩).imp ?_
      rintro s p ⟨hnone, hle, hsuits⟩
      have hne : i ≠ p := by
        rintro rfl
        exact not_suits_of_none hmember hnone hsuits
      exact ⟨by omega, hsuits⟩
    | some first =>
      obtain ⟨take, left⟩ := first
      obtain ⟨front, x, back, rfl, rfl, htake, hfront⟩ := firstTake_some hfirst
      have hx : x ∈ g.form.requireds :=
        hpending.subset (List.mem_append_right _ (List.mem_cons_self ..))
      obtain ⟨hitem, hpresence⟩ := item_of_required hx
      have hrequired : x.node.flags.presence = some .required :=
        of_decide_eq_true (List.mem_filter.mp hx).2
      obtain rfl : take = .value :=
        (h.solid i member hmember x hitem take hpresence htake).resolve_right fun hstripped =>
          hstripped.2 hrequired
      -- the schemas before `x` do not accept the member, so only one behind it can have
      -- been meant to have it
      have hrefuses : ∀ s ∈ front, ¬ g.Suits check members i s :=
        fun s hs => not_suits_of_none hmember (hfront s hs)
      have hnested :=
        List.pairwise_cons.mp ((List.pairwise_append.mp (h.nested.sublist hpending)).2.1)
      obtain ⟨places', hown', hapart', -⟩ := reassign hown hapart hrefuses fun s hs hsuits =>
        (hnested.1 s hs).resolve_left fun hapart => hapart i ⟨.of_take hmember htake, hsuits⟩
      have hleft : (front ++ back).Sublist g.form.requireds :=
        ((List.sublist_cons_self x back).append_left front).trans hpending
      exact ih hleft hapart' hown' hrest

end Ground

/-! ### The whole -/

/-- The members are checked to the end, and there are no reports. -/
def Admits (form : ArrayForm Schema) (check : Check) (site : Site) (members : List Value)
    (w : Workshop) : Prop :=
  ∃ out w', (form.checkMembers check site members).run w = some ((out, []), w')

variable {form : ArrayForm Schema} {check : Check} {site : Site} {members : List Value}
  {items' : List Schema}

/-- Exchanges of neighbours that may trade make walks that are related. -/
theorem reordered_of_trades (schema' : Schema)
    (h : Shuffled Eq ((form.ground site members).MayTrade check members) form.items items') :
    (form.ground site members).Reordered
      (({ form with items := items' }).ground { site with schema := schema' } members)
      check members where
  takes := rfl
  holes := rfl
  barred := by
    funext i member
    exact ((h.perm.symm.filter _).map _).any_eq
  prefs := rfl
  requireds := by
    refine h.filter _ Ground.Alike.refl fun s t rest htrade hs ht => ?_
    rcases htrade.required (of_decide_eq_true hs) (of_decide_eq_true ht) with halike | hapart
    · refine .cons halike (.cons (fun i member hmember => (halike i member hmember).symm) ?_)
      exact .refl Ground.Alike.refl rest
    · exact .swap hapart
  inclusions := h.filter _ (fun _ => rfl) fun s t rest htrade hs ht =>
    .swap (htrade.plain (of_decide_eq_true hs) (of_decide_eq_true ht))

/-- Items any two of which may trade can be brought in any order. -/
theorem shuffled_of_perm {α : Type} {Swap : α → α → Prop} {xs ys : List α}
    (hsymm : ∀ x y, Swap x y → Swap y x)
    (hperm : xs.Perm ys) (hpair : xs.Pairwise Swap) : Shuffled Eq Swap xs ys := by
  induction hperm with
  | nil => exact .nil
  | cons x _ ih => exact .cons rfl (ih (List.pairwise_cons.mp hpair).2)
  | swap x y rest => exact .swap ((List.pairwise_cons.mp hpair).1 x (List.mem_cons_self ..))
  | trans hfirst _ ih₁ ih₂ => exact (ih₁ hpair).trans (ih₂ (hfirst.pairwise hpair (hsymm _ _)))

section

variable {fuel : Nat} {w w' : Workshop} (hsteady : site.env.Steady)

include hsteady

/-- Where copies are known by their stamps, recalled outcomes are those of trying again. -/
theorem reliable_of_honest (hhonest : form.HonestItems) (hitems : ∀ s ∈ form.items, s.Honest) :
    (form.ground site members).Reliable (Check.within site.env fuel) := by
  intro n s t hs ht i member prefs
  have hitem {u : Schema} (hu : (n, u) ∈ form.numberedRequireds) : u.Honest :=
    hitems u (item_of_required (required_of_numbered hu)).1
  exact Check.check_congr hsteady fuel member _ prefs (hitem hs) (hitem ht)
    (bare_of_numbered hhonest hs ht)

variable (hplaces : form.ordered = []) (hhonest : form.HonestItems)
  (hitems : ∀ s ∈ form.items, s.Honest) (hw : w.Sound site.env)

include hplaces hhonest hitems hw

/-- Members that are checked to the end pass if and only if nothing is left to
match after all of them. -/
theorem quiet_iff_passAll {out : List Value} {reports : List Report} {w₁ : Workshop}
    (h : (form.checkMembers (Check.within site.env fuel) site members).run w =
      some ((out, reports), w₁)) :
    reports = [] ↔
      (form.ground site members).passAll?
        (Check.within site.env fuel) 0 form.requireds members = some [] :=
  reports_eq_nil_iff hplaces (fun s value p prefs => Check.check_self hsteady fuel value p prefs s)
    (reliable_of_honest hsteady hhonest hitems) hw h

/-- An array is admitted just if the matching leaves no required schema. -/
theorem admits_iff
    (hdecided : ∀ i member, members[i]? = some member →
      (form.ground site members).Decided (Check.within site.env fuel) i member) :
    form.Admits (Check.within site.env fuel) site members w ↔
      (form.ground site members).passAll? (Check.within site.env fuel) 0 form.requireds members =
        some [] := by
  constructor
  · rintro ⟨out, w₁, hrun⟩
    exact (quiet_iff_passAll hsteady hplaces hhonest hitems hw hrun).mp rfl
  · exact comes_of_passAll hplaces
      (fun s value p prefs => Check.check_self hsteady fuel value p prefs s)
      (reliable_of_honest hsteady hhonest hitems) hw hdecided

/-- If there is a member for each required schema, the array is admitted. -/
theorem admits_of_matchable
    (hmatchable : (form.ground site members).Matchable (Check.within site.env fuel) members)
    (hdecided : ∀ i member, members[i]? = some member →
      (form.ground site members).Decided (Check.within site.env fuel) i member) :
    form.Admits (Check.within site.env fuel) site members w := by
  obtain ⟨places, hapart, hown⟩ := hmatchable.own
  refine (admits_iff hsteady hplaces hhonest hitems hw hdecided).mpr ?_
  refine hmatchable.passAll? (List.Sublist.refl _) hapart
    (hown.imp fun _ _ hs => ⟨Nat.zero_le _, hs⟩) fun k => ?_
  rw [Nat.zero_add]

end

/-! An array with two required schemas that share no member, for which all that is asked can be
evaluated. -/

/-- Where an array of this form is checked by itself. -/
def alone (env : Environment) (form : ArrayForm Schema) : Site :=
  ⟨env, Schema.ofForm (.array form), .root, {}, .undefined⟩

/-- A number and a text are required, and anything may come besides. -/
def numberAndText : ArrayForm Schema where
  items := [Schema.number.withPresence .required, Schema.string.withPresence .required, Schema.any]

namespace numberAndText

/-- A text comes first, then a number. -/
def given : List Value := [.string "x", .number 1]

def view : Ground := numberAndText.ground (alone {} numberAndText) given

/-- What holds of both members holds of all. -/
theorem forall_given {P : Nat → Value → Prop} (htext : P 0 (.string "x"))
    (hnumber : P 1 (.number 1)) : ∀ i member, given[i]? = some member → P i member := by
  rintro (_ | _ | i) member hmember
  · exact Option.some.inj hmember ▸ htext
  · exact Option.some.inj hmember ▸ hnumber
  · exact nomatch hmember

/-- Only the second member is a number. -/
theorem take_number : ∀ i member, given[i]? = some member →
    view.take? (Check.within {} 1) i member (Schema.number.withPresence .required) =
      if i = 1 then some .value else none :=
  forall_given (by decide +kernel) (by decide +kernel)

/-- Only the first member is a text. -/
theorem take_string : ∀ i member, given[i]? = some member →
    view.take? (Check.within {} 1) i member (Schema.string.withPresence .required) =
      if i = 0 then some .value else none :=
  forall_given (by decide +kernel) (by decide +kernel)

/-- The third schema accepts both. -/
theorem take_any : ∀ i member, given[i]? = some member →
    view.take? (Check.within {} 1) i member .any = some .value :=
  forall_given (by decide +kernel) (by decide +kernel)

theorem decided : ∀ i member, given[i]? = some member → view.Decided (Check.within {} 1) i member :=
  forall_given ⟨by decide +kernel, List.forall_mem_nil _⟩ ⟨by decide +kernel, List.forall_mem_nil _⟩

/-- No member is a number and a text. -/
theorem apart : view.Apart (Check.within {} 1) given (Schema.number.withPresence .required)
    (Schema.string.withPresence .required) := by
  rintro i ⟨⟨member, a, hmember, ha⟩, hsuits⟩
  obtain ⟨b, hb⟩ := hsuits.take hmember
  rw [take_number i member hmember] at ha
  rw [take_string i member hmember] at hb
  by_cases hi : i = 1
  · rw [if_neg (by omega)] at hb
    exact nomatch hb
  · rw [if_neg hi] at ha
    exact nomatch ha

/-- The first place goes to the text and the second to the number. -/
theorem matchable : view.Matchable (Check.within {} 1) given where
  own := ⟨[1, 0], by decide,
    .cons (.of_take rfl (take_number 1 _ rfl)) (.cons (.of_take rfl (take_string 0 _ rfl)) .nil)⟩
  nested := .cons (List.forall_mem_singleton.mpr (.inl apart)) (List.pairwise_singleton ..)
  allowed := forall_given (by decide +kernel) (by decide +kernel)
  covered := fun i member hmember =>
    ⟨.any, .tail _ (.tail _ (.head _)), by decide, .of_take hmember (take_any i member hmember)⟩
  solid := by
    intro i member hmember s hs take _ htake
    refine .inl ?_
    simp only [view, ground, numberAndText, List.mem_cons, List.not_mem_nil, or_false] at hs
    rcases hs with rfl | rfl | rfl
    · rw [take_number i member hmember] at htake
      split at htake
      · exact (Option.some.inj htake).symm
      · exact nomatch htake
    · rw [take_string i member hmember] at htake
      split at htake
      · exact (Option.some.inj htake).symm
      · exact nomatch htake
    · exact Option.some.inj (htake.symm.trans (take_any i member hmember))

/-- Each two of the items may trade places. -/
theorem mayTrade : numberAndText.items.Pairwise (view.MayTrade (Check.within {} 1) given) := by
  have hfree {s : Schema} (hs : s.node.flags.presence = some .required) :
      view.MayTrade (Check.within {} 1) given s .any :=
    ⟨fun _ hany => absurd hany (by decide), fun hplain => absurd hs hplain.1⟩
  refine .cons
    (List.forall_mem_cons.mpr ⟨⟨fun _ _ => .inr apart, fun hplain => absurd rfl hplain.1⟩, ?_⟩) ?_
  · exact List.forall_mem_singleton.mpr (hfree rfl)
  · exact .cons (List.forall_mem_singleton.mpr (hfree rfl)) (List.pairwise_singleton ..)

theorem honest : numberAndText.HonestItems := by
  have hstamps : ∀ s ∈ numberAndText.items, s.stamp = none := by decide +kernel
  intro s hs t _ hsame
  rw [Schema.isSame, hstamps s hs] at hsame
  exact absurd hsame (by simp)

theorem honest_items : ∀ s ∈ numberAndText.items, s.Honest := by
  intro s hs
  simp only [numberAndText, List.mem_cons, List.not_mem_nil, or_false] at hs
  rcases hs with rfl | rfl | rfl
  all_goals
    exact Schema.everywhere_iff.mpr ⟨fun form hform => (nomatch hform), List.forall_mem_nil _⟩

end numberAndText

/-- Item schemas may be declared in any order that comes of exchanging neighbours that may trade:
the members pass in one order if and only if they do in the other. And if there is a member for each
required schema, where schemas declared earlier accept no more than later ones that they share
members with, the members do pass. Generators are to make one schema always, and stamps stand for
identity: only copies of an item bear one stamp. -/
theorem order_of_items_immaterial {fuel : Nat} {w : Workshop} (hsteady : site.env.Steady)
    (hplaces : form.ordered = []) (hhonest : form.HonestItems) (hitems : ∀ s ∈ form.items, s.Honest)
    (hw : w.Sound site.env) :
    (∀ {items' : List Schema} {schema' : Schema} {w' : Workshop},
      Shuffled Eq ((form.ground site members).MayTrade (Check.within site.env fuel) members)
        form.items items' →
      w'.Sound site.env →
      (∀ {out out' : List Value} {reports reports' : List Report} {w₁ w₁' : Workshop},
        (form.checkMembers (Check.within site.env fuel) site members).run w =
          some ((out, reports), w₁) →
        (({ form with items := items' } : ArrayForm Schema).checkMembers
          (Check.within site.env fuel)
          { site with schema := schema' } members).run w' = some ((out', reports'), w₁') →
        (reports = [] ↔ reports' = [])) ∧
      ((∀ i member, members[i]? = some member →
          (form.ground site members).Decided (Check.within site.env fuel) i member) →
        (form.Admits (Check.within site.env fuel) site members w ↔
          ({ form with items := items' } : ArrayForm Schema).Admits (Check.within site.env fuel)
            { site with schema := schema' } members w'))) ∧
    ((form.ground site members).Matchable (Check.within site.env fuel) members →
      (∀ i member, members[i]? = some member →
        (form.ground site members).Decided (Check.within site.env fuel) i member) →
      form.Admits (Check.within site.env fuel) site members w) := by
  refine ⟨?_, admits_of_matchable hsteady hplaces hhonest hitems hw⟩
  intro items' schema' w' htrades hw'
  set form' : ArrayForm Schema := { form with items := items' }
  set site' : Site := { site with schema := schema' }
  have hsteady' : site'.env.Steady := hsteady
  have hplaces' : form'.ordered = [] := hplaces
  -- the exchange changes neither which items there are nor what is known of them
  have hitem {s : Schema} : s ∈ items' ↔ s ∈ form.items := htrades.perm.mem_iff.symm
  have hhonest' : form'.HonestItems := fun s hs t ht => hhonest s (hitem.mp hs) t (hitem.mp ht)
  have hitems' : ∀ s ∈ form'.items, s.Honest := fun s hs => hitems s (hitem.mp hs)
  have hadmits := (reordered_of_trades schema' htrades).passAll_iff
  constructor
  · intro out out' reports reports' w₁ w₁' hrun hrun'
    exact (quiet_iff_passAll hsteady hplaces hhonest hitems hw hrun).trans
      (hadmits.trans (quiet_iff_passAll hsteady' hplaces' hhonest' hitems' hw' hrun').symm)
  · intro hdecided
    have hdecided' : ∀ i member, members[i]? = some member →
        (form'.ground site' members).Decided (Check.within site.env fuel) i member := by
      intro i member hmember
      refine ⟨fun s hs => (hdecided i member hmember).items s (hitem.mp hs), fun s hs => ?_⟩
      exact (hdecided i member hmember).exclusions s
        (((htrades.perm.filter _).map _).mem_iff.mpr hs)
    exact (admits_iff hsteady hplaces hhonest hitems hw hdecided).trans
      (hadmits.trans (admits_iff hsteady' hplaces' hhonest' hitems' hw' hdecided').symm)

/-- A text and a number pass, in whatever order the number, the text and what takes
anything are declared. -/
theorem order_of_items_immaterial_numberAndText :
    numberAndText.Admits (Check.within {} 1) (alone {} numberAndText) numberAndText.given {} ∧
    ({ numberAndText with items := numberAndText.items.reverse } : ArrayForm Schema).Admits
      (Check.within {} 1) (alone {} numberAndText) numberAndText.given {} := by
  have hsteady : (alone {} numberAndText).env.Steady := fun _ _ => rfl
  have hsound : Workshop.Sound (alone {} numberAndText).env {} := Workshop.sound_new {}
  obtain ⟨hsame, hadmits⟩ :=
    order_of_items_immaterial hsteady rfl numberAndText.honest numberAndText.honest_items hsound
  have htrades :=
    shuffled_of_perm (fun _ _ => Ground.MayTrade.symm)
      (List.reverse_perm _).symm numberAndText.mayTrade
  have hpasses := hadmits numberAndText.matchable numberAndText.decided
  exact ⟨hpasses, ((hsame htrades hsound).2 numberAndText.decided).mp hpasses⟩

/-- Whether there are no reports on these members of an array of this form. -/
def isQuiet? (env : Environment) (members : List Value) (items : List Schema) : Option Bool :=
  let form : ArrayForm Schema := { items }
  (Runs.fresh? (form.checkMembers (Check.within env 2) (alone env form) members)).map fun result =>
    result.2.isEmpty

/-- Anything is required, and a number. -/
def anyAndNumber : ArrayForm Schema where
  items := [Schema.any.withPresence .required, Schema.number.withPresence .required]

/-- What the one generator makes takes numbers at first, then texts. -/
def fickle : Environment where
  registry :=
    { generators := fun _ => some fun used => if used = 0 then Schema.number else Schema.string }

/-- The order of item schemas decides in three ways. One that accepts more takes the member
that another one is in need of, though there is a member for each; the first of two to
accept a member leaves a hole; and a generator is used once more where its schema is tried
before the other. Besides, a member is reported that some schema accepts, where it matches a
forbidden one, or is missing. -/
theorem order_of_items_matters :
    List.Forall₂
      (fun s i => (anyAndNumber.ground (alone {} anyAndNumber) [.number 1, .string "x"]).Suits
        (Check.within {} 2) [.number 1, .string "x"] i s)
      anyAndNumber.requireds [1, 0] ∧
    isQuiet? {} [.number 1, .string "x"] anyAndNumber.items = some false ∧
    isQuiet? {} [.number 1, .string "x"] anyAndNumber.items.reverse = some true ∧
    isQuiet? {} [.number 1]
      [Schema.number, Schema.any.withEmpty (Schema.any.valid [.literal (.number 1)])] =
      some true ∧
    isQuiet? {} [.number 1]
      [Schema.any.withEmpty (Schema.any.valid [.literal (.number 1)]), Schema.number] =
      some false ∧
    isQuiet? fickle [.string "x", .number 1]
      [Schema.ofForm (.lazy { generator := "fickle", once := false }),
        Schema.any.valid [.literal (.string "x")]] =
      some false ∧
    isQuiet? fickle [.string "x", .number 1]
      [Schema.any.valid [.literal (.string "x")],
        Schema.ofForm (.lazy { generator := "fickle", once := false })] =
      some true ∧
    isQuiet? {} [.number 1] [Schema.any, Schema.number.withPresence .forbidden] = some false ∧
    isQuiet? {} [.undefined] [Schema.any] = some false := by
  refine ⟨.cons ⟨_, .value, rfl, by decide +kernel⟩
    (.cons ⟨_, .value, rfl, by decide +kernel⟩ .nil), ?_⟩
  decide +kernel

end ArrayForm

end Conform
