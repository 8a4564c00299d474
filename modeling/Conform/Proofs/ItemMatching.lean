import Conform.Proofs.ArrayPassage
import Conform.Proofs.Indifferent
import Conform.Proofs.Meeting

/-!
# How members are matched with item schemas

In an array without ordered schemas each member goes to the first required schema still to be
matched that accepts it, else to the first item schema that does. Which members an item schema
takes does not depend on what was checked before, where generators are steady; so the walk
over the members comes to no report if and only if the members can be gone through by what
each item schema makes of each member alone (`take?`), and what is left then of the required
schemas is nothing (`passAll?`).

Runs may come to nothing. `Reaches` says both what a run comes to if it ends and, where the
checks it makes do, that it ends. It has the two rules that its like have elsewhere, for
returning and for binding, and a third by which the run of one check may be replaced by that of
another that matches it.

The proof follows the walk. First come the questions that are asked of one member: is it excluded,
which of the pending schemas takes it, which of the candidates does. A check that failed before is
not made a second time but looked up, which is the same, since a check gives the same whenever it is
made (`Recalls`). Then one step, and then all of them by induction on the members, with the schemas
still pending as what goes from step to step (`Stage`).

Main statements: `reports_eq_nil_iff` and `comes_of_passAll`.
-/

namespace Conform

/-- What a run gives that starts from a new workshop. -/
def Runs.fresh? {α : Type} (x : Run α) : Option α := (x.run {}).map Prod.fst

/-- From a sound workshop the run gives a result with the property, if it ends; and it
does where `total` holds. -/
structure Reaches (env : Environment) (total : Prop) {α : Type} (P : α → Prop)
    (x : Run α) : Prop where
  ends : Ends env P x
  comes : total → ∀ w, w.Sound env → ∃ r, x.run w = some r

/-- What a run gives from everywhere it gives afresh. -/
theorem Gives.fresh? {env : Environment} {α : Type} {x : Run α} {a : α} (h : Gives env x a) :
    Runs.fresh? x = some a := by
  obtain ⟨w₁, hrun, -⟩ := h {} (Workshop.sound_new env)
  rw [Runs.fresh?, hrun]
  rfl

/-- What a run gives it comes to. -/
theorem Gives.comes {env : Environment} {α : Type} {x : Run α} {a : α}
    (h : Gives env x a) : Comes env x a := by
  obtain ⟨w₁, hrun, -⟩ := h {} (Workshop.sound_new env)
  exact ⟨{}, w₁, Workshop.sound_new env, hrun⟩

namespace Reaches

variable {env : Environment} {total : Prop} {α β : Type} {P : α → Prop} {x : Run α}

/-- What is returned is reached. -/
theorem pure {a : α} (h : P a) : Reaches env total P (Pure.pure a) :=
  ⟨.pure h, fun _ w _ => ⟨(a, w), rfl⟩⟩

/-- Steps reach what their last step reaches, from whatever the steps before reach. -/
theorem bind {Q : β → Prop} {f : α → Run β} (hx : Reaches env total P x)
    (hf : ∀ a, P a → Reaches env total Q (f a)) : Reaches env total Q (x >>= f) where
  ends := hx.ends.bind fun a ha => (hf a ha).ends
  comes := by
    intro htotal w hw
    obtain ⟨⟨a, w₁⟩, hrun⟩ := hx.comes htotal w hw
    obtain ⟨ha, hs⟩ := hx.ends w a w₁ hw hrun
    obtain ⟨r, hrest⟩ := (hf a ha).comes htotal w₁ hs
    refine ⟨r, ?_⟩
    rw [StateT.run_bind, hrun]
    exact hrest

/-- Less may be said of what is reached. -/
theorem mono {Q : α → Prop} (h : Reaches env total P x) (himp : ∀ a, P a → Q a) :
    Reaches env total Q x :=
  ⟨h.ends.mono himp, h.comes⟩

/-- A run that matches itself gives one result, if any. -/
theorem of_self (hself : Matches env Eq x x) (htotal : total → (Runs.fresh? x).isSome) :
    Reaches env total (Gives env x) x where
  ends := by
    intro w a w₁ hw hrun
    obtain ⟨-, hs⟩ := hself.ends w a w₁ hw hrun
    exact ⟨hself.gives ⟨w, w₁, hw, hrun⟩, hs⟩
  comes := by
    intro ht w hw
    obtain ⟨a, ha⟩ := Option.isSome_iff_exists.mp (htotal ht)
    obtain ⟨⟨_, w₀⟩, hnew, rfl⟩ := Option.map_eq_some_iff.mp ha
    obtain ⟨w₁, hrun, -⟩ := hself.gives ⟨{}, w₀, Workshop.sound_new env, hnew⟩ w hw
    exact ⟨_, hrun⟩

/-- A run reaches what a run that matches it reaches. -/
theorem of_matches {y : Run α} (hy : Reaches env total P y) (h : Matches env Eq x y) :
    Reaches env total P x := by
  constructor
  · intro w a w₁ hw hrun
    have hmatch := h w w hw hw
    rw [hrun] at hmatch
    revert hmatch
    cases hrun' : y.run w with
    | none => exact fun h => nomatch h
    | some r =>
      rintro (⟨heq, hs, -⟩ | _)
      obtain rfl : a = r.1 := heq
      exact ⟨(hy.ends w _ _ hw hrun').1, hs⟩
  · intro ht w hw
    obtain ⟨r, hrun'⟩ := hy.comes ht w hw
    have hmatch := h w w hw hw
    rw [hrun'] at hmatch
    revert hmatch
    cases x.run w with
    | none => exact fun h => nomatch h
    | some r' => exact fun _ => ⟨r', rfl⟩

end Reaches

namespace ArrayForm

/-- What a member comes to that a schema accepts. -/
inductive Take
  | value
  /-- Nothing, where members without a value are too many. -/
  | gap
  /-- The same, to be stripped. -/
  | stripped
  deriving DecidableEq

/-- The first element that has an image, and the list without it. -/
def firstTake {α β : Type} (f : α → Option β) : List α → Option (β × List α)
  | [] => none
  | x :: rest =>
    match f x with
    | some b => some (b, rest)
    | none => (firstTake f rest).map fun (b, left) => (b, x :: left)

namespace Ground

/-- How a member with the outcome is taken: as a value, as a gap, or to be stripped. -/
def taking (g : Ground) (o : Outcome) : Take :=
  if g.isHole o.value then if o.strip then .stripped else .gap else .value

/-- What the schema makes of the member in place `i`, if it accepts it. -/
def take? (g : Ground) (check : Check) (i : Nat) (member : Value) (s : Schema) : Option Take :=
  (Runs.fresh? (check s member (g.position i) g.site.prefs)).bind fun o =>
    if o.isOk then some (g.taking o) else none

/-- Whether some forbidden schema matches the member. -/
def isBarred (g : Ground) (check : Check) (i : Nat) (member : Value) : Bool :=
  g.form.exclusions.any fun s =>
    Runs.fresh? (check.passes s member (g.position i) g.site.prefs) == some true

/-- Whether there are no reports on a member that no required schema is in need of. -/
def mayStay (g : Ground) (check : Check) (i : Nat) (member : Value) : Bool :=
  let candidates := g.form.inclusions ++ g.form.requireds
  match candidates.findSome? (g.take? check i member) with
  | some take => take ≠ .gap
  | none => candidates.isEmpty || g.site.prefs.stripUnknown.arrays

/-- The required schemas left to match after the member in place `i`, unless that is reported. -/
def place? (g : Ground) (check : Check) (i : Nat) (member : Value) (pending : List Schema) :
    Option (List Schema) :=
  match firstTake (g.take? check i member) pending with
  | some (take, left) => if take = .value then some left else none
  | none => if g.mayStay check i member then some pending else none

/-- As `place?`, of a member that may be missing or match a forbidden schema. -/
def pass? (g : Ground) (check : Check) (i : Nat) (member : Value) (pending : List Schema) :
    Option (List Schema) :=
  if g.isHole member || g.isBarred check i member then none else g.place? check i member pending

/-- The required schemas left to match after the members from place `i` on,
unless one is reported. -/
def passAll? (g : Ground) (check : Check) (i : Nat) (pending : List Schema) :
    List Value → Option (List Schema)
  | [] => some pending
  | member :: rest => (g.pass? check i member pending).bind fun left =>
    g.passAll? check (i + 1) left rest

/-- Every check of the member comes to an end. -/
structure Decided (g : Ground) (check : Check) (i : Nat) (member : Value) : Prop where
  items : ∀ s ∈ g.form.items, (Runs.fresh? (check s member (g.position i) g.site.prefs)).isSome
  exclusions : ∀ s ∈ g.form.exclusions,
    (Runs.fresh? (check.passes s member (g.position i) g.site.prefs)).isSome

/-- A walk without reports and places that has these required schemas to match. -/
structure Stage (g : Ground) (pending : List Schema) (walk : Walk) : Prop where
  reports : walk.reports = []
  ordereds : walk.ordereds = []
  requireds : walk.requireds.map Prod.snd = pending
  numbered : walk.requireds ⊆ g.form.numberedRequireds

/-- A step goes on with what is left to match, or it has reports. -/
def Follows (g : Ground) : Option (List Schema) → Step → Prop
  | some left, step => ∃ after, step = .next after ∧ g.Stage left after
  | none, step => step.reports ≠ []

variable {g : Ground} {check : Check} {total : Prop} {i : Nat} {member : Value}
  {pending : List Schema} {walk : Walk} {s : Schema} {o : Outcome}

/-- A schema takes a member if the check of the member, which gives the same
everywhere, accepts it. -/
theorem take?_of_gives (h : Gives g.site.env (check s member (g.position i) g.site.prefs) o) :
    g.take? check i member s = if o.isOk then some (g.taking o) else none := by
  rw [take?, h.fresh?]
  rfl

/-- A walk that fails has a report. -/
theorem fail_reports {before : Walk} {reports : List Report} {goOn : Walk → Step}
    (hgo : ∀ walk, (goOn walk).reports = walk.reports) (hsome : reports ≠ []) :
    (g.fail before reports goOn).reports ≠ [] := by
  intro hnil
  have hjudged : Judged before (g.fail before reports goOn) fun _ => False := .fail hgo hsome
  obtain ⟨_, -, hfalse⟩ := hjudged.passes hnil
  exact hfalse

/-- The values that were put out so far do not matter to what is left to match. -/
theorem Stage.push (h : g.Stage pending walk) (out : List Value) :
    g.Stage pending { walk with out } :=
  ⟨h.reports, h.ordereds, h.requireds, h.numbered⟩

/-- The candidates are the item schemas that are not forbidden, and the required ones at the end. -/
theorem candidates_map : g.candidates.map Prod.snd = g.form.inclusions ++ g.form.requireds := by
  unfold candidates
  rw [List.map_append, List.map_map, List.map_map, ← map_numberedRequireds]
  congr 1
  exact List.map_id' _

/-- The candidates are the item schemas that are not forbidden. -/
theorem mem_candidateSchemas :
    s ∈ g.form.inclusions ++ g.form.requireds ↔
    s ∈ g.form.items ∧ s.node.flags.presence ≠ some .forbidden := by
  rw [← candidates_map, ← mem_candidates, List.mem_map]
  exact ⟨fun ⟨c, hc, heq⟩ => ⟨c.1, heq ▸ hc⟩, fun ⟨number, hc⟩ => ⟨(number, s), hc, rfl⟩⟩

/-! ### One member -/

section

variable (hself : ∀ s value p prefs,
  Matches g.site.env Eq (check s value p prefs) (check s value p prefs))

include hself

/-- A member is excluded if one of the exclusions, asked afresh, accepts it. -/
theorem isExcluded_reaches {exclusions : List Schema} (htotal : total → ∀ s ∈ exclusions,
    (Runs.fresh? (check.passes s member (g.position i) g.site.prefs)).isSome) :
    Reaches g.site.env total
      (fun excluded => (exclusions.any fun s =>
        Runs.fresh? (check.passes s member (g.position i) g.site.prefs) == some true) = excluded)
      (g.isExcluded check i member exclusions) := by
  induction exclusions with
  | nil => exact .pure rfl
  | cons s rest ih =>
    have hpasses : Matches g.site.env Eq (check.passes s member (g.position i) g.site.prefs)
        (check.passes s member (g.position i) g.site.prefs) :=
      (hself s member _ _).bind fun _ _ heq => .pure (congrArg Outcome.isOk heq)
    unfold isExcluded
    refine (Reaches.of_self hpasses fun ht => htotal ht s (List.mem_cons_self ..)).bind ?_
    intro passes hgives
    rw [List.any_cons, hgives.fresh?]
    cases passes with
    | true => exact .pure rfl
    | false => exact ih fun ht s hs => htotal ht s (List.mem_cons_of_mem _ hs)

/-- What trying the required schemas comes to, where `before` are those tried already. -/
def Tells (g : Ground) (check : Check) (i : Nat) (member : Value)
    (before pending : List (Nat × Schema)) : Tried → Prop
  | .matched o left => ∃ back, left = before ++ back ∧ back ⊆ pending ∧
      firstTake (g.take? check i member) (pending.map Prod.snd) =
      some (g.taking o, back.map Prod.snd)
  | .failed failed => g.Recalls check i member failed ∧
      firstTake (g.take? check i member) (pending.map Prod.snd) = none

/-- A required schema is found if one of those pending takes the member, and it is the first. -/
theorem tryRequireds_reaches {before pending : List (Nat × Schema)} {failed : List (Nat × Outcome)}
    (hpending : pending ⊆ g.form.numberedRequireds) (hfailed : g.Recalls check i member failed)
    (htotal : total → g.Decided check i member) :
    Reaches g.site.env total (g.Tells check i member before pending)
      (g.tryRequireds check i member before failed pending) := by
  induction pending generalizing before failed with
  | nil => exact .pure ⟨hfailed, rfl⟩
  | cons first rest ih =>
    obtain ⟨number, s⟩ := first
    obtain ⟨hnumbered, hrest⟩ := List.cons_subset.mp hpending
    have hitem := (item_of_required (required_of_numbered hnumbered)).1
    unfold tryRequireds
    refine (Reaches.of_self (hself s member _ _) fun ht => (htotal ht).items s hitem).bind ?_
    intro o hgives
    have htake := take?_of_gives hgives
    by_cases hok : o.isOk = true
    · rw [if_pos hok] at htake ⊢
      refine .pure ⟨rest, rfl, List.subset_cons_self .., ?_⟩
      rw [List.map_cons, firstTake, htake]
    · rw [if_neg hok] at htake ⊢
      -- the failure is recalled by the number of the schema
      have hmore : g.Recalls check i member (failed ++ [(number, o)]) := by
        intro n p hmem
        rcases List.mem_append.mp hmem with hold | hnew
        · exact hfailed n p hold
        · obtain ⟨rfl, rfl⟩ := Prod.mk.inj (List.mem_singleton.mp hnew)
          exact ⟨s, hnumbered, hgives.comes⟩
      refine (ih hrest hmore).mono ?_
      rintro (⟨p, left⟩ | failed)
      · rintro ⟨back, hleft, hback, hfirst⟩
        refine ⟨(number, s) :: back, ?_, List.cons_subset_cons _ hback, ?_⟩
        · rw [hleft, List.append_assoc, List.singleton_append]
        · rw [List.map_cons, firstTake, htake, hfirst]
          rfl
      · rintro ⟨hrecalls, hfirst⟩
        refine ⟨hrecalls, ?_⟩
        rw [List.map_cons, firstTake, htake, hfirst]
        rfl

variable (hreliable : g.Reliable check)

include hreliable

/-- Candidates give what they give when tried alone, even if that is recalled. -/
theorem outcome_reaches {failed : List (Nat × Outcome)} (hfailed : g.Recalls check i member failed)
    (htotal : total → g.Decided check i member) {c : Option Nat × Schema} (hc : c ∈ g.candidates) :
    Reaches g.site.env total (Gives g.site.env (check c.2 member (g.position i) g.site.prefs))
      (g.outcome check i member failed c.1 c.2) := by
  obtain ⟨number, s⟩ := c
  have hitem := (mem_candidates.mp ⟨number, hc⟩).1
  have htried : Reaches g.site.env total
      (Gives g.site.env (check s member (g.position i) g.site.prefs))
      (check s member (g.position i) g.site.prefs) :=
    .of_self (hself s member _ _) fun ht => (htotal ht).items s hitem
  cases number with
  | none => exact htried
  | some n =>
    have hnumbered : (n, s) ∈ g.form.numberedRequireds := by
      rcases List.mem_append.mp hc with hplain | hrequired
      · obtain ⟨_, -, heq⟩ := List.mem_map.mp hplain
        exact nomatch heq
      · obtain ⟨⟨m, t⟩, ht, heq⟩ := List.mem_map.mp hrequired
        obtain ⟨hnumber, rfl⟩ := Prod.mk.inj heq
        obtain rfl := Option.some.inj hnumber
        exact ht
    exact htried.of_matches (hreliable.outcome hfailed hnumbered)

/-- An item schema is found if one of the candidates takes the member, and it is the first. -/
theorem tryInclusions_reaches {failed : List (Nat × Outcome)}
    (hfailed : g.Recalls check i member failed)
    (htotal : total → g.Decided check i member) {cs : List (Option Nat × Schema)}
    (hcs : cs ⊆ g.candidates) : Reaches g.site.env total
      (fun tried => (cs.map Prod.snd).findSome? (g.take? check i member) = tried.1.map g.taking ∧
        (tried.1 = none → cs ≠ [] → tried.2.isOk = false))
      (g.tryInclusions check i member failed cs) := by
  induction cs with
  | nil => exact .pure ⟨rfl, fun _ hne => absurd rfl hne⟩
  | cons c rest ih =>
    obtain ⟨hc, hrest⟩ := List.cons_subset.mp hcs
    obtain ⟨number, s⟩ := c
    unfold tryInclusions
    refine (outcome_reaches hself hreliable hfailed htotal hc).bind ?_
    intro o hgives
    -- taking is a function of the member, as the schemas give one outcome each
    have htake := take?_of_gives hgives
    rw [List.map_cons, List.findSome?_cons, htake]
    by_cases hok : o.isOk = true
    · rw [if_pos hok, if_pos hok]
      exact .pure ⟨rfl, fun habsurd => absurd habsurd (by simp)⟩
    · rw [if_neg hok, if_neg hok]
      -- the last candidate decides what is reported if none takes the member
      cases rest with
      | nil => exact .pure ⟨rfl, fun _ _ => by simpa using hok⟩
      | cons c' rest =>
        rw [if_neg (by simp)]
        exact (ih hrest).mono fun tried h => ⟨h.1, fun hnone _ => h.2 hnone (List.cons_ne_nil _ _)⟩

/-- A member that no pending schema takes leaves what is pending, unless it is reported. -/
theorem includeMember_reaches {failed : List (Nat × Outcome)} (hstage : g.Stage pending walk)
    (hfirst : firstTake (g.take? check i member) pending = none)
    (hfailed : g.Recalls check i member failed) (htotal : total → g.Decided check i member) :
    Reaches g.site.env total (g.Follows (g.place? check i member pending))
      (g.includeMember check walk i member failed) := by
  have hplace : g.place? check i member pending =
      if g.mayStay check i member then some pending else none := by
    rw [place?, hfirst]
  rw [hplace]
  unfold includeMember
  dsimp only
  by_cases hnone : g.candidates.isEmpty = true
  · have hstay : g.mayStay check i member = true := by
      rw [mayStay, ← candidates_map, List.isEmpty_iff.mp hnone]
      rfl
    rw [if_pos hnone, hstay]
    exact .pure ⟨_, rfl, hstage.push _⟩
  rw [if_neg hnone]
  refine (tryInclusions_reaches hself hreliable hfailed htotal (List.Subset.refl _)).bind ?_
  rintro ⟨accepted, last⟩ ⟨htaken, hlast⟩
  rw [candidates_map] at htaken
  cases accepted with
  | some o =>
    have hstay : g.mayStay check i member = decide (g.taking o ≠ .gap) := by
      rw [mayStay, htaken]
      rfl
    rw [hstay]
    refine .pure ?_
    show g.Follows _ (g.takeIncluded walk i o)
    unfold taking takeIncluded
    by_cases hstrip : o.strip = true
    · rw [if_pos hstrip, if_pos hstrip, if_pos (by split <;> simp)]
      exact ⟨walk, rfl, hstage⟩
    · rw [if_neg hstrip, if_neg hstrip]
      split
      · exact fail_reports (fun _ => rfl) (List.cons_ne_nil _ _)
      · exact ⟨_, rfl, hstage.push _⟩
  | none =>
    have hstay : g.mayStay check i member = g.site.prefs.stripUnknown.arrays := by
      have hempty : (g.form.inclusions ++ g.form.requireds).isEmpty = false := by
        rw [← candidates_map, List.isEmpty_map]
        simpa using hnone
      rw [mayStay, htaken, hempty]
      rfl
    -- the last candidate failed, and either it or the array reports that
    have hreports :=
      Outcome.reports_ne_nil (hlast rfl fun hnil => hnone (List.isEmpty_iff.mpr hnil))
    rw [hstay]
    dsimp only
    split
    · exact .pure ⟨walk, rfl, hstage⟩
    · split
      · exact .pure (fail_reports (fun _ => rfl) hreports)
      · exact .pure (fail_reports (fun _ => rfl) (List.cons_ne_nil _ _))

/-- A member is placed as it would be by what each schema makes of it alone. -/
theorem placeMember_reaches (hstage : g.Stage pending walk)
    (htotal : total → g.Decided check i member) :
    Reaches g.site.env total (g.Follows (g.place? check i member pending))
      (g.placeMember check walk i member) := by
  obtain rfl := hstage.requireds
  unfold placeMember
  refine (tryRequireds_reaches hself hstage.numbered
    (fun _ _ hmem => absurd hmem List.not_mem_nil) htotal).bind ?_
  rintro (⟨o, left⟩ | failed)
  · rintro ⟨back, hleft, hback, hfirst⟩
    rw [List.nil_append] at hleft
    subst hleft
    refine .pure ?_
    unfold place?
    rw [hfirst]
    -- a hole that a required schema makes is reported, so the member is not taken then
    show g.Follows (if g.taking o = .value then some (left.map Prod.snd) else none) _
    have hstage' : g.Stage (left.map Prod.snd) { walk with requireds := left } :=
      ⟨hstage.reports, hstage.ordereds, rfl, List.Subset.trans hback hstage.numbered⟩
    unfold takeRequired taking
    dsimp only
    split
    · rw [if_neg (by split <;> simp)]
      exact fail_reports (fun _ => rfl) (List.cons_ne_nil _ _)
    · exact ⟨_, rfl, hstage'.push _⟩
  · rintro ⟨hfailed, hfirst⟩
    exact includeMember_reaches hself hreliable hstage hfirst hfailed htotal

/-- One step of the walk does with a member what is done with it alone. -/
theorem step_reaches (hplaces : g.form.ordered = [])
    (hstage : g.Stage pending walk) (rest : List Value)
    (htotal : total → g.Decided check i member) :
    Reaches g.site.env total (g.Follows (g.pass? check i member pending))
      (g.step check walk i member rest) := by
  unfold Ground.step pass?
  dsimp only
  by_cases hhole : g.isHole member = true
  · rw [if_pos hhole, if_pos (by simp [hhole])]
    exact .pure (fail_reports (fun _ => rfl) (List.cons_ne_nil _ _))
  rw [if_neg hhole, show g.isHole member = false by simpa using hhole, Bool.false_or]
  refine (isExcluded_reaches hself fun ht => (htotal ht).exclusions).bind ?_
  intro excluded hexcluded
  rw [show g.isBarred check i member = excluded from hexcluded]
  cases excluded with
  | true => exact .pure (fail_reports (fun _ => rfl) (List.cons_ne_nil _ _))
  | false =>
    rw [if_neg Bool.false_ne_true, if_neg Bool.false_ne_true, hplaces]
    exact placeMember_reaches hself hreliable hstage htotal

/-! ### All members -/

/-- How a walk ends that is to leave these required schemas, or to be reported. -/
def Finishes (g : Ground) : Option (List Schema) → Except (List Report) Walk → Prop
  | some left, result => ∃ last, result = .ok last ∧ g.Stage left last
  | none, result => ended result ≠ []

/-- A walk that ends has left to match what is left by what each schema makes of each member
alone, or it has reports. -/
theorem walk_finishes {members : List Value} {w w' : Workshop} {result : Except (List Report) Walk}
    (hplaces : g.form.ordered = []) (hstage : g.Stage pending walk) (hw : w.Sound g.site.env)
    (h : (g.walk check walk i members).run w = some (result, w')) :
    g.Finishes (g.passAll? check i pending members) result := by
  induction members generalizing i pending walk w with
  | nil =>
    obtain ⟨rfl, -⟩ := Runs.pure_some h
    exact ⟨walk, rfl, hstage⟩
  | cons member rest ih =>
    unfold Ground.walk at h
    obtain ⟨step, w₁, hstep, hrest⟩ := Runs.bind_some h
    have hreaches : Reaches g.site.env False (g.Follows (g.pass? check i member pending))
        (g.step check walk i member rest) :=
      step_reaches hself hreliable hplaces hstage rest False.elim
    obtain ⟨hfollows, hs⟩ := hreaches.ends w step w₁ hw hstep
    unfold passAll?
    cases hpass : g.pass? check i member pending with
    | some left =>
      rw [hpass] at hfollows
      obtain ⟨after, rfl, hstage'⟩ := hfollows
      exact ih hstage' hs hrest
    | none =>
      -- reports are never taken back
      rw [hpass] at hfollows
      have hsome : step.reports ≠ [] := hfollows
      show ended result ≠ []
      cases step with
      | next after => exact fun hnil => hsome (List.prefix_nil.mp (hnil ▸ walk_keeps hrest))
      | finish after =>
        obtain ⟨rfl, -⟩ := Runs.pure_some hrest
        exact hsome
      | abort reports =>
        obtain ⟨rfl, -⟩ := Runs.pure_some hrest
        exact hsome

/-- A walk comes to its end that goes without reports and whose checks do. -/
theorem walk_comes {members : List Value} {left : List Schema} {w : Workshop}
    (hplaces : g.form.ordered = []) (hstage : g.Stage pending walk) (hw : w.Sound g.site.env)
    (hdecided : ∀ k member, members[k]? = some member → g.Decided check (i + k) member)
    (hpasses : g.passAll? check i pending members = some left) :
    ∃ r, (g.walk check walk i members).run w = some r := by
  induction members generalizing i pending walk w with
  | nil => exact ⟨_, rfl⟩
  | cons member rest ih =>
    obtain ⟨next, hpass, hrest⟩ := Option.bind_eq_some_iff.mp hpasses
    have hreaches : Reaches g.site.env True (g.Follows (g.pass? check i member pending))
        (g.step check walk i member rest) :=
      step_reaches hself hreliable hplaces hstage rest fun _ => hdecided 0 member rfl
    -- as each step is decided, the walk does not stop short
    obtain ⟨⟨step, w₁⟩, hstep⟩ := hreaches.comes trivial w hw
    obtain ⟨hfollows, hs⟩ := hreaches.ends w step w₁ hw hstep
    rw [hpass] at hfollows
    obtain ⟨after, rfl, hstage'⟩ := hfollows
    have hdecided' : ∀ k member, rest[k]? = some member → g.Decided check (i + 1 + k) member := by
      intro k m hm
      rw [Nat.succ_add_eq_add_succ]
      exact hdecided (k + 1) m hm
    obtain ⟨r, hrun⟩ := ih hstage' hs hdecided' hrest
    refine ⟨r, ?_⟩
    unfold Ground.walk
    rw [StateT.run_bind, hstep]
    exact hrun

end

/-- A walk with nothing pending is closed without a report. -/
theorem Stage.close {last : Walk} (h : g.Stage [] last) :
    g.close check last = pure (last.out, []) := by
  have hreports : g.reports last = [] := by
    unfold Ground.reports
    rw [h.reports, h.ordereds, h.requireds]
    rfl
  unfold Ground.close
  rw [hreports, h.ordereds]
  rfl

end Ground

/-! ### The whole -/

section

variable {form : ArrayForm Schema} {check : Check} {site : Site}
  {members : List Value} {w : Workshop} (hplaces : form.ordered = [])
  (hself : ∀ s value p prefs, Matches site.env Eq (check s value p prefs) (check s value p prefs))
  (hreliable : (form.ground site members).Reliable check) (hw : w.Sound site.env)

include hplaces hself hreliable hw

/-- Members that are checked to the end have no reports if and only if all pass and
nothing is left to match. -/
theorem reports_eq_nil_iff {out : List Value} {reports : List Report} {w' : Workshop}
    (h : (form.checkMembers check site members).run w = some ((out, reports), w')) :
    reports = [] ↔
    (form.ground site members).passAll? check 0 form.requireds members = some [] := by
  unfold checkMembers at h
  dsimp only at h
  set g : Ground := form.ground site members
  obtain ⟨result, w₁, hwalk, hclose⟩ := Runs.bind_some h
  change (g.walk check _ 0 members).run w = _ at hwalk
  have hstage : g.Stage form.requireds
      { requireds := form.numberedRequireds, ordereds := form.ordered } :=
    ⟨rfl, hplaces, map_numberedRequireds form, List.Subset.refl _⟩
  -- how the walk ended is known from the matching alone
  have hfinishes := Ground.walk_finishes hself hreliable hplaces hstage hw hwalk
  constructor
  · rintro rfl
    cases hpasses : g.passAll? check 0 form.requireds members with
    | none =>
      rw [hpasses] at hfinishes
      cases result with
      | ok last => exact absurd (Ground.close_quiet hclose).1 hfinishes
      -- a walk that was ended has something to report
      | error reports =>
        obtain ⟨heq, -⟩ := Runs.pure_some hclose
        exact absurd (Prod.mk.inj heq).2 hfinishes
    | some left =>
      rw [hpasses] at hfinishes
      obtain ⟨last, rfl, hlast⟩ := hfinishes
      rw [← hlast.requireds, (Ground.close_quiet hclose).2.1]
      rfl
  · intro hpasses
    rw [hpasses] at hfinishes
    obtain ⟨last, rfl, hlast⟩ := hfinishes
    have hclose : (g.close check last).run w₁ = some ((out, reports), w') := hclose
    rw [hlast.close] at hclose
    exact (Prod.mk.inj (Runs.pure_some hclose).1).2.symm

/-- Members that can all pass with nothing left to match are checked to the end. -/
theorem comes_of_passAll
    (hdecided : ∀ i member, members[i]? = some member →
      (form.ground site members).Decided check i member)
    (hpasses : (form.ground site members).passAll? check 0 form.requireds members = some []) :
    ∃ out w', (form.checkMembers check site members).run w = some ((out, []), w') := by
  set g : Ground := form.ground site members
  have hstage : g.Stage form.requireds
      { requireds := form.numberedRequireds, ordereds := form.ordered } :=
    ⟨rfl, hplaces, map_numberedRequireds form, List.Subset.refl _⟩
  have hdecided : ∀ k member, members[k]? = some member → g.Decided check (0 + k) member := by
    intro k member hmember
    rw [Nat.zero_add]
    exact hdecided k member hmember
  obtain ⟨⟨result, w₁⟩, hwalk⟩ :=
    Ground.walk_comes hself hreliable hplaces hstage hw hdecided hpasses
  have hfinishes := Ground.walk_finishes hself hreliable hplaces hstage hw hwalk
  rw [hpasses] at hfinishes
  obtain ⟨last, rfl, hlast⟩ := hfinishes
  refine ⟨last.out, w₁, ?_⟩
  unfold checkMembers
  dsimp only
  rw [StateT.run_bind]
  show (g.walk check _ 0 members).run w >>= _ = _
  rw [hwalk]
  show (g.close check last).run w₁ = _
  rw [hlast.close]
  rfl

end

end ArrayForm

end Conform
