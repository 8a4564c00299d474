import Mathlib.Data.List.Forall2
import Mathlib.Data.List.Perm.Basic
import Mathlib.Data.List.ReduceOption
import Conform.Check.Node
import Conform.Proofs.Runs

/-!
# Arrays that pass

A walk over the members of an array makes many small checks, of members by schemas. They are listed
as `Trials`, each from the workshop that the one before it left, and what is said of members is said
by the trials in that list: that a schema accepted a member (`Accepts`), that it was held against it
and refused it (`Refuses`), and what became of the member (`Fate`). What is known among some trials
is known among more, so a step may be judged by its own trials and the walk by all of them.

Reports are never taken back, so a walk without reports at its end had none at any member
(`step_advances`). A step is therefore judged only for the case that it is quiet (`Judged`).
Each member then fits its place, and three things go on from member to member (`Passage`): the
places still to come shrink by one, the outputs grow by at most one, and the required schemas
not matched yet, with those that were matched, are those there were at the start. At the end
none is left, so every required schema has a member of its own, and no two of them share one, as
each step matches one schema at most.

The lemmas follow the walk: rounds of trials, the parts of a step, one member, all members, and last
its end with the reports and the defaults.

Main statement: `members_pass`.
-/

namespace Conform

/-- What fails has reports. -/
theorem Outcome.reports_ne_nil {o : Outcome} (h : o.isOk = false) : o.reports ≠ [] := by
  intro hnil
  rw [Outcome.isOk, hnil] at h
  exact absurd h (by simp)

namespace ArrayForm

/-- A member checked by a schema in the course of a walk, and what came of it. -/
structure Trial where
  place : Nat
  member : Value
  schema : Schema
  prefs : Preferences
  outcome : Outcome

/-- An outcome gives this output: its value, or nothing if that is to be stripped. -/
def Yields (o : Outcome) (out : Option Value) : Prop :=
  out = some o.value ∨ out = none ∧ o.strip = true

/-- The schemas that may take the member in place `i`: the one of that place, and behind the last
place all item schemas that are not forbidden. -/
def MayTake (form : ArrayForm Schema) (i : Nat) (s : Schema) : Prop :=
  form.ordered[i]? = some s ∨
    form.ordered.length ≤ i ∧ s ∈ form.items ∧ s.node.flags.presence ≠ some .forbidden

/-- Numbering leaves the required items and their order. -/
theorem map_numberedRequireds (form : ArrayForm Schema) :
    form.numberedRequireds.map Prod.snd = form.requireds := by
  unfold numberedRequireds
  dsimp only
  rw [List.map_map]
  exact List.zipIdx_map_fst 0 form.requireds

/-- What is numbered is a required item. -/
theorem required_of_numbered {form : ArrayForm Schema} {x : Nat × Schema}
    (hx : x ∈ form.numberedRequireds) : x.2 ∈ form.requireds :=
  map_numberedRequireds form ▸ List.mem_map_of_mem hx

/-- A required item is an item that is not forbidden. -/
theorem item_of_required {form : ArrayForm Schema} {s : Schema} (hs : s ∈ form.requireds) :
    s ∈ form.items ∧ s.node.flags.presence ≠ some .forbidden := by
  obtain ⟨hitem, hpresence⟩ := List.mem_filter.mp hs
  refine ⟨hitem, ?_⟩
  rw [of_decide_eq_true hpresence]
  simp

/-- The reports there are after a member. -/
def Step.reports : Step → List Report
  | .next walk => walk.reports
  | .finish walk => walk.reports
  | .abort reports => reports

namespace Ground

/-- Trials made one after another. -/
inductive Trials (g : Ground) (check : Check) : Workshop → List Trial → Workshop → Prop
  | none {w : Workshop} : g.Trials check w [] w
  | more {w w₁ w₂ : Workshop} {i : Nat} {member : Value} {s : Schema} {prefs : Preferences}
      {o : Outcome} {ts : List Trial} : (check s member (g.position i) prefs).run w = some (o, w₁) →
      g.Trials check w₁ ts w₂ → g.Trials check w (⟨i, member, s, prefs, o⟩ :: ts) w₂

/-- Among the trials the schema accepts the member. -/
def Accepts (g : Ground) (ts : List Trial) (i : Nat) (member : Value) (s : Schema)
    (o : Outcome) : Prop :=
  ⟨i, member, s, g.site.prefs, o⟩ ∈ ts ∧ o.isOk = true

/-- Among the trials the member is held against the schema, and does not match it. -/
def Refuses (g : Ground) (ts : List Trial) (i : Nat) (member : Value) (s : Schema) : Prop :=
  ∃ o : Outcome, ⟨i, member, s, { g.site.prefs with abortEarly := true }, o⟩ ∈ ts ∧ o.isOk = false

/-- Trials of the one member, with the one acceptance among them. -/
structure Round (g : Ground) (ts : List Trial) (i : Nat) (member : Value)
    (accepted : Option (Schema × Outcome)) : Prop where
  place : ∀ t ∈ ts, t.place = i
  sole : ∀ s o, g.Accepts ts i member s o ↔ accepted = some (s, o)

/-- What becomes of a member that is not reported. -/
inductive Fate (g : Ground) (ts : List Trial) (i : Nat) (member : Value) : Option Value → Prop
  | accepted {s : Schema} {o : Outcome} {out : Option Value} :
      g.form.MayTake i s → g.Accepts ts i member s o → Yields o out → Fate g ts i member out
  /-- Nothing is said about the members behind the last place. -/
  | kept : g.form.ordered.length ≤ i →
      (∀ s ∈ g.form.items, s.node.flags.presence = some .forbidden) →
      Fate g ts i member (some member)
  | dropped : g.form.ordered.length ≤ i → g.site.prefs.stripUnknown.arrays = true →
      Fate g ts i member none

variable {check : Check} {g : Ground} {w w₁ w₂ w' : Workshop} {ts ts' : List Trial} {i : Nat}
  {member : Value}

/-- One check is a list of one trial. -/
theorem Trials.one {s : Schema} {prefs : Preferences} {o : Outcome}
    (h : (check s member (g.position i) prefs).run w = some (o, w')) :
    g.Trials check w [⟨i, member, s, prefs, o⟩] w' :=
  .more h .none

/-- Trials follow each other, from workshop to workshop. -/
theorem Trials.append (h : g.Trials check w ts w₁) (h' : g.Trials check w₁ ts' w₂) :
    g.Trials check w (ts ++ ts') w₂ := by
  induction h with
  | none => exact h'
  | more hrun _ ih => exact .more hrun (ih h')

/-- What is accepted among some trials is accepted among more. -/
theorem Accepts.mono {s : Schema} {o : Outcome} (h : g.Accepts ts i member s o) (hsub : ts ⊆ ts') :
    g.Accepts ts' i member s o :=
  ⟨hsub h.1, h.2⟩

/-! A round grows by trials without an acceptance until one accepts the member. -/

/-- No trials are a round in which nothing was accepted. -/
theorem Round.nil : g.Round [] i member none :=
  ⟨List.forall_mem_nil _, fun _ _ => ⟨fun h => absurd h.1 List.not_mem_nil, fun h => nomatch h⟩⟩

/-- A refused trial may stand in front of a round. -/
theorem Round.cons_refused {t : Trial} {accepted : Option (Schema × Outcome)} (hplace : t.place = i)
    (hnot : t.prefs ≠ g.site.prefs ∨ t.outcome.isOk = false) (h : g.Round ts i member accepted) :
    g.Round (t :: ts) i member accepted := by
  refine ⟨List.forall_mem_cons.mpr ⟨hplace, h.place⟩, fun s o => ?_⟩
  rw [← h.sole]
  constructor
  · rintro ⟨hmem, hok⟩
    refine ⟨(List.mem_cons.mp hmem).resolve_left ?_, hok⟩
    rintro rfl
    rcases hnot with hprefs | hfails
    · exact hprefs rfl
    · exact absurd hok (by simp [hfails])
  · exact fun haccepts => haccepts.mono (List.subset_cons_self ..)

/-- An accepted trial is a round of its own. -/
theorem Round.one {s : Schema} {o : Outcome} (hok : o.isOk = true) :
    g.Round [⟨i, member, s, g.site.prefs, o⟩] i member (some (s, o)) := by
  refine ⟨fun t ht => by rw [List.mem_singleton.mp ht], fun s' o' => ?_⟩
  constructor
  · rintro ⟨hmem, -⟩
    obtain ⟨-, -, rfl, -, rfl⟩ := Trial.mk.inj (List.mem_singleton.mp hmem)
    rfl
  · rintro ⟨⟩
    exact ⟨List.mem_singleton_self _, hok⟩

/-- A round goes on as long as nothing was accepted. -/
theorem Round.append {accepted : Option (Schema × Outcome)} (h : g.Round ts i member none)
    (h' : g.Round ts' i member accepted) : g.Round (ts ++ ts') i member accepted := by
  refine ⟨fun t ht => (List.mem_append.mp ht).elim (h.place t) (h'.place t), fun s o => ?_⟩
  rw [← h'.sole]
  constructor
  · rintro ⟨hmem, hok⟩
    refine ⟨(List.mem_append.mp hmem).resolve_left fun hin => ?_, hok⟩
    exact nomatch (h.sole s o).mp ⟨hin, hok⟩
  · exact fun haccepts => haccepts.mono (List.subset_append_right ..)

/-- What a round ended with was accepted. -/
theorem Round.accepts {s : Schema} {o : Outcome} (h : g.Round ts i member (some (s, o))) :
    g.Accepts ts i member s o :=
  (h.sole s o).mpr rfl

/-- What is refused among some trials is refused among more. -/
theorem Refuses.mono {s : Schema} (h : g.Refuses ts i member s) (hsub : ts ⊆ ts') :
    g.Refuses ts' i member s := by
  obtain ⟨o, hmem, hfails⟩ := h
  exact ⟨o, hsub hmem, hfails⟩

/-- What became of a member among some trials became of it among more. -/
theorem Fate.mono {out : Option Value} (h : g.Fate ts i member out) (hsub : ts ⊆ ts') :
    g.Fate ts' i member out := by
  cases h with
  | accepted htakes haccepts hyields => exact .accepted htakes (haccepts.mono hsub) hyields
  | kept hplace hnone => exact .kept hplace hnone
  | dropped hplace hstrip => exact .dropped hplace hstrip

/-! ### The parts of a step -/

/-- A member that matches no forbidden schema was held against each of them. No forbidden schema
accepts a member for good, as trials where the first failure settles it do not count. -/
theorem isExcluded_trials {exclusions : List Schema} {excluded : Bool}
    (h : (g.isExcluded check i member exclusions).run w = some (excluded, w')) :
    ∃ ts, g.Trials check w ts w' ∧
      (excluded = false → ∀ s ∈ exclusions, g.Refuses ts i member s) ∧
      (excluded = false ∨ g.site.prefs.abortEarly = false → g.Round ts i member none) := by
  induction exclusions generalizing w with
  | nil =>
    obtain ⟨-, rfl⟩ := Runs.pure_some h
    exact ⟨[], .none, fun _ => List.forall_mem_nil _, fun _ => .nil⟩
  | cons exclusion rest ih =>
    unfold isExcluded at h
    obtain ⟨passes, w₁, hpasses, hrest⟩ := Runs.bind_some h
    obtain ⟨o, w₂, hcheck, hpure⟩ := Runs.bind_some hpasses
    obtain ⟨rfl, rfl⟩ := Runs.pure_some hpure
    -- the first schema that accepts the member ends the round
    by_cases hok : o.isOk = true
    · rw [if_pos hok] at hrest
      obtain ⟨rfl, rfl⟩ := Runs.pure_some hrest
      refine ⟨_, .one hcheck, fun habsurd => absurd habsurd (by simp), ?_⟩
      rintro (habsurd | hlate)
      · exact absurd habsurd (by simp)
      · -- a trial where the first failure settles it does not count as accepting
        refine .cons_refused rfl (.inl fun hprefs => ?_) .nil
        rw [← hprefs] at hlate
        exact absurd hlate (by simp)
    · rw [if_neg hok] at hrest
      obtain ⟨ts, htrials, hrefuses, hround⟩ := ih hrest
      refine ⟨_ :: ts, .more hcheck htrials, ?_, ?_⟩
      · intro hnot s hs
        rcases List.mem_cons.mp hs with rfl | hs
        · exact ⟨o, List.mem_cons_self .., by simpa using hok⟩
        · exact (hrefuses hnot s hs).mono (List.subset_cons_self ..)
      · exact fun hgoes => (hround hgoes).cons_refused rfl (.inr (by simpa using hok))

/-- What trying the required schemas tells: one of them accepts the member and is no longer pending,
or none does and all that is recalled are failures. -/
def Told (g : Ground) (ts : List Trial) (i : Nat) (member : Value) (pending : List (Nat × Schema)) :
    Tried → Prop
  | .matched o left => ∃ front x back, pending = front ++ x :: back ∧ left = front ++ back ∧
      g.Round ts i member (some (x.2, o))
  | .failed failed => (∀ x ∈ failed, x.2.isOk = false) ∧ g.Round ts i member none

/-- The required items are tried until one accepts the member; those before it are left with their
order, and their failures recalled. -/
theorem tryRequireds_trials {before pending : List (Nat × Schema)} {failed : List (Nat × Outcome)}
    {tried : Tried} (hfailed : ∀ x ∈ failed, x.2.isOk = false)
    (h : (g.tryRequireds check i member before failed pending).run w = some (tried, w')) :
    ∃ ts, g.Trials check w ts w' ∧ g.Told ts i member (before ++ pending) tried := by
  induction pending generalizing w before failed with
  | nil =>
    obtain ⟨rfl, rfl⟩ := Runs.pure_some h
    exact ⟨[], .none, hfailed, .nil⟩
  | cons first rest ih =>
    obtain ⟨number, schema⟩ := first
    unfold tryRequireds at h
    obtain ⟨o, w₁, hcheck, hrest⟩ := Runs.bind_some h
    by_cases hok : o.isOk = true
    · rw [if_pos hok] at hrest
      obtain ⟨rfl, rfl⟩ := Runs.pure_some hrest
      -- what stands before the match goes back in front of what is left
      exact ⟨_, .one hcheck, before, (number, schema), rest, rfl, rfl, .one hok⟩
    · rw [if_neg hok] at hrest
      have hmore : ∀ x ∈ failed ++ [(number, o)], x.2.isOk = false := by
        intro x hx
        rcases List.mem_append.mp hx with hold | hnew
        · exact hfailed x hold
        · rw [List.mem_singleton.mp hnew]
          simpa using hok
      obtain ⟨ts, htrials, htold⟩ := ih hmore hrest
      rw [List.append_assoc, List.singleton_append] at htold
      have hrefused : o.isOk = false := by simpa using hok
      refine ⟨_ :: ts, .more hcheck htrials, ?_⟩
      cases tried with
      -- the trial just made is in front of those that the rest tells of
      | failed _ => exact ⟨htold.1, htold.2.cons_refused rfl (.inr hrefused)⟩
      | matched o' left =>
        obtain ⟨front, x, back, hsplit, hleft, hround⟩ := htold
        exact ⟨front, x, back, hsplit, hleft, hround.cons_refused rfl (.inr hrefused)⟩

/-- An item schema that accepts a member was tried, as only failures are recalled. -/
theorem outcome_trials {failed : List (Nat × Outcome)} (hfailed : ∀ x ∈ failed, x.2.isOk = false)
    {number : Option Nat} {s : Schema} {o : Outcome}
    (h : (g.outcome check i member failed number s).run w = some (o, w')) :
    ∃ ts, g.Trials check w ts w' ∧ g.Round ts i member (if o.isOk then some (s, o) else none) := by
  unfold Ground.outcome at h
  split at h
  next recalled hlook =>
    obtain ⟨rfl, rfl⟩ := Runs.pure_some h
    obtain ⟨n, -, hlook⟩ := Option.bind_eq_some_iff.mp hlook
    obtain ⟨before, after, hsplit, -⟩ := List.lookup_eq_some_iff.mp hlook
    have hfails : recalled.isOk = false := by
      refine hfailed (n, recalled) ?_
      rw [hsplit]
      exact List.mem_append_right _ (List.mem_cons_self ..)
    rw [hfails]
    exact ⟨[], .none, .nil⟩
  · refine ⟨_, .one h, ?_⟩
    by_cases hok : o.isOk = true
    · rw [if_pos hok]
      exact .one hok
    · rw [if_neg hok]
      exact .cons_refused rfl (.inr (by simpa using hok)) .nil

/-- The candidates are tried until one accepts the member, and what was recalled as
a failure is no trial. -/
theorem tryInclusions_trials {failed : List (Nat × Outcome)}
    (hfailed : ∀ x ∈ failed, x.2.isOk = false)
    {candidates : List (Option Nat × Schema)} {tried : Option Outcome × Outcome}
    (h : (g.tryInclusions check i member failed candidates).run w = some (tried, w')) :
    ∃ ts, g.Trials check w ts w' ∧
      (∀ o, tried.1 = some o → ∃ c ∈ candidates, g.Round ts i member (some (c.2, o))) ∧
      (tried.1 = none → (candidates ≠ [] → tried.2.isOk = false) ∧ g.Round ts i member none) := by
  induction candidates generalizing w with
  | nil =>
    obtain ⟨rfl, rfl⟩ := Runs.pure_some h
    exact ⟨[], .none, fun o ho => (nomatch ho), fun _ => ⟨fun hne => absurd rfl hne, .nil⟩⟩
  | cons first rest ih =>
    obtain ⟨number, schema⟩ := first
    unfold tryInclusions at h
    obtain ⟨o, w₁, houtcome, hrest⟩ := Runs.bind_some h
    obtain ⟨ts, htrials, hround⟩ := outcome_trials hfailed houtcome
    by_cases hok : o.isOk = true
    · rw [if_pos hok] at hrest hround
      obtain ⟨rfl, rfl⟩ := Runs.pure_some hrest
      refine ⟨ts, htrials, ?_, fun hnone => nomatch hnone⟩
      intro o' ho'
      obtain rfl := Option.some.inj ho'
      exact ⟨_, List.mem_cons_self .., hround⟩
    · rw [if_neg hok] at hrest hround
      -- only the outcome of the last candidate is handed out where all refuse
      by_cases hlast : rest.isEmpty = true
      · rw [if_pos hlast] at hrest
        obtain ⟨rfl, rfl⟩ := Runs.pure_some hrest
        exact ⟨ts, htrials, fun o' ho' => (nomatch ho'),
          fun _ => ⟨fun _ => by simpa using hok, hround⟩⟩
      · rw [if_neg hlast] at hrest
        obtain ⟨ts', htrials', haccepts, hfails⟩ := ih hrest
        refine ⟨ts ++ ts', htrials.append htrials', ?_, ?_⟩
        · intro o' ho'
          obtain ⟨c, hc, hround'⟩ := haccepts o' ho'
          exact ⟨c, List.mem_cons_of_mem _ hc, hround.append hround'⟩
        · intro hnone
          obtain ⟨hlast', hround'⟩ := hfails hnone
          exact ⟨fun _ => hlast' (fun hnil => hlast (List.isEmpty_iff.mpr hnil)),
            hround.append hround'⟩

/-! ### One member -/

/-- A step keeps the reports there are, and one without reports lets the member through. -/
structure Judged (walk : Walk) (step : Step) (Q : Walk → Prop) : Prop where
  keeps : walk.reports <+: step.reports
  passes : step.reports = [] → ∃ after, step = .next after ∧ Q after

variable {walk : Walk} {step : Step}

/-- What follows of all quiet ends follows of the step. -/
theorem Judged.mono {Q R : Walk → Prop} (h : Judged walk step Q)
    (himp : ∀ after, Q after → R after) : Judged walk step R := by
  refine ⟨h.keeps, ?_⟩
  intro hquiet
  obtain ⟨after, hnext, hQ⟩ := h.passes hquiet
  exact ⟨after, hnext, himp after hQ⟩

/-- A step that goes on without a report is judged by where it goes on. -/
theorem Judged.next {Q : Walk → Prop} {after : Walk} (hreports : after.reports = walk.reports)
    (hQ : Q after) : Judged walk (.next after) Q :=
  ⟨hreports ▸ List.prefix_rfl, fun _ => ⟨after, rfl, hQ⟩⟩

/-- A failure is not quiet, whether or not it ends the walk. -/
theorem Judged.fail {Q : Walk → Prop} {reports : List Report} {goOn : Walk → Step}
    (hgo : ∀ walk, (goOn walk).reports = walk.reports) (hsome : reports ≠ []) :
    Judged walk (g.fail walk reports goOn) Q := by
  have hreports : (g.fail walk reports goOn).reports = walk.reports ++ reports := by
    unfold Ground.fail
    dsimp only
    by_cases hearly : g.site.prefs.abortEarly = true
    · rw [if_pos hearly]
      rfl
    · rw [if_neg hearly]
      exact hgo _
  refine ⟨?_, ?_⟩
  · rw [hreports]
    exact List.prefix_append ..
  · intro hquiet
    rw [hreports] at hquiet
    exact absurd (List.append_eq_nil_iff.mp hquiet).2 hsome

/-- The walk after an outcome was taken. -/
def Took (walk : Walk) (o : Outcome) (after : Walk) : Prop :=
  ∃ out, Yields o out ∧ after = { walk with out := walk.out ++ out.toList }

/-- A member that is taken is put out. -/
theorem Took.push (o : Outcome) : Took walk o { walk with out := walk.out ++ [o.value] } :=
  ⟨some o.value, .inl rfl, rfl⟩

/-- A member that is to be stripped is taken without being put out. -/
theorem Took.strip {o : Outcome} (hstrip : o.strip = true) : Took walk o walk := by
  refine ⟨none, .inr ⟨rfl, hstrip⟩, ?_⟩
  rw [Option.toList_none, List.append_nil]

/-- A member that an item accepted was taken if the step is quiet. -/
theorem takeIncluded_judged (walk : Walk) (i : Nat) (o : Outcome) :
    Judged walk (g.takeIncluded walk i o) (Took walk o) := by
  unfold takeIncluded
  split
  next hstrip => exact .next rfl (.strip hstrip)
  · split
    · exact .fail (fun _ => rfl) (List.cons_ne_nil _ _)
    · exact .next rfl (.push o)

/-- A member that a required item accepted was taken, whatever its mark to be stripped says. -/
theorem takeRequired_judged (walk : Walk) (i : Nat) (o : Outcome) :
    Judged walk (g.takeRequired walk i o) (Took walk o) := by
  unfold takeRequired
  dsimp only
  split
  · exact .fail (fun _ => rfl) (List.cons_ne_nil _ _)
  · exact .next rfl (.push o)

/-- A member at a place was taken if the schema of the place accepted it. -/
theorem takeOrdered_judged (walk : Walk) (i : Nat) (o : Outcome) :
    Judged walk (g.takeOrdered walk i o) fun after => o.isOk = true ∧ Took walk o after := by
  unfold takeOrdered
  by_cases hok : o.isOk = true
  · rw [if_neg (by simp [hok])]
    split
    next hstrip => exact .next rfl ⟨hok, .strip hstrip⟩
    · split
      · exact .fail (fun _ => rfl) (List.cons_ne_nil _ _)
      · exact .next rfl ⟨hok, .push o⟩
  · rw [if_pos (by simpa using hok)]
    exact .fail (fun _ => rfl) (Outcome.reports_ne_nil (by simpa using hok))

/-- All item schemas that are not forbidden are candidates, and nothing else is. -/
theorem mem_candidates {s : Schema} :
    (∃ number, (number, s) ∈ g.candidates) ↔
      s ∈ g.form.items ∧ s.node.flags.presence ≠ some .forbidden := by
  unfold candidates
  constructor
  · rintro ⟨number, hmem⟩
    rcases List.mem_append.mp hmem with hincluded | hnumbered
    · obtain ⟨t, ht, heq⟩ := List.mem_map.mp hincluded
      obtain ⟨-, rfl⟩ := Prod.mk.inj heq
      obtain ⟨hitem, hpresence⟩ := List.mem_filter.mp ht
      exact ⟨hitem, (of_decide_eq_true hpresence).2⟩
    · obtain ⟨⟨n, t⟩, ht, heq⟩ := List.mem_map.mp hnumbered
      obtain ⟨-, rfl⟩ := Prod.mk.inj heq
      exact item_of_required (required_of_numbered ht)
  · rintro ⟨hitem, hpresence⟩
    by_cases hrequires : s.node.flags.presence = some .required
    · have hmem : s ∈ g.form.requireds := List.mem_filter.mpr ⟨hitem, decide_eq_true hrequires⟩
      rw [← map_numberedRequireds] at hmem
      obtain ⟨⟨n, t⟩, hn, rfl⟩ := List.mem_map.mp hmem
      exact ⟨some n, List.mem_append_right _ (List.mem_map.mpr ⟨(n, t), hn, rfl⟩)⟩
    · refine ⟨none, List.mem_append_left _ (List.mem_map_of_mem ?_)⟩
      exact List.mem_filter.mpr ⟨hitem, decide_eq_true ⟨hrequires, hpresence⟩⟩

/-- What a member that is not reported does to a walk. -/
structure Advance (g : Ground) (ts : List Trial) (i : Nat) (member : Value) (walk after : Walk)
    (out : Option Value) : Prop where
  output : after.out = walk.out ++ out.toList
  ordereds : after.ordereds = walk.ordereds
  fate : g.Fate ts i member out
  /-- No required schema is matched, or one behind the last place. -/
  pending : after.requireds = walk.requireds ∨ ∃ front x back o, g.form.ordered.length ≤ i ∧
    walk.requireds = front ++ x :: back ∧ after.requireds = front ++ back ∧
    g.Accepts ts i member x.2 o

/-- What a member does that is taken by a schema, which may have been required. -/
theorem Took.advance {after : Walk} {s : Schema} {o : Outcome} (h : Took walk o after)
    (htakes : g.form.MayTake i s) (haccepts : g.Accepts ts i member s o) :
    ∃ out, g.Advance ts i member walk after out := by
  obtain ⟨out, hyields, rfl⟩ := h
  exact ⟨out, rfl, rfl, .accepted htakes haccepts hyields, .inl rfl⟩

/-- An advance among some trials is one among more. -/
theorem Advance.mono {after : Walk} {out : Option Value} (h : g.Advance ts i member walk after out)
    (hsub : ts ⊆ ts') : g.Advance ts' i member walk after out := by
  refine ⟨h.output, h.ordereds, h.fate.mono hsub, ?_⟩
  rcases h.pending with hsame | ⟨front, x, back, o, hplace, hsplit, hleft, haccepts⟩
  · exact .inl hsame
  · exact .inr ⟨front, x, back, o, hplace, hsplit, hleft, haccepts.mono hsub⟩

/-- Behind the last place a member that no required item took is accepted by another
item, or there are none. -/
theorem includeMember_judged {failed : List (Nat × Outcome)}
    (hfailed : ∀ x ∈ failed, x.2.isOk = false)
    (h : (g.includeMember check walk i member failed).run w = some (step, w')) :
    ∃ ts, g.Trials check w ts w' ∧ Judged walk step fun after =>
      g.form.ordered.length ≤ i → ∃ out, g.Advance ts i member walk after out := by
  unfold includeMember at h
  dsimp only at h
  by_cases hempty : g.candidates.isEmpty = true
  · rw [if_pos hempty] at h
    obtain ⟨rfl, rfl⟩ := Runs.pure_some h
    have hnone : ∀ s ∈ g.form.items, s.node.flags.presence = some .forbidden := by
      intro s hs
      by_contra hpresence
      obtain ⟨number, hcandidate⟩ := mem_candidates.mpr ⟨hs, hpresence⟩
      rw [List.isEmpty_iff.mp hempty] at hcandidate
      exact absurd hcandidate List.not_mem_nil
    exact ⟨[], .none, .next rfl fun hlast => ⟨some member, rfl, rfl, .kept hlast hnone, .inl rfl⟩⟩
  · rw [if_neg hempty] at h
    obtain ⟨⟨accepted, last⟩, w₁, htry, hstep⟩ := Runs.bind_some h
    obtain ⟨ts, htrials, haccepts, hfails⟩ := tryInclusions_trials hfailed htry
    refine ⟨ts, ?_⟩
    cases accepted with
    | some o =>
      obtain ⟨rfl, rfl⟩ := Runs.pure_some hstep
      obtain ⟨⟨number, s⟩, hcandidate, hround⟩ := haccepts o rfl
      refine ⟨htrials, (takeIncluded_judged walk i o).mono ?_⟩
      intro after htook hlast
      exact htook.advance (.inr ⟨hlast, mem_candidates.mp ⟨number, hcandidate⟩⟩) hround.accepts
    | none =>
      dsimp only at hstep
      by_cases hstrip : g.site.prefs.stripUnknown.arrays = true
      · rw [if_pos hstrip] at hstep
        obtain ⟨rfl, rfl⟩ := Runs.pure_some hstep
        exact ⟨htrials, .next rfl fun hlast =>
          ⟨none, (List.append_nil _).symm, rfl, .dropped hlast hstrip, .inl rfl⟩⟩
      · rw [if_neg hstrip] at hstep
        -- nothing matched, and either the one candidate or the array reports it
        have hreports := Outcome.reports_ne_nil
          ((hfails rfl).1 (fun hnil => hempty (List.isEmpty_iff.mpr hnil)))
        split at hstep
        · obtain ⟨rfl, rfl⟩ := Runs.pure_some hstep
          exact ⟨htrials, .fail (fun _ => rfl) hreports⟩
        · obtain ⟨rfl, rfl⟩ := Runs.pure_some hstep
          exact ⟨htrials, .fail (fun _ => rfl) (List.cons_ne_nil _ _)⟩

/-- How far a walk has come that stands before place `i`. -/
structure Stands (g : Ground) (i : Nat) (walk : Walk) : Prop where
  ordereds : walk.ordereds = g.form.ordered.drop i
  pending : ∀ x ∈ walk.requireds, x ∈ g.form.numberedRequireds

/-- Behind the last place a quiet step takes one required item at most. -/
theorem placeMember_judged (h : (g.placeMember check walk i member).run w = some (step, w')) :
    ∃ ts, g.Trials check w ts w' ∧ Judged walk step fun after => g.Stands i walk →
      g.form.ordered.length ≤ i → ∃ out, g.Advance ts i member walk after out := by
  unfold placeMember at h
  obtain ⟨tried, w₁, htry, hstep⟩ := Runs.bind_some h
  obtain ⟨ts, htrials, htold⟩ := tryRequireds_trials (List.forall_mem_nil _) htry
  cases tried with
  | matched o left =>
    obtain ⟨rfl, rfl⟩ := Runs.pure_some hstep
    obtain ⟨front, x, back, hsplit, hleft, hround⟩ := htold
    have hjudged := takeRequired_judged (g := g) { walk with requireds := left } i o
    refine ⟨ts, htrials, hjudged.keeps, ?_⟩
    intro hquiet
    obtain ⟨after, hnext, out, hyields, rfl⟩ := hjudged.passes hquiet
    refine ⟨_, hnext, ?_⟩
    intro hstands hlast
    -- what is matched is of the array's own schemas, as nothing else is ever pending
    have hx : x ∈ g.form.numberedRequireds := by
      refine hstands.pending x ?_
      rw [show walk.requireds = front ++ x :: back from hsplit]
      exact List.mem_append_right _ (List.mem_cons_self ..)
    have htakes : g.form.MayTake i x.2 := .inr ⟨hlast, item_of_required (required_of_numbered hx)⟩
    exact ⟨out, rfl, rfl, .accepted htakes hround.accepts hyields,
      .inr ⟨front, x, back, o, hlast, hsplit, hleft, hround.accepts⟩⟩
  | failed failed =>
    -- all the required schemas refused it, and their failures are recalled
    obtain ⟨ts', htrials', hjudged⟩ := includeMember_judged htold.1 hstep
    refine ⟨ts ++ ts', htrials.append htrials', hjudged.mono ?_⟩
    intro after hadvances _ hlast
    obtain ⟨out, hadvance⟩ := hadvances hlast
    exact ⟨out, hadvance.mono (List.subset_append_right ..)⟩

/-- What is known once a member is let through: it matches no forbidden schema, it has a
place, and it fits there. -/
structure Through (g : Ground) (ts : List Trial) (i : Nat) (member : Value) (walk after : Walk)
    (out : Option Value) : Prop where
  advance : g.Advance ts i member { walk with ordereds := walk.ordereds.tail } after out
  refuses : ∀ s ∈ g.form.exclusions, g.Refuses ts i member s
  placed : g.form.items = [] → g.form.ordered ≠ [] → i < g.form.ordered.length

/-- Behind the last place a member is left to the item schemas. -/
theorem behind_judged {ts : List Trial} {w₁ : Workshop} (htrials : g.Trials check w ts w₁)
    (hrefuses : ∀ s ∈ g.form.exclusions, g.Refuses ts i member s)
    (hlast : walk.ordereds = g.form.ordered.drop i → g.form.ordered.length ≤ i)
    (hplaced : g.form.items = [] → g.form.ordered ≠ [] → i < g.form.ordered.length)
    (h : (g.placeMember check walk i member).run w₁ = some (step, w')) :
    ∃ ts, g.Trials check w ts w' ∧
      Judged walk step fun after =>
      g.Stands i walk → ∃ out, g.Through ts i member walk after out := by
  obtain ⟨ts', htrials', hjudged⟩ := placeMember_judged h
  refine ⟨ts ++ ts', htrials.append htrials', hjudged.mono ?_⟩
  intro after hadvances hstands
  have hlast := hlast hstands.ordereds
  obtain ⟨out, hadvance⟩ := hadvances hstands hlast
  have hnone : walk.ordereds = [] := by
    rw [hstands.ordereds]
    exact List.drop_eq_nil_of_le hlast
  have hsame : ({ walk with ordereds := walk.ordereds.tail } : Walk) = walk := by
    rw [hnone, List.tail_nil, ← hnone]
  refine ⟨out, ?_, fun s hs => (hrefuses s hs).mono (List.subset_append_left ..), hplaced⟩
  rw [hsame]
  exact hadvance.mono (List.subset_append_right ..)

/-- In front of the last place a member is left to the schema of its place. -/
theorem ordered_judged {ts : List Trial} {w₁ w₂ : Workshop} {schema : Schema}
    {ordereds : List Schema} {o : Outcome}
    (htrials : g.Trials check w ts w₁) (hrefuses : ∀ s ∈ g.form.exclusions, g.Refuses ts i member s)
    (hcons : walk.ordereds = schema :: ordereds)
    (h : (check schema member (g.position i) g.site.prefs).run w₁ = some (o, w₂)) :
    ∃ ts, g.Trials check w ts w₂ ∧
      Judged walk (g.takeOrdered { walk with ordereds } i o) fun after =>
      g.Stands i walk → ∃ out, g.Through ts i member walk after out := by
  have hjudged := takeOrdered_judged (g := g) { walk with ordereds } i o
  refine ⟨_, htrials.append (.one h), hjudged.keeps, ?_⟩
  intro hquiet
  obtain ⟨after, hnext, hok, htook⟩ := hjudged.passes hquiet
  refine ⟨after, hnext, ?_⟩
  intro hstands
  have hget : g.form.ordered[i]? = some schema := by
    rw [← List.head?_drop, ← hstands.ordereds, hcons]
    rfl
  obtain ⟨out, hadvance⟩ :=
    htook.advance (.inl hget) ⟨List.mem_append_right ts (List.mem_singleton_self _), hok⟩
  refine ⟨out, ?_, ?_, ?_⟩
  · rw [hcons]
    exact hadvance
  · exact fun s hs => (hrefuses s hs).mono (List.subset_append_left ..)
  · exact fun _ _ => (List.getElem?_eq_some_iff.mp hget).1

/-- One step, by its parts: a hole, a forbidden item, a place, or what is behind the places. -/
theorem step_judged {rest : List Value}
    (h : (g.step check walk i member rest).run w = some (step, w')) :
    ∃ ts, g.Trials check w ts w' ∧
      Judged walk step fun after =>
      g.Stands i walk → ∃ out, g.Through ts i member walk after out := by
  unfold Ground.step at h
  dsimp only at h
  -- a hole is settled before any schema is asked
  by_cases hhole : g.isHole member = true
  · rw [if_pos hhole] at h
    obtain ⟨rfl, rfl⟩ := Runs.pure_some h
    exact ⟨[], .none, .fail (fun _ => rfl) (List.cons_ne_nil _ _)⟩
  rw [if_neg hhole] at h
  obtain ⟨excluded, w₁, hexcluded, hstep⟩ := Runs.bind_some h
  obtain ⟨ts, htrials, hrefuses, -⟩ := isExcluded_trials hexcluded
  cases excluded with
  | true =>
    rw [if_pos rfl] at hstep
    obtain ⟨rfl, rfl⟩ := Runs.pure_some hstep
    exact ⟨ts, htrials, .fail (fun _ => rfl) (List.cons_ne_nil _ _)⟩
  | false =>
    rw [if_neg Bool.false_ne_true] at hstep
    by_cases hordered : g.form.ordered.isEmpty = true
    · rw [if_pos hordered] at hstep
      have hnil := List.isEmpty_iff.mp hordered
      exact behind_judged htrials (hrefuses rfl) (fun _ => by simp [hnil])
        (fun _ hsome => absurd hnil hsome) hstep
    rw [if_neg hordered] at hstep
    split at hstep
    next schema ordereds hcons =>
      obtain ⟨o, w₂, hcheck, hpure⟩ := Runs.bind_some hstep
      obtain ⟨rfl, rfl⟩ := Runs.pure_some hpure
      exact ordered_judged htrials (hrefuses rfl) hcons hcheck
    next hnil =>
      by_cases hitems : g.form.items.isEmpty = true
      · rw [if_pos hitems] at hstep
        obtain ⟨rfl, rfl⟩ := Runs.pure_some hstep
        exact ⟨ts, htrials, .fail (fun _ => rfl) (List.cons_ne_nil _ _)⟩
      · rw [if_neg hitems] at hstep
        -- the places are used up, so the member stands behind them
        have hlast (hdrop : walk.ordereds = g.form.ordered.drop i) : g.form.ordered.length ≤ i :=
          List.drop_eq_nil_iff.mp (hdrop.symm.trans hnil)
        have hdeclared (hnone : g.form.items = []) : g.form.ordered ≠ [] →
            i < g.form.ordered.length :=
          absurd (List.isEmpty_iff.mpr hnone) hitems
        exact behind_judged htrials (hrefuses rfl) hlast hdeclared hstep

/-- After an advance the walk stands one member further. -/
theorem Advance.stands {after : Walk} {out : Option Value} (hstands : g.Stands i walk)
    (h : g.Advance ts i member { walk with ordereds := walk.ordereds.tail } after out) :
    g.Stands (i + 1) after := by
  refine ⟨?_, ?_⟩
  · rw [h.ordereds, hstands.ordereds]
    exact List.tail_drop
  · intro x hx
    rcases h.pending with hsame | ⟨front, y, back, o, -, hsplit, hleft, -⟩
    · exact hstands.pending x (hsame ▸ hx)
    · refine hstands.pending x ?_
      rw [show walk.requireds = front ++ y :: back from hsplit]
      rw [hleft] at hx
      rcases List.mem_append.mp hx with hfront | hback
      · exact List.mem_append_left _ hfront
      · exact List.mem_append_right _ (List.mem_cons_of_mem _ hback)

/-! ### All members -/

/-- What a walk from place `i` on has gone through that ends without reports. The matched schemas
are listed with the places of their members. -/
structure Passage (g : Ground) (ts : List Trial) (i : Nat) (members : List Value) (walk last : Walk)
    (outs : List (Option Value)) (matched : List (Nat × (Nat × Schema))) : Prop where
  output : last.out = walk.out ++ outs.reduceOption
  ordereds : last.ordereds = g.form.ordered.drop (i + members.length)
  refused : ∀ x ∈ members.zipIdx i, ∀ s ∈ g.form.exclusions, g.Refuses ts x.2 x.1 s
  placed : ∀ x ∈ members.zipIdx i, g.form.items = [] → g.form.ordered ≠ [] →
    x.2 < g.form.ordered.length
  fates : List.Forall₂ (fun x out => g.Fate ts x.2 x.1 out) (members.zipIdx i) outs
  /-- The required schemas are those matched and those left. -/
  pending : (matched.map Prod.snd ++ last.requireds).Perm walk.requireds
  apart : (matched.map Prod.fst).Nodup
  accepted : ∀ m ∈ matched, g.form.ordered.length ≤ m.1 ∧
    ∃ x ∈ members.zipIdx i, x.2 = m.1 ∧ ∃ o, g.Accepts ts m.1 x.1 m.2.2 o

/-- No members are gone through by no steps. -/
theorem Passage.nil (hstands : g.Stands i walk) : g.Passage [] i [] walk walk [] [] where
  output := (List.append_nil _).symm
  ordereds := hstands.ordereds
  refused := List.forall_mem_nil _
  placed := List.forall_mem_nil _
  fates := .nil
  pending := .refl _
  apart := List.nodup_nil
  accepted := List.forall_mem_nil _

/-- One member more is gone through; if a required item took it, it joins those matched. -/
theorem Passage.cons {members : List Value} {after last : Walk} {out : Option Value}
    {outs : List (Option Value)} {matched : List (Nat × (Nat × Schema))}
    (hthrough : g.Through ts i member walk after out)
    (h : g.Passage ts' (i + 1) members after last outs matched) :
    ∃ matched', g.Passage (ts ++ ts') i (member :: members) walk last (out :: outs) matched' := by
  have hleft : ts ⊆ ts ++ ts' := List.subset_append_left ..
  have hright : ts' ⊆ ts ++ ts' := List.subset_append_right ..
  -- all but the matching is the same whether or not the member is matched
  have hpassage {matched' : List (Nat × (Nat × Schema))}
      (hpending : (matched'.map Prod.snd ++ last.requireds).Perm walk.requireds)
      (hapart : (matched'.map Prod.fst).Nodup)
      (haccepted : ∀ m ∈ matched', m ∈ matched ∨ m.1 = i ∧ g.form.ordered.length ≤ i ∧
        ∃ o, g.Accepts ts i member m.2.2 o) :
      g.Passage (ts ++ ts') i (member :: members) walk last (out :: outs) matched' := by
    refine ⟨?_, ?_, ?_, ?_, ?_, hpending, hapart, ?_⟩
    · rw [h.output, hthrough.advance.output, List.append_assoc]
      cases out <;> rfl
    · rw [h.ordereds, List.length_cons]
      congr 1
      omega
    · intro x hx s hs
      rcases List.mem_cons.mp hx with rfl | hx
      · exact (hthrough.refuses s hs).mono hleft
      · exact (h.refused x hx s hs).mono hright
    · intro x hx
      rcases List.mem_cons.mp hx with rfl | hx
      · exact hthrough.placed
      · exact h.placed x hx
    · exact .cons (hthrough.advance.fate.mono hleft)
        (h.fates.imp fun _ _ hfate => hfate.mono hright)
    · intro m hm
      rcases haccepted m hm with hold | ⟨rfl, hplace, o, haccepts⟩
      · obtain ⟨hplace, x, hx, heq, o, haccepts⟩ := h.accepted m hold
        exact ⟨hplace, x, List.mem_cons_of_mem _ hx, heq, o, haccepts.mono hright⟩
      · exact ⟨hplace, _, List.mem_cons_self .., rfl, o, haccepts.mono hleft⟩
  rcases hthrough.advance.pending with hsame | ⟨front, x, back, o, hplace, hsplit, hrest, haccepts⟩
  · exact ⟨matched, hpassage (hsame ▸ h.pending) h.apart fun m hm => .inl hm⟩
  · refine ⟨(i, x) :: matched, hpassage ?_ ?_ ?_⟩
    · have hperm : (x :: (front ++ back)).Perm (front ++ x :: back) := List.perm_middle.symm
      rw [show walk.requireds = front ++ x :: back from hsplit]
      exact ((hrest ▸ h.pending).cons x).trans hperm
    · refine List.nodup_cons.mpr ⟨?_, h.apart⟩
      -- the others were matched by members behind this one
      intro hmem
      obtain ⟨m, hm, heq⟩ := List.mem_map.mp hmem
      obtain ⟨-, y, hy, hplace', -⟩ := h.accepted m hm
      have hbehind : i + 1 ≤ y.2 := (List.mem_zipIdx hy).1
      omega
    · intro m hm
      rcases List.mem_cons.mp hm with rfl | hm
      · exact .inr ⟨rfl, hplace, o, haccepts⟩
      · exact .inl hm

/-- The reports a walk ends with. -/
def ended : Except (List Report) Walk → List Report
  | .ok walk => walk.reports
  | .error reports => reports

/-- Reports are never taken back. -/
theorem walk_keeps {members : List Value} {result : Except (List Report) Walk}
    (h : (g.walk check walk i members).run w = some (result, w')) :
    walk.reports <+: ended result := by
  induction members generalizing walk i w with
  | nil =>
    obtain ⟨rfl, rfl⟩ := Runs.pure_some h
    exact List.prefix_rfl
  | cons member rest ih =>
    unfold Ground.walk at h
    obtain ⟨step, w₁, hstep, hrest⟩ := Runs.bind_some h
    obtain ⟨ts, -, hjudged⟩ := step_judged hstep
    cases step with
    | next after => exact hjudged.keeps.trans (ih hrest)
    | finish after =>
      obtain ⟨rfl, rfl⟩ := Runs.pure_some hrest
      exact hjudged.keeps
    | abort reports =>
      obtain ⟨rfl, rfl⟩ := Runs.pure_some hrest
      exact hjudged.keeps

/-- A walk that ends without reports has gone through all members, by induction on them. -/
theorem walk_passes {members : List Value} {result : Except (List Report) Walk}
    (hstands : g.Stands i walk) (h : (g.walk check walk i members).run w = some (result, w'))
    (hquiet : ended result = []) :
    ∃ ts last outs matched, result = .ok last ∧ g.Trials check w ts w' ∧
      g.Passage ts i members walk last outs matched := by
  induction members generalizing walk i w with
  | nil =>
    obtain ⟨rfl, rfl⟩ := Runs.pure_some h
    exact ⟨[], walk, [], [], rfl, .none, .nil hstands⟩
  | cons member rest ih =>
    unfold Ground.walk at h
    obtain ⟨step, w₁, hstep, hrest⟩ := Runs.bind_some h
    obtain ⟨ts, htrials, hjudged⟩ := step_judged hstep
    cases step with
    | next after =>
      have hsilent : after.reports = [] := List.prefix_nil.mp (hquiet ▸ walk_keeps hrest)
      obtain ⟨_, heq, hthroughs⟩ := hjudged.passes hsilent
      obtain rfl := Step.next.inj heq
      obtain ⟨out, hthrough⟩ := hthroughs hstands
      obtain ⟨ts', last, outs, matched, hresult, htrials', hpassage⟩ :=
        ih (hthrough.advance.stands hstands) hrest
      obtain ⟨matched', hpassage'⟩ := hpassage.cons hthrough
      exact ⟨ts ++ ts', last, out :: outs, matched', hresult, htrials.append htrials', hpassage'⟩
    -- a walk that ends before the last member has reports
    | finish after =>
      obtain ⟨rfl, rfl⟩ := Runs.pure_some hrest
      obtain ⟨_, heq, -⟩ := hjudged.passes hquiet
      exact nomatch heq
    | abort reports =>
      obtain ⟨rfl, rfl⟩ := Runs.pure_some hrest
      obtain ⟨_, heq, -⟩ := hjudged.passes hquiet
      exact nomatch heq

/-- Where no missed schema is reported, none was missed. -/
theorem missedReports_eq_nil {site : Site} {value : Value} {missed : List Schema}
    (h : missedReports site value missed = []) : missed = [] := by
  unfold missedReports at h
  by_cases hempty : missed.isEmpty = true
  · exact List.isEmpty_iff.mp hempty
  · rw [if_neg hempty] at h
    exact absurd h (List.cons_ne_nil _ _)

/-- An end without reports: none were made before, all required schemas are matched, and no place is
left that is marked required. -/
theorem reports_quiet (h : g.reports walk = []) :
    walk.reports = [] ∧ walk.requireds = [] ∧
      ∀ s ∈ walk.ordereds, s.node.flags.presence ≠ some .required := by
  obtain ⟨hfirst, hmissing⟩ := List.append_eq_nil_iff.mp h
  obtain ⟨hwalk, hmissed⟩ := List.append_eq_nil_iff.mp hfirst
  refine ⟨hwalk, List.map_eq_nil_iff.mp (missedReports_eq_nil hmissed), fun s hs hrequired => ?_⟩
  have hmem : s ∈ walk.ordereds.filter fun s => decide (s.node.flags.presence = some .required) :=
    List.mem_filter.mpr ⟨hs, decide_eq_true hrequired⟩
  rw [missedReports_eq_nil hmissing] at hmem
  exact List.not_mem_nil hmem

/-- The end of a walk reports on schemas that were not matched, or else adds defaults. -/
theorem close_cases {out : List Value} {reports : List Report}
    (h : (g.close check walk).run w = some ((out, reports), w')) :
    reports = g.reports walk ∧ ∃ defaults, out = walk.out ++ defaults ∧
    (reports ≠ [] → defaults = []) ∧
      (reports = [] → (g.defaults check walk.out walk.ordereds).run w = some (defaults, w')) := by
  unfold close at h
  dsimp only at h
  split at h
  next hends =>
    obtain ⟨heq, rfl⟩ := Runs.pure_some h
    obtain ⟨rfl, rfl⟩ := Prod.mk.inj heq
    refine ⟨rfl, [], (List.append_nil _).symm, fun _ => rfl, fun hnil => ?_⟩
    rw [hnil, List.isEmpty_nil, Bool.not_true, Bool.or_false, List.isEmpty_iff] at hends
    rw [hends]
    rfl
  next hgoes =>
    obtain ⟨defaults, w₁, hdefaults, hpure⟩ := Runs.bind_some h
    obtain ⟨heq, rfl⟩ := Runs.pure_some hpure
    obtain ⟨rfl, rfl⟩ := Prod.mk.inj heq
    have hquiet : g.reports walk = [] := by
      simp only [Bool.or_eq_true, List.isEmpty_iff, Bool.not_eq_true', not_or,
        Bool.not_eq_false] at hgoes
      exact hgoes.2
    exact ⟨hquiet.symm, defaults, rfl, fun hsome => absurd rfl hsome, fun _ => hdefaults⟩

/-- An end without reports: all required schemas are matched, and the defaults come behind what the
members gave. -/
theorem close_quiet {out : List Value} (h : (g.close check walk).run w = some ((out, []), w')) :
    walk.reports = [] ∧ walk.requireds = [] ∧ ∃ defaults,
      (g.defaults check walk.out walk.ordereds).run w = some (defaults, w') ∧
      out = walk.out ++ defaults := by
  obtain ⟨hreports, defaults, hout, -, hdefaults⟩ := close_cases h
  obtain ⟨hwalk, hrequireds, -⟩ := reports_quiet hreports.symm
  exact ⟨hwalk, hrequireds, defaults, hdefaults rfl, hout⟩

end Ground

/-- What a walk over these members keeps in view. -/
def ground (form : ArrayForm Schema) (site : Site) (members : List Value) : Ground :=
  ⟨site, form, .array members⟩

/-- What an array has gone through whose members pass. Each entry of `outs` is what came of a
member, and each of `places` where a required schema found a member of its own. -/
structure Passed (form : ArrayForm Schema) (check : Check) (site : Site) (members : List Value)
    (w : Workshop) (out : List Value) (w' : Workshop) (ts : List Trial) (outs : List (Option Value))
    (places : List Nat) (defaults : List Value) : Prop where
  /-- The trials were made, and then the defaults of the places that no member reached. -/
  made : ∃ w₁, (form.ground site members).Trials check w ts w₁ ∧
    ((form.ground site members).defaults check outs.reduceOption
      (form.ordered.drop members.length)).run w₁ = some (defaults, w')
  /-- No member matches a forbidden schema. -/
  refused : ∀ i member, members[i]? = some member →
    ∀ s ∈ form.items, s.node.flags.presence = some .forbidden →
      (form.ground site members).Refuses ts i member
        (s.updateFlags ({ · with presence := some .optional }))
  /-- No two required schemas share a member. -/
  apart : places.Nodup
  /-- Each of them accepts its member, behind the last place. -/
  matched : List.Forall₂
    (fun s i => form.ordered.length ≤ i ∧ ∃ member o, members[i]? = some member ∧
      (form.ground site members).Accepts ts i member s o)
    form.requireds places
  /-- Where there are places and no item schemas, no member is behind the last place. -/
  placed : form.items = [] → form.ordered ≠ [] → members.length ≤ form.ordered.length
  fates : List.Forall₂ (fun x out => (form.ground site members).Fate ts x.2 x.1 out)
    members.zipIdx outs
  output : out = outs.reduceOption ++ defaults

/-- If the members of an array pass, none matches a forbidden schema, each required schema
has a member of its own, and the array that comes out is what the members gave in their
order, then defaults. -/
theorem members_pass {form : ArrayForm Schema} {check : Check} {site : Site}
    {members out : List Value}
    {w w' : Workshop} (h : (form.checkMembers check site members).run w = some ((out, []), w')) :
    ∃ ts outs places defaults,
      form.Passed check site members w out w' ts outs places defaults := by
  unfold checkMembers at h
  dsimp only at h
  set g : Ground := form.ground site members
  obtain ⟨result, w₁, hwalk, hclose⟩ := Runs.bind_some h
  change (g.walk check _ 0 members).run w = _ at hwalk
  have hstands : g.Stands 0 { requireds := form.numberedRequireds, ordereds := form.ordered } :=
    ⟨rfl, fun _ hx => hx⟩
  have hquiet : Ground.ended result = [] := by
    cases result with
    | ok last => exact (Ground.close_quiet hclose).1
    | error reports =>
      obtain ⟨heq, -⟩ := Runs.pure_some hclose
      exact (Prod.mk.inj heq).2
  obtain ⟨ts, last, outs, matched, rfl, htrials, hpassage⟩ :=
    Ground.walk_passes hstands hwalk hquiet
  obtain ⟨-, hrequireds, defaults, hdefaults, hout⟩ := Ground.close_quiet hclose
  have hget {i : Nat} {member : Value} : (member, i) ∈ members.zipIdx ↔ members[i]? = some member :=
    List.mem_zipIdx_iff_getElem?
  -- the matched schemas, in the order of the required ones
  have hperm : form.numberedRequireds.Perm (matched.map Prod.snd) := by
    have hpending := hpassage.pending
    rw [hrequireds, List.append_nil] at hpending
    exact hpending.symm
  obtain ⟨sorted, hsorted, hshuffle⟩ :
      Relation.Comp (· = List.map Prod.snd ·) List.Perm form.numberedRequireds matched := by
    rw [List.eq_map_comp_perm]
    exact hperm
  have haccepts : ∀ m ∈ sorted, form.ordered.length ≤ m.1 ∧
      ∃ member o, members[m.1]? = some member ∧ g.Accepts ts m.1 member m.2.2 o := by
    intro m hm
    obtain ⟨hlast, x, hx, hplace, o, haccepts⟩ := hpassage.accepted m (hshuffle.subset hm)
    exact ⟨hlast, x.1, o, hplace ▸ hget.mp hx, haccepts⟩
  refine ⟨ts, outs, sorted.map Prod.fst, defaults, ?_, ?_, ?_, ?_, ?_, hpassage.fates, ?_⟩
  · rw [hpassage.ordereds, hpassage.output, Nat.zero_add] at hdefaults
    exact ⟨w₁, htrials, hdefaults⟩
  · intro i member hmember s hs hforbidden
    refine hpassage.refused (member, i) (hget.mpr hmember) _ ?_
    exact List.mem_map_of_mem (List.mem_filter.mpr ⟨hs, decide_eq_true hforbidden⟩)
  · exact (hshuffle.map Prod.fst).nodup_iff.mpr hpassage.apart
  · rw [← map_numberedRequireds, hsorted, List.forall₂_map_left_iff, List.forall₂_map_left_iff,
      List.forall₂_map_right_iff, List.forall₂_same]
    exact haccepts
  · intro hitems hordered
    by_contra hlong
    have hlt : form.ordered.length < members.length := by omega
    have hget := hget.mpr (List.getElem?_eq_getElem hlt)
    exact Nat.lt_irrefl _ (hpassage.placed _ hget hitems hordered)
  · rw [hout, hpassage.output]
    rfl

/-- A text in the first place, then some number, no truth values, and anything
else, which is dropped. -/
def mixedForm : ArrayForm Schema where
  ordered := [Schema.string]
  items :=
    [Schema.number.withPresence .required, Schema.boolean.withPresence .forbidden, Schema.any.strip]

def mixedSite : Site := ⟨{}, Schema.ofForm (.array mixedForm), .root, {}, .undefined⟩

theorem members_pass_mixed : ∃ w' ts outs places defaults,
    mixedForm.Passed (Check.within {} 1) mixedSite [.string "x", .string "y", .number 1] {}
      [.string "x", .number 1] w' ts outs places defaults := by
  have hrun : (mixedForm.checkMembers (Check.within {} 1) mixedSite
      [.string "x", .string "y", .number 1]).run {} =
      some (([.string "x", .number 1], []), {}) := by with_unfolding_all rfl
  exact ⟨_, members_pass hrun⟩

end ArrayForm

end Conform
