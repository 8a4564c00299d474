import Conform.Proofs.ArrayPassage
import Conform.Proofs.Truncation

/-!
# What members give to their array

Here the walk over the members of an array is told without leaving anything out, whether or not it
is reported on. Each member has a turn: at most one schema accepts it (`Round`), and it gives at
most one value to the array that comes out. A value that is to be stripped is not given, with one
exception: the first member to match a required schema gives its value all the same.

A turn records what the member did to the walk: the required schema it matched, if any, and the
value it gave, if any. The turns of all members together say what comes out, the values that were
given in their order, and which required schemas are left, those that no turn matched (`Turns`). The
checks that were made on the way are listed as trials, so that what a turn says about its member can
be held against what each schema made of it.

What one step does is said once (`step_did`); the walk follows by induction (`walk_turns`), the
trials of later members being about other places and so of no matter to earlier turns. Nodes that
only hand a value on, alternatives and lazy ones, pass the mark along with the outcome
(`Site.Forwards.handsOn`).

Main statement: `stripped_unless_demanded`.
-/

namespace Conform

namespace ArrayForm

/-- A member's turn. -/
structure Turn where
  /-- The required schema that the member is the first to match. -/
  demand : Option (Nat × Schema)
  /-- What the member gives to the array. -/
  share : Option Value

namespace Ground

/-- What is kept of an outcome: its value, unless that is to be stripped or would leave a hole. -/
def kept (g : Ground) (o : Outcome) : Option Value :=
  if o.strip || g.isHole o.value then none else some o.value

/-- The turn that a member takes by its trials. -/
inductive Serves (g : Ground) (ts : List Trial) (i : Nat) (member : Value) : Turn → Prop
  | taken {s : Schema} {o : Outcome} :
      (∀ t p, g.Accepts ts i member t p ↔ some (s, o) = some (t, p)) →
      Serves g ts i member ⟨none, g.kept o⟩
  | demanded {x : Nat × Schema} {o : Outcome} :
      (∀ t p, g.Accepts ts i member t p ↔ some (x.2, o) = some (t, p)) →
      Serves g ts i member ⟨some x, some o.value⟩
  /-- No schema accepts it. -/
  | unclaimed {share : Option Value} :
      (∀ t p, g.Accepts ts i member t p ↔ none = some (t, p)) → Serves g ts i member ⟨none, share⟩

/-- What a turn makes of a walk. -/
structure Moved (g : Ground) (ts : List Trial) (i : Nat) (member : Value) (walk after : Walk)
    (turn : Turn) : Prop where
  places : ∀ t ∈ ts, t.place = i
  serves : g.Serves ts i member turn
  output : after.out = walk.out ++ turn.share.toList
  pending : (turn.demand.toList ++ after.requireds).Perm walk.requireds
  reports : walk.reports <+: after.reports
  /-- A turn that is not reported leaves no hole. -/
  solid : after.reports = walk.reports → ∀ v ∈ turn.share, g.isHole v = false

/-- All that a step can do. -/
inductive Did (g : Ground) (ts : List Trial) (i : Nat) (member : Value)
    (rest : List Value) (walk : Walk) : Step → Prop
  | next {after : Walk} (turn : Turn) : g.Moved ts i member walk after turn →
      Did g ts i member rest walk (.next after)
  /-- One member too many ends the walk. -/
  | finish {after : Walk} : g.Round ts i member none → after.out = walk.out ++ member :: rest →
      after.requireds = walk.requireds → walk.reports <+: after.reports → after.reports ≠ [] →
      Did g ts i member rest walk (.finish after)
  | abort {reports : List Report} : g.site.prefs.abortEarly = true → reports ≠ [] →
      Did g ts i member rest walk (.abort reports)

variable {check : Check} {g : Ground} {w w₁ w₂ w' : Workshop} {ts ts' : List Trial} {i : Nat}
  {member : Value} {rest : List Value} {walk : Walk} {step : Step}

/-! ### One member -/

/-- A turn with an acceptance gives what is kept of the outcome. -/
theorem Serves.of_round {o : Outcome} {s : Schema} (h : g.Round ts i member (some (s, o))) :
    g.Serves ts i member ⟨none, g.kept o⟩ :=
  .taken fun t p => h.sole t p

/-- A turn without an acceptance may give anything. -/
theorem Serves.of_none (share : Option Value) (h : g.Round ts i member none) :
    g.Serves ts i member ⟨none, share⟩ :=
  .unclaimed fun t p => h.sole t p

/-- The one schema that accepts the member, if any. -/
theorem Serves.once {turn : Turn} {s t : Schema} {o p : Outcome} (h : g.Serves ts i member turn)
    (hs : g.Accepts ts i member s o) (ht : g.Accepts ts i member t p) : t = s ∧ p = o := by
  have hsame {accepted : Option (Schema × Outcome)}
      (hsole : ∀ t p, g.Accepts ts i member t p ↔ accepted = some (t, p)) : t = s ∧ p = o :=
    Prod.mk.inj (Option.some.inj (((hsole t p).mp ht).symm.trans ((hsole s o).mp hs)))
  cases h with
  | taken hsole => exact hsame hsole
  | demanded hsole => exact hsame hsole
  | unclaimed hsole => exact hsame hsole

/-- A value that is to be stripped is not given, unless a required schema was waiting for it. -/
theorem Serves.stripped {turn : Turn} {s : Schema} {o : Outcome} (h : g.Serves ts i member turn)
    (hs : g.Accepts ts i member s o) (hstrip : o.strip = true) :
    turn.demand = none ∧ turn.share = none ∨
      (∃ number, turn.demand = some (number, s)) ∧ turn.share = some o.value := by
  cases h with
  | taken hsole =>
    obtain ⟨rfl, rfl⟩ := Prod.mk.inj (Option.some.inj ((hsole s o).mp hs))
    exact .inl ⟨rfl, if_pos (by simp [hstrip])⟩
  | demanded hsole =>
    obtain ⟨rfl, rfl⟩ := Prod.mk.inj (Option.some.inj ((hsole s o).mp hs))
    exact .inr ⟨⟨_, rfl⟩, rfl⟩
  | unclaimed hsole => exact nomatch (hsole s o).mp hs

/-- A failure ends the walk or goes on with its reports. -/
theorem fail_did {before : Walk} {reports : List Report} {goOn : Walk → Step} (hsome : reports ≠ [])
    (hgo : g.site.prefs.abortEarly = false →
      g.Did ts i member rest walk (goOn { before with reports := before.reports ++ reports })) :
    g.Did ts i member rest walk (g.fail before reports goOn) := by
  unfold Ground.fail
  dsimp only
  by_cases hearly : g.site.prefs.abortEarly = true
  · rw [if_pos hearly]
    exact .abort hearly fun hnil => hsome (List.append_eq_nil_iff.mp hnil).2
  · rw [if_neg hearly]
    exact hgo (by simpa using hearly)

/-- A turn that is reported. -/
theorem Moved.reported {accepted : Option (Schema × Outcome)} {after : Walk} {turn : Turn}
    {reports : List Report} (hround : g.Round ts i member accepted)
    (hserves : g.Serves ts i member turn) (houtput : after.out = walk.out ++ turn.share.toList)
    (hpending : (turn.demand.toList ++ after.requireds).Perm walk.requireds) (hsome : reports ≠ [])
    (hreports : after.reports = walk.reports ++ reports) : g.Moved ts i member walk after turn where
  places := hround.place
  serves := hserves
  output := houtput
  pending := hpending
  reports := hreports ▸ List.prefix_append ..
  solid := fun hsame => absurd (List.append_right_eq_self.mp (hreports.symm.trans hsame)) hsome

/-- A member that is let in has its turn, and gives what is kept of the outcome. -/
theorem takeIncluded_did {s : Schema} {o : Outcome} (h : g.Round ts i member (some (s, o))) :
    g.Did ts i member rest walk (g.takeIncluded walk i o) := by
  have hserves := Serves.of_round h
  unfold takeIncluded
  split
  next hstrip =>
    have hkept : g.kept o = none := if_pos (by simp [hstrip])
    rw [hkept] at hserves
    exact .next _ ⟨h.place, hserves, (List.append_nil _).symm, .refl _, List.prefix_rfl,
      fun _ _ hv => nomatch hv⟩
  next hstays =>
    split
    next hhole =>
      have hkept : g.kept o = none := if_pos (by simp [hhole])
      rw [hkept] at hserves
      exact fail_did (List.cons_ne_nil _ _) fun _ =>
        .next _ (.reported h hserves (List.append_nil _).symm (.refl _) (List.cons_ne_nil _ _) rfl)
    next hvalue =>
      have hkept : g.kept o = some o.value := if_neg (by simp [hstays, hvalue])
      rw [hkept] at hserves
      refine .next _ ⟨h.place, hserves, rfl, .refl _, List.prefix_rfl, ?_⟩
      rintro _ _ ⟨⟩
      simpa using hvalue

/-- The schema of a place strips what it accepts like any item schema. -/
theorem takeOrdered_did {s : Schema} {o : Outcome}
    (h : g.Round ts i member (if o.isOk then some (s, o) else none)) :
    g.Did ts i member rest walk (g.takeOrdered walk i o) := by
  unfold takeOrdered
  by_cases hok : o.isOk = true
  · rw [if_pos hok] at h
    rw [if_neg (by simp [hok])]
    exact takeIncluded_did h
  · rw [if_neg hok] at h
    rw [if_pos (by simpa using hok)]
    have hsome := Outcome.reports_ne_nil (o := o) (by simpa using hok)
    exact fail_did hsome fun _ =>
      .next _ (.reported h (.of_none (some o.value) h) rfl (.refl _) hsome rfl)

/-- The first member to match a required schema gives its value, be it stripped or not. -/
theorem takeRequired_did {x : Nat × Schema} {front back left : List (Nat × Schema)} {o : Outcome}
    (h : g.Round ts i member (some (x.2, o))) (hsplit : walk.requireds = front ++ x :: back)
    (hleft : left = front ++ back) :
    g.Did ts i member rest walk (g.takeRequired { walk with requireds := left } i o) := by
  have hserves : g.Serves ts i member ⟨some x, some o.value⟩ := .demanded fun t p => h.sole t p
  have hpending : (x :: left).Perm walk.requireds := by
    rw [hsplit, hleft]
    exact List.perm_middle.symm
  unfold takeRequired
  dsimp only
  split
  · exact fail_did (List.cons_ne_nil _ _) fun _ =>
      .next _ (.reported h hserves rfl hpending (List.cons_ne_nil _ _) rfl)
  next hvalue =>
    refine .next _ ⟨h.place, hserves, rfl, hpending, List.prefix_rfl, ?_⟩
    rintro _ _ ⟨⟩
    simpa using hvalue

/-- A member without a required schema has its turn. -/
theorem includeMember_did {failed : List (Nat × Outcome)} (hfailed : ∀ x ∈ failed, x.2.isOk = false)
    (hround : g.Round ts i member none) (hvalue : g.isHole member = false)
    (h : (g.includeMember check walk i member failed).run w = some (step, w')) :
    ∃ ts', g.Trials check w ts' w' ∧ g.Did (ts ++ ts') i member rest walk step := by
  unfold includeMember at h
  dsimp only at h
  -- without candidates the member is kept
  by_cases hempty : g.candidates.isEmpty = true
  · rw [if_pos hempty] at h
    obtain ⟨rfl, rfl⟩ := Runs.pure_some h
    refine ⟨[], .none, .next ⟨none, some member⟩ ?_⟩
    rw [List.append_nil]
    refine ⟨hround.place, .of_none _ hround, rfl, .refl _, List.prefix_rfl, ?_⟩
    rintro _ _ ⟨⟩
    exact hvalue
  · rw [if_neg hempty] at h
    obtain ⟨⟨accepted, last⟩, w₁, htry, hstep⟩ := Runs.bind_some h
    obtain ⟨ts', htrials, haccepts, hnone⟩ := tryInclusions_trials hfailed htry
    refine ⟨ts', ?_⟩
    cases accepted with
    | some o =>
      obtain ⟨rfl, rfl⟩ := Runs.pure_some hstep
      obtain ⟨c, -, hround'⟩ := haccepts o rfl
      exact ⟨htrials, takeIncluded_did (hround.append hround')⟩
    | none =>
      obtain ⟨hfails, hround'⟩ := hnone rfl
      have hround := hround.append hround'
      dsimp only at hstep
      -- an unfitting member is left out where arrays are stripped
      by_cases hstrip : g.site.prefs.stripUnknown.arrays = true
      · rw [if_pos hstrip] at hstep
        obtain ⟨rfl, rfl⟩ := Runs.pure_some hstep
        exact ⟨htrials, .next ⟨none, none⟩
          ⟨hround.place, .of_none _ hround, (List.append_nil _).symm,
          .refl _, List.prefix_rfl, fun _ _ hv => nomatch hv⟩⟩
      · rw [if_neg hstrip] at hstep
        have hkeep {reports : List Report} (hsome : reports ≠ []) :
            g.Did (ts ++ ts') i member rest walk
              (g.fail walk reports fun walk => .next { walk with out := walk.out ++ [member] }) :=
          fail_did hsome fun _ => .next _ (.reported hround (.of_none (some member) hround) rfl
            (.refl _) hsome rfl)
        -- the report is that of the last candidate, if there is one for the
        -- member, or the member's own
        split at hstep
        · obtain ⟨rfl, rfl⟩ := Runs.pure_some hstep
          have hlast := hfails fun hnil => hempty (List.isEmpty_iff.mpr hnil)
          exact ⟨htrials, hkeep (Outcome.reports_ne_nil hlast)⟩
        · obtain ⟨rfl, rfl⟩ := Runs.pure_some hstep
          exact ⟨htrials, hkeep (List.cons_ne_nil _ _)⟩

/-- A member has its turn, wherever it goes. -/
theorem placeMember_did (hround : g.Round ts i member none) (hvalue : g.isHole member = false)
    (h : (g.placeMember check walk i member).run w = some (step, w')) :
    ∃ ts', g.Trials check w ts' w' ∧ g.Did (ts ++ ts') i member rest walk step := by
  unfold placeMember at h
  obtain ⟨tried, w₁, htry, hstep⟩ := Runs.bind_some h
  obtain ⟨ts₁, htrials, htold⟩ := tryRequireds_trials (List.forall_mem_nil _) htry
  cases tried with
  | matched o left =>
    obtain ⟨rfl, rfl⟩ := Runs.pure_some hstep
    obtain ⟨front, x, back, hsplit, hleft, hround'⟩ := htold
    exact ⟨ts₁, htrials, takeRequired_did (hround.append hround') hsplit hleft⟩
  | failed failed =>
    obtain ⟨ts₂, htrials', hdid⟩ := includeMember_did htold.1 (hround.append htold.2) hvalue hstep
    rw [List.append_assoc] at hdid
    exact ⟨ts₁ ++ ts₂, htrials.append htrials', hdid⟩

/-- How many places there are left does not matter to a turn. -/
theorem Did.of_ordereds {ordereds : List Schema}
    (h : g.Did ts i member rest { walk with ordereds } step) :
    g.Did ts i member rest walk step := by
  cases h with
  | next turn hmoved =>
    exact .next turn ⟨hmoved.places, hmoved.serves, hmoved.output, hmoved.pending, hmoved.reports,
      hmoved.solid⟩
  | finish hround hout hrequireds hreports hsome =>
    exact .finish hround hout hrequireds hreports hsome
  | abort hearly hreports => exact .abort hearly hreports

/-- One step of the walk is one turn. -/
theorem step_did (h : (g.step check walk i member rest).run w = some (step, w')) :
    ∃ ts, g.Trials check w ts w' ∧ g.Did ts i member rest walk step := by
  -- a member that is passed over is reported and gives nothing
  have hskip {ts : List Trial} {report : Report}
      (hround : g.site.prefs.abortEarly = false → g.Round ts i member none) :
      g.Did ts i member rest walk
        (g.fail walk [report] fun walk => .next { walk with ordereds := walk.ordereds.tail }) :=
    fail_did (List.cons_ne_nil _ _) fun hlate => .next ⟨none, none⟩
      (.reported (hround hlate) (.of_none _ (hround hlate)) (List.append_nil _).symm (.refl _)
        (List.cons_ne_nil _ _) rfl)
  unfold Ground.step at h
  dsimp only at h
  by_cases hhole : g.isHole member = true
  · rw [if_pos hhole] at h
    obtain ⟨rfl, rfl⟩ := Runs.pure_some h
    exact ⟨[], .none, hskip fun _ => .nil⟩
  rw [if_neg hhole] at h
  have hvalue : g.isHole member = false := by simpa using hhole
  obtain ⟨excluded, w₁, hexcluded, hstep⟩ := Runs.bind_some h
  obtain ⟨ts, htrials, -, hround⟩ := isExcluded_trials hexcluded
  cases excluded with
  | true =>
    rw [if_pos rfl] at hstep
    obtain ⟨rfl, rfl⟩ := Runs.pure_some hstep
    exact ⟨ts, htrials, hskip fun hlate => hround (.inr hlate)⟩
  | false =>
    rw [if_neg Bool.false_ne_true] at hstep
    have hround := hround (.inl rfl)
    have hplaced (hplace : (g.placeMember check walk i member).run w₁ = some (step, w')) :
        ∃ ts, g.Trials check w ts w' ∧ g.Did ts i member rest walk step := by
      obtain ⟨ts', htrials', hdid⟩ := placeMember_did hround hvalue hplace
      exact ⟨ts ++ ts', htrials.append htrials', hdid⟩
    by_cases hordered : g.form.ordered.isEmpty = true
    · rw [if_pos hordered] at hstep
      exact hplaced hstep
    rw [if_neg hordered] at hstep
    split at hstep
    next schema ordereds hcons =>
      obtain ⟨o, w₂, hcheck, hpure⟩ := Runs.bind_some hstep
      obtain ⟨rfl, rfl⟩ := Runs.pure_some hpure
      have hround' : g.Round [⟨i, member, schema, g.site.prefs, o⟩] i member
          (if o.isOk then some (schema, o) else none) := by
        by_cases hok : o.isOk = true
        · rw [if_pos hok]
          exact .one hok
        · rw [if_neg hok]
          exact .cons_refused rfl (.inr (by simpa using hok)) .nil
      exact ⟨_, htrials.append (.one hcheck), (takeOrdered_did (hround.append hround')).of_ordereds⟩
    · by_cases hitems : g.form.items.isEmpty = true
      · rw [if_pos hitems] at hstep
        obtain ⟨rfl, rfl⟩ := Runs.pure_some hstep
        refine ⟨ts, htrials, fail_did (List.cons_ne_nil _ _) fun _ =>
          .finish hround rfl rfl (List.prefix_append ..) ?_⟩
        exact fun hnil => List.cons_ne_nil _ _ (List.append_eq_nil_iff.mp hnil).2
      · rw [if_neg hitems] at hstep
        exact hplaced hstep

/-! ### All members -/

/-- The turns that the members from place `i` on take in a walk. -/
structure Turns (g : Ground) (ts : List Trial) (i : Nat) (members : List Value) (walk last : Walk)
    (turns : List Turn) : Prop where
  places : ∀ t ∈ ts, i ≤ t.place
  every : turns.length = members.length
  serves : ∀ (k : Nat) (member : Value) (turn : Turn), members[k]? = some member →
    turns[k]? = some turn → g.Serves ts (i + k) member turn
  output : last.out = walk.out ++ (turns.map Turn.share).reduceOption
  /-- The required schemas are those that were matched and those left. -/
  pending : (turns.filterMap Turn.demand ++ last.requireds).Perm walk.requireds
  reports : walk.reports <+: last.reports
  solid : last.reports = [] → ∀ turn ∈ turns, ∀ v ∈ turn.share, g.isHole v = false

/-- What a turn gives is a matter of what accepts its member. -/
theorem Serves.congr {turn : Turn} (h : g.Serves ts i member turn)
    (hsame : ∀ s o, g.Accepts ts i member s o ↔ g.Accepts ts' i member s o) :
    g.Serves ts' i member turn := by
  cases h with
  | taken hsole => exact .taken fun t p => (hsame t p).symm.trans (hsole t p)
  | demanded hsole => exact .demanded fun t p => (hsame t p).symm.trans (hsole t p)
  | unclaimed hsole => exact .unclaimed fun t p => (hsame t p).symm.trans (hsole t p)

/-- Trials of other members have no bearing on a turn. -/
theorem accepts_append_left {s : Schema} {o : Outcome} (hother : ∀ t ∈ ts, t.place ≠ i) :
    g.Accepts ts' i member s o ↔ g.Accepts (ts ++ ts') i member s o := by
  refine ⟨fun h => h.mono (List.subset_append_right ..), fun h => ⟨?_, h.2⟩⟩
  exact (List.mem_append.mp h.1).resolve_left fun hin => hother _ hin rfl

/-- Trials of other members do not matter. -/
theorem accepts_append_right {s : Schema} {o : Outcome} (hother : ∀ t ∈ ts', t.place ≠ i) :
    g.Accepts ts i member s o ↔ g.Accepts (ts ++ ts') i member s o := by
  refine ⟨fun h => h.mono (List.subset_append_left ..), fun h => ⟨?_, h.2⟩⟩
  exact (List.mem_append.mp h.1).resolve_right fun hin => hother _ hin rfl

/-- No members take no turns. -/
theorem Turns.nil : g.Turns [] i [] walk walk [] where
  places := List.forall_mem_nil _
  every := rfl
  serves := fun _ _ _ hmember => nomatch hmember
  output := (List.append_nil _).symm
  pending := .refl _
  reports := List.prefix_rfl
  solid := fun _ => List.forall_mem_nil _

/-- The first member takes its turn before the others. -/
theorem Turns.cons {members : List Value} {after last : Walk} {turn : Turn} {turns : List Turn}
    (hmoved : g.Moved ts i member walk after turn)
    (h : g.Turns ts' (i + 1) members after last turns) :
    g.Turns (ts ++ ts') i (member :: members) walk last (turn :: turns) where
  places := by
    intro t ht
    rcases List.mem_append.mp ht with hin | hin
    · exact Nat.le_of_eq (hmoved.places t hin).symm
    · exact Nat.le_of_succ_le (h.places t hin)
  every := congrArg (· + 1) h.every
  serves := by
    intro k x t hx ht
    cases k with
    | zero =>
      obtain rfl : member = x := Option.some.inj hx
      obtain rfl : turn = t := Option.some.inj ht
      -- later trials are about later places
      have hlater : ∀ t ∈ ts', t.place ≠ i := fun t ht => Nat.ne_of_gt (h.places t ht)
      exact hmoved.serves.congr fun _ _ => accepts_append_right hlater
    | succ k =>
      have hserves := h.serves k x t hx ht
      rw [Nat.succ_add_eq_add_succ] at hserves
      -- and earlier ones about this place
      have hearlier : ∀ t ∈ ts, t.place ≠ i + (k + 1) := by
        intro t ht
        rw [hmoved.places t ht]
        omega
      exact hserves.congr fun _ _ => accepts_append_left hearlier
  output := by
    rw [h.output, hmoved.output, List.append_assoc]
    congr 1
    obtain ⟨demand, share⟩ := turn
    cases share <;> rfl
  pending := by
    have hrest : (turn.demand.toList ++ (turns.filterMap Turn.demand ++ last.requireds)).Perm
        (turn.demand.toList ++ after.requireds) := h.pending.append_left _
    have hall := hrest.trans hmoved.pending
    rw [← List.append_assoc] at hall
    obtain ⟨demand, share⟩ := turn
    cases demand <;> exact hall
  reports := hmoved.reports.trans h.reports
  solid := by
    intro hquiet
    refine List.forall_mem_cons.mpr ⟨?_, h.solid hquiet⟩
    have hafter : after.reports = [] := List.prefix_nil.mp (hquiet ▸ h.reports)
    have hbefore : walk.reports = [] := List.prefix_nil.mp (hafter ▸ hmoved.reports)
    exact hmoved.solid (hafter.trans hbefore.symm)

/-- Where one member too many ends the walk, it and those behind it are given as they are. -/
theorem Turns.leftOver {after : Walk} (hround : g.Round ts i member none)
    (hout : after.out = walk.out ++ member :: rest) (hrequireds : after.requireds = walk.requireds)
    (hreports : walk.reports <+: after.reports) (hsome : after.reports ≠ []) :
    g.Turns ts i (member :: rest) walk after ((member :: rest).map fun v => ⟨none, some v⟩) where
  places := fun t ht => Nat.le_of_eq (hround.place t ht).symm
  every := List.length_map _
  serves := by
    intro k x turn hx hturn
    rw [List.getElem?_map, hx] at hturn
    obtain rfl := Option.some.inj hturn
    -- only the first of them was tried, and no one accepted it
    refine .unclaimed fun t p => ⟨fun haccepts => ?_, fun habsurd => nomatch habsurd⟩
    have hplace : i + k = i := hround.place _ haccepts.1
    obtain rfl : k = 0 := by omega
    obtain rfl : member = x := Option.some.inj hx
    exact nomatch (hround.sole t p).mp haccepts
  output := by
    rw [hout, List.map_map, List.reduceOption, List.filterMap_map]
    exact congrArg (walk.out ++ ·) List.filterMap_some.symm
  pending := by
    have hnone :
        ((member :: rest).map fun v => (⟨none, some v⟩ : Turn)).filterMap Turn.demand = [] := by
      rw [List.filterMap_map]
      exact List.filterMap_eq_nil_iff.mpr fun _ _ => rfl
    rw [hnone, hrequireds]
    exact .refl _
  reports := hreports
  solid := fun hquiet => absurd hquiet hsome

/-- A walk is broken off by the first failure where that settles it, or each
member takes its turn. -/
theorem walk_turns {members : List Value} {result : Except (List Report) Walk}
    (h : (g.walk check walk i members).run w = some (result, w')) :
    (∃ reports, result = .error reports ∧ g.site.prefs.abortEarly = true ∧ reports ≠ []) ∨
      ∃ ts last turns, result = .ok last ∧ g.Trials check w ts w' ∧
        g.Turns ts i members walk last turns := by
  induction members generalizing walk i w with
  | nil =>
    obtain ⟨rfl, rfl⟩ := Runs.pure_some h
    exact .inr ⟨[], walk, [], rfl, .none, .nil⟩
  | cons member rest ih =>
    unfold Ground.walk at h
    obtain ⟨step, w₁, hstep, hrest⟩ := Runs.bind_some h
    obtain ⟨ts, htrials, hdid⟩ := step_did hstep
    cases hdid with
    | next turn hmoved =>
      rcases ih hrest with hbroken | ⟨ts', last, turns, hresult, htrials', hturns⟩
      · exact .inl hbroken
      · exact .inr ⟨ts ++ ts', last, _ :: turns, hresult, htrials.append htrials',
          .cons hmoved hturns⟩
    | finish hround hout hrequireds hreports hsome =>
      obtain ⟨rfl, rfl⟩ := Runs.pure_some hrest
      exact .inr ⟨ts, _, _, rfl, htrials, .leftOver hround hout hrequireds hreports hsome⟩
    | abort hearly hsome =>
      obtain ⟨rfl, rfl⟩ := Runs.pure_some hrest
      exact .inl ⟨_, rfl, hearly, hsome⟩

end Ground

end ArrayForm

/-! ### Nodes that hand values on -/

namespace AlternativesForm

variable {site : Site} {check : Check} {value : Value} {w w' : Workshop} {o : Outcome}

/-- Alternatives that accept a value give the outcome of an inner schema as it is. -/
theorem tryEntries_gives {form : AlternativesForm Schema} {entries : List (Match Schema)}
    {failures : List (List Report)} (hfailures : ∀ reports ∈ failures, reports ≠ [])
    (h : (form.tryEntries check site value failures entries).run w = some (o, w'))
    (hok : o.isOk = true) :
    ∃ t w₁ w₂, (check t value site.position site.prefs).run w₁ = some (o, w₂) := by
  induction entries generalizing failures w with
  | nil =>
    unfold tryEntries at h
    split at h
    next base _ => exact ⟨base, w, w', h⟩
    · -- nothing matched, so the value is not accepted
      obtain ⟨rfl, rfl⟩ := Runs.pure_some h
      exact absurd (List.isEmpty_iff.mp hok) (unmatched_ne hfailures site value)
  | cons entry rest ih =>
    cases entry with
    | attempt schema =>
      unfold tryEntries at h
      obtain ⟨tried, w₁, hcheck, hrest⟩ := Runs.bind_some h
      by_cases haccepts : tried.isOk = true
      · rw [if_pos haccepts] at hrest
        obtain ⟨rfl, rfl⟩ := Runs.pure_some hrest
        exact ⟨schema, w, _, hcheck⟩
      · rw [if_neg haccepts] at hrest
        refine ih ?_ hrest
        -- failures that were put aside have reports
        intro reports hreports
        rcases List.mem_append.mp hreports with hold | hnew
        · exact hfailures reports hold
        · rw [List.mem_singleton.mp hnew]
          exact Outcome.reports_ne_nil (by simpa using haccepts)
    | conditional condition cases otherwise =>
      unfold tryEntries at h
      obtain ⟨branch, w₁, -, hrest⟩ := Runs.bind_some h
      cases branch with
      | none => exact ih hfailures hrest
      | some branch => exact ⟨branch, w₁, w', hrest⟩

end AlternativesForm

namespace Site

variable {site : Site} {check : Check} {value : Value} {reports : List Report}
  {w w' : Workshop} {o : Outcome}

/-- The node hands values on to inner schemas. -/
def Forwards (site : Site) : Prop :=
  (∃ form, site.node.form = .alternatives form) ∨ ∃ form, site.node.form = .lazy form

/-- A node that hands values on and accepts has the outcome of an inner schema. -/
theorem Forwards.base (hforwards : site.Forwards)
    (h : (site.checkBase check value).run w = some (o, w'))
    (hok : o.isOk = true) :
    ∃ t w₁ w₂, (check t value site.position site.prefs).run w₁ = some (o, w₂) := by
  unfold checkBase at h
  rcases hforwards with ⟨form, hform⟩ | ⟨form, hform⟩
  · rw [hform] at h
    exact AlternativesForm.tryEntries_gives (List.forall_mem_nil _) h hok
  · rw [hform] at h
    obtain ⟨t, w₁, -, hcheck⟩ := Runs.bind_some h
    exact ⟨t, w₁, w', hcheck⟩

/-- The mark to strip a value is that of the check of the type, or the node's own. -/
theorem checkContent_strip (h : (site.checkContent check value reports).run w = some (o, w')) :
    ∃ base w₁, (site.checkBase check value).run w = some (base, w₁) ∧
      o.strip = (base.strip || site.node.flags.strip) := by
  unfold checkContent at h
  obtain ⟨base, w₁, hbase, hrest⟩ := Runs.bind_some h
  refine ⟨base, w₁, hbase, ?_⟩
  split at hrest
  · obtain ⟨rfl, rfl⟩ := Runs.pure_some hrest
    rfl
  · obtain ⟨⟨ruled, reports'⟩, w₂, -, hpure⟩ := Runs.bind_some hrest
    obtain ⟨rfl, rfl⟩ := Runs.pure_some hpure
    rfl

/-- A node finishes a value before it comes to the check of the type, or
gives what that comes to. -/
theorem run_exits (h : (site.run check).run w = some (o, w')) :
    (∃ value reports, o = site.finish value reports) ∨
      ∃ value reports w₁, (site.checkContent check value reports).run w₁ = some (o, w') := by
  unfold Site.run at h
  split at h
  · obtain ⟨rfl, rfl⟩ := Runs.pure_some h
    exact .inl ⟨_, _, rfl⟩
  · obtain ⟨value, w₁, -, hrest⟩ := Runs.bind_some h
    split at hrest
    · obtain ⟨rfl, rfl⟩ := Runs.pure_some hrest
      exact .inl ⟨_, _, rfl⟩
    next present _ =>
      unfold checkPresent at hrest
      split at hrest
      · obtain ⟨rfl, rfl⟩ := Runs.pure_some hrest
        exact .inl ⟨_, _, rfl⟩
      · split at hrest
        · obtain ⟨rfl, rfl⟩ := Runs.pure_some hrest
          exact .inl ⟨_, _, rfl⟩
        · exact .inr ⟨_, _, w₁, hrest⟩

/-- How a node that hands values on comes to an outcome: it finishes the value itself, or it takes
that of an inner schema, whose mark to strip the value joins its own. -/
def HandsOn (site : Site) (check : Check) (o : Outcome) : Prop :=
  (∃ value reports, o = site.finish value reports) ∨
    ∃ value base w₁ w₂, (site.checkBase check value).run w₁ = some (base, w₂) ∧
      o.strip = (base.strip || site.node.flags.strip) ∧
      (base.isOk = true → ∃ t w₃ w₄,
        (check t value site.position site.prefs).run w₃ = some (base, w₄))

/-- A node that hands values on finishes the value itself, or takes an outcome from inside. -/
theorem Forwards.handsOn (hforwards : site.Forwards) (h : (site.run check).run w = some (o, w')) :
    site.HandsOn check o := by
  refine (run_exits h).imp_right ?_
  rintro ⟨value, reports, w₁, hcontent⟩
  obtain ⟨base, w₂, hbase, hstrip⟩ := checkContent_strip hcontent
  exact ⟨value, base, w₁, w₂, hbase, hstrip, hforwards.base hbase⟩

end Site

namespace ArrayForm

/-! ### The whole -/

/-- What the schema of a trial knows. -/
def Ground.stand (g : Ground) (env : Environment) (t : Trial) : Site where
  env := env
  schema := t.schema
  position := g.position t.place
  prefs := t.prefs.merged t.schema.node.prefs
  input := t.member

/-- Each trial is a check that was run. -/
theorem Ground.Trials.ran {g : Ground} {check : Check} {w w' : Workshop} {ts : List Trial}
    (h : g.Trials check w ts w') :
    ∀ t ∈ ts, ∃ w₁ w₂, (check t.schema t.member (g.position t.place) t.prefs).run w₁ =
      some (t.outcome, w₂) := by
  induction h with
  | none => exact List.forall_mem_nil _
  | more hrun _ ih => exact List.forall_mem_cons.mpr ⟨⟨_, _, hrun⟩, ih⟩

/-- How an array comes out that is checked to its end: what its members give, then defaults. -/
structure Shared (form : ArrayForm Schema) (check : Check) (site : Site) (members : List Value)
    (w : Workshop) (out : List Value) (reports : List Report) (w' : Workshop) (ts : List Trial)
    (turns : List Turn) (defaults : List Value) : Prop where
  output : out = (turns.map Turn.share).reduceOption ++ defaults
  every : turns.length = members.length
  /-- The trials were made, and then, of an array without reports, the defaults
  of places not reached. -/
  made : ∃ w₁, (form.ground site members).Trials check w ts w₁ ∧ (defaults = [] ∨ reports = [] ∧
    ((form.ground site members).defaults check (turns.map Turn.share).reduceOption
      (form.ordered.drop members.length)).run w₁ = some (defaults, w'))
  /-- Each required schema is demanded once at most. -/
  demands : ∃ unmatched,
    ((turns.filterMap Turn.demand).map Prod.snd ++ unmatched).Perm form.requireds
  /-- No two schemas accept a member. -/
  once : ∀ {i member s o t p}, members[i]? = some member →
    (form.ground site members).Accepts ts i member s o →
    (form.ground site members).Accepts ts i member t p → t = s ∧ p = o
  /-- A member that is accepted to be stripped gives nothing, unless it is the first to match a
  required schema: then it gives its value. -/
  stripped : ∀ {i member s o}, members[i]? = some member →
    (form.ground site members).Accepts ts i member s o → o.strip = true →
    ∃ turn, turns[i]? = some turn ∧ (turn.demand = none ∧ turn.share = none ∨
      (∃ number, turn.demand = some (number, s)) ∧ turn.share = some o.value)

/-- The turns of the members tell how the array comes out. -/
theorem shared_of_turns {form : ArrayForm Schema} {check : Check} {site : Site}
    {members out : List Value} {reports : List Report} {w w' : Workshop}
    (h : (form.checkMembers check site members).run w = some ((out, reports), w'))
    (hwhole : site.prefs.abortEarly = false ∨ reports = []) :
    ∃ ts turns defaults, form.Shared check site members w out reports w' ts turns defaults := by
  unfold checkMembers at h
  dsimp only at h
  set g : Ground := form.ground site members
  obtain ⟨result, w₁, hwalk, hclose⟩ := Runs.bind_some h
  change (g.walk check _ 0 members).run w = _ at hwalk
  rcases Ground.walk_turns hwalk with
      ⟨broken, rfl, hearly, hsome⟩ | ⟨ts, last, turns, rfl, htrials, hturns⟩
  · -- a walk that was broken off has reports
    obtain ⟨heq, -⟩ := Runs.pure_some hclose
    obtain ⟨-, rfl⟩ := Prod.mk.inj heq
    rcases hwhole with hlate | hquiet
    · exact absurd (hearly.symm.trans hlate) (by simp)
    · exact absurd hquiet hsome
  obtain ⟨hreports, defaults, hout, hreported, hmade⟩ := Ground.close_cases hclose
  have hserves {i : Nat} {member : Value} (hmember : members[i]? = some member) :
      ∃ turn, turns[i]? = some turn ∧ g.Serves ts i member turn := by
    have hlt : i < turns.length := hturns.every ▸ (List.getElem?_eq_some_iff.mp hmember).1
    refine ⟨_, List.getElem?_eq_getElem hlt, ?_⟩
    have hserves := hturns.serves i member _ hmember (List.getElem?_eq_getElem hlt)
    rwa [Nat.zero_add] at hserves
  refine ⟨ts, turns, defaults, ?_, hturns.every, ⟨w₁, htrials, ?_⟩, ?_, ?_, ?_⟩
  · rw [hout, hturns.output]
    rfl
  · by_cases hquiet : reports = []
    · refine .inr ⟨hquiet, ?_⟩
      -- a walk that was not reported leaves the places behind the last member
      have hended : Ground.ended (.ok last) = [] :=
        (Ground.reports_quiet (hreports.symm.trans hquiet)).1
      obtain ⟨_, _, _, _, hlast, -, hpassage⟩ :=
        Ground.walk_passes (g := g) ⟨rfl, fun _ hx => hx⟩ hwalk hended
      obtain rfl := Except.ok.inj hlast
      have hdefaults := hmade hquiet
      rw [hpassage.ordereds, hturns.output, Nat.zero_add] at hdefaults
      exact hdefaults
    · exact .inl (hreported hquiet)
  · refine ⟨last.requireds.map Prod.snd, ?_⟩
    have hpending := hturns.pending.map Prod.snd
    rw [List.map_append, map_numberedRequireds] at hpending
    exact hpending
  · intro i member s o t p hmember hs ht
    obtain ⟨_, -, hserved⟩ := hserves hmember
    exact hserved.once hs ht
  · intro i member s o hmember hs hstrip
    obtain ⟨turn, hturn, hserved⟩ := hserves hmember
    exact ⟨turn, hturn, hserved.stripped hs hstrip⟩

/-- A value that the accepting schema strips is missing from the array that comes out, but for the
first member to match a required schema. An outcome is to be stripped if the node says so, or if the
inner schema does to which alternatives or a lazy node hand the value on. -/
theorem stripped_unless_demanded {env : Environment} {inner : Check}
    {form : ArrayForm Schema} {site : Site}
    {members out : List Value} {reports : List Report} {w w' : Workshop}
    (h : (form.checkMembers (Check.node env inner) site members).run w = some ((out, reports), w'))
    (hwhole : site.prefs.abortEarly = false ∨ reports = []) :
    ∃ ts turns defaults,
      form.Shared (Check.node env inner) site members w out reports w' ts turns defaults ∧
      ∀ t ∈ ts, ((form.ground site members).stand env t).Forwards →
        ((form.ground site members).stand env t).HandsOn inner t.outcome := by
  obtain ⟨ts, turns, defaults, hshared⟩ := shared_of_turns h hwhole
  refine ⟨ts, turns, defaults, hshared, fun t ht hforwards => ?_⟩
  obtain ⟨_, htrials, -⟩ := hshared.made
  obtain ⟨_, _, hrun⟩ := htrials.ran t ht
  exact hforwards.handsOn hrun

/-- Alternatives are required whose one entry is to be stripped. -/
def strippedForm : ArrayForm Schema where
  items :=
    [(Schema.ofForm (.alternatives { entries := [.attempt Schema.number.strip] })).withPresence
      .required]

/-- Of two numbers the first is given though it is to be stripped, and the second is not. -/
theorem stripped_unless_demanded_twoNumbers : ∃ ts turns defaults,
    strippedForm.Shared (Check.within {} 2)
      ⟨{}, Schema.ofForm (.array strippedForm), .root, {}, .undefined⟩
      [.number 1, .number 2] {} [.number 1] [] {} ts turns defaults := by
  have hrun : (strippedForm.checkMembers (Check.node {} (Check.within {} 1))
      ⟨{}, Schema.ofForm (.array strippedForm), .root, {}, .undefined⟩ [.number 1, .number 2]).run
      {} = some (([.number 1], []), {}) := by with_unfolding_all rfl
  obtain ⟨ts, turns, defaults, hshared, -⟩ := stripped_unless_demanded hrun (.inr rfl)
  exact ⟨ts, turns, defaults, hshared⟩

end ArrayForm

end Conform
