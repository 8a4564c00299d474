import Mathlib.Data.List.DropRight
import Conform.Proofs.Shares

/-!
# Places that no member reaches

An array may have more places than members. If its members pass, each place left is checked with a
missing value: those values come behind what the members gave, without the missing ones at the end.
So what the members give is free of holes in an array that is not sparse, while a place left without
a default is a hole if there is a default behind it.

The reports of these checks are dropped. The array passes if no place left is marked required,
whatever a place refuses a missing value for: a value that the preferences ask for, a default that
cannot be had, or a failure further in (`RefusesMissing`).

A place that no member reaches is checked with a missing value at the index it would have. What
comes of these checks is a list of outcomes, of which the values are kept up to the last that is
there (`trimmed`). Whether there is a hole in the array that comes out can be read off that list:
some outcome without a value in front of one with a value. As the array was checked for holes before
this, nothing reports it.

The reasons for which a node refuses a missing value are listed (`RefusesMissing`), and the list is
shown to be complete by going through presence, default and, for an object that is made for a
missing one, its further check. Only one of them is looked at when the array decides, that the node
is marked required; all others are dropped with the reports.

Main statements: `holes_only_among_defaults` and `missing_places_overlooked`.
-/

namespace Conform

theorem forall_rdropWhile_iff {α : Type} (p : α → Bool) (values : List α) :
    (∀ v ∈ values.rdropWhile p, p v = false) ↔ values.Pairwise fun u v =>
    p v = false → p u = false := by
  induction values using List.reverseRecOn with
  | nil =>
    rw [List.rdropWhile_nil]
    exact ⟨fun _ => .nil, fun _ => List.forall_mem_nil _⟩
  | append_singleton values last ih =>
    rw [List.pairwise_append, List.rdropWhile_concat]
    by_cases hlast : p last = true
    · -- the last one goes, and asks nothing of those before it
      rw [if_pos hlast, ih]
      refine ⟨fun h => ⟨h, List.pairwise_singleton .., fun _ _ v hv hkept => ?_⟩, fun h => h.1⟩
      rw [List.mem_singleton.mp hv, hlast] at hkept
      exact absurd hkept (by simp)
    · rw [if_neg hlast]
      have hkept : p last = false := by simpa using hlast
      constructor
      · intro hall
        have hfront : ∀ u ∈ values, p u = false := fun u hu => hall u (List.mem_append_left _ hu)
        exact ⟨List.pairwise_of_forall_mem_list fun u hu _ _ _ => hfront u hu,
          List.pairwise_singleton .., fun u hu _ _ _ => hfront u hu⟩
      · rintro ⟨-, -, hbefore⟩ v hv
        rcases List.mem_append.mp hv with hfront | hend
        · exact hbefore v hfront last (List.mem_singleton_self _) hkept
        · rw [List.mem_singleton.mp hend, hkept]

/-- Where a missing value stands in an array: so many places behind what the members gave. -/
def Site.behind (site : Site) (given : List Value) (offset : Nat) : Position :=
  site.position.nest (.index (given.length + offset)) (.array given)

namespace ArrayForm

/-- The values of the outcomes, without those missing at the end. -/
def trimmed (outcomes : List Outcome) : List Value :=
  (outcomes.map Outcome.value).rdropWhile fun v => !v.isDefined

theorem forall_trimmed_iff (outcomes : List Outcome) :
    (∀ v ∈ trimmed outcomes, v.isDefined = true) ↔
    outcomes.Pairwise fun p q => q.value.isDefined = true → p.value.isDefined = true := by
  have hpairs := forall_rdropWhile_iff (fun v : Value => !v.isDefined) (outcomes.map Outcome.value)
  simp only [Bool.not_eq_false'] at hpairs
  rw [List.pairwise_map] at hpairs
  exact hpairs

namespace Ground

variable {check : Check} {g : Ground} {w w' : Workshop}

/-- What the schemas of places left give for a missing value. -/
def Left (g : Ground) (check : Check) (given : List Value) (ordereds : List Schema)
    (outcomes : List Outcome) :
    Prop :=
  List.Forall₂ (fun x o => ∃ w₁ w₂,
    (check x.1 .undefined (g.site.behind given x.2) g.site.prefs).run w₁ = some (o, w₂))
    ordereds.zipIdx outcomes

theorem defaultsFromEnd_outcomes {given : List Value} {places : List (Schema × Nat)}
    {values : List Value}
    (h : (g.defaultsFromEnd check given.length (.array given) places).run w = some (values, w')) :
    ∃ outcomes : List Outcome, values = outcomes.map Outcome.value ∧
      List.Forall₂ (fun x o => ∃ w₁ w₂,
        (check x.1 .undefined (g.site.behind given x.2) g.site.prefs).run w₁ = some (o, w₂))
          places outcomes := by
  induction places generalizing w w' values with
  | nil =>
    obtain ⟨rfl, -⟩ := Runs.pure_some h
    exact ⟨[], rfl, .nil⟩
  | cons place before ih =>
    unfold defaultsFromEnd at h
    obtain ⟨o, w₁, hcheck, hrest⟩ := Runs.bind_some h
    obtain ⟨rest, w₂, hbefore, hpure⟩ := Runs.bind_some hrest
    obtain ⟨rfl, -⟩ := Runs.pure_some hpure
    obtain ⟨outcomes, rfl, hall⟩ := ih hbefore
    exact ⟨o :: outcomes, rfl, .cons ⟨w, w₁, hcheck⟩ hall⟩

theorem defaults_outcomes {given defaults : List Value} {ordereds : List Schema}
    (h : (g.defaults check given ordereds).run w = some (defaults, w')) :
    ∃ outcomes : List Outcome, g.Left check given ordereds outcomes ∧
      defaults = trimmed outcomes := by
  unfold Ground.defaults at h
  obtain ⟨values, w₁, hvalues, hpure⟩ := Runs.bind_some h
  obtain ⟨rfl, -⟩ := Runs.pure_some hpure
  obtain ⟨outcomes, rfl, hall⟩ := defaultsFromEnd_outcomes hvalues
  refine ⟨outcomes.reverse, ?_, ?_⟩
  · have hreverse := List.rel_reverse hall
    rw [List.reverse_reverse] at hreverse
    exact hreverse
  · rw [trimmed, List.rdropWhile, List.map_reverse, List.reverse_reverse]

end Ground

/-- The parts of an array whose members pass. -/
theorem parts_of_quiet {form : ArrayForm Schema} {check : Check} {site : Site}
    {members out : List Value}
    {w w' : Workshop} (h : (form.checkMembers check site members).run w = some ((out, []), w')) :
    ∃ given outcomes, (form.ground site members).Left check given
      (form.ordered.drop members.length) outcomes ∧
      out = given ++ trimmed outcomes ∧
      (∀ v ∈ given, (form.ground site members).isHole v = false) ∧
      ∀ s ∈ form.ordered.drop members.length, s.node.flags.presence ≠ some .required := by
  unfold checkMembers at h
  dsimp only at h
  set g : Ground := form.ground site members
  obtain ⟨result, w₁, hwalk, hclose⟩ := Runs.bind_some h
  change (g.walk check _ 0 members).run w = _ at hwalk
  rcases Ground.walk_turns hwalk with ⟨broken, rfl, -, hsome⟩ | ⟨ts, last, turns, rfl, -, hturns⟩
  · obtain ⟨heq, -⟩ := Runs.pure_some hclose
    -- a walk broken off has reports, against what is assumed
    exact absurd (Prod.mk.inj heq).2 hsome
  obtain ⟨hreports, -⟩ := Ground.close_cases hclose
  obtain ⟨hquiet, -, hplaces⟩ := Ground.reports_quiet hreports.symm
  obtain ⟨-, -, defaults, hdefaults, hout⟩ := Ground.close_quiet hclose
  obtain ⟨_, _, _, _, hlast, -, hpassage⟩ :=
    Ground.walk_passes (g := g) ⟨rfl, fun _ hx => hx⟩ hwalk hquiet
  obtain rfl := Except.ok.inj hlast
  -- all of the members took their places, one by one
  rw [hpassage.ordereds, Nat.zero_add] at hdefaults hplaces
  obtain ⟨outcomes, hleft, rfl⟩ := Ground.defaults_outcomes hdefaults
  refine ⟨last.out, outcomes, hleft, hout, ?_, hplaces⟩
  intro v hv
  rw [hturns.output, List.nil_append, List.reduceOption_mem_iff] at hv
  obtain ⟨turn, hturn, hshare⟩ := List.mem_map.mp hv
  exact hturns.solid hquiet turn hturn v hshare

/-- An array that is not sparse passes with a hole only where a place that no member reaches has no
default, but one behind it has. -/
theorem holes_only_among_defaults {form : ArrayForm Schema}
    (hsparse : form.sparse = false) {check : Check}
    {site : Site} {value : Value} {w w' : Workshop} {o : Outcome}
    (h : (form.base check site value).run w = some (o, w')) (hok : o.isOk = true) :
    ∃ members given out outcomes, form.members? value = some members ∧ o.value = .array out ∧
      (form.ground site members).Left check given (form.ordered.drop members.length) outcomes ∧
      out = given ++ trimmed outcomes ∧
      (∀ v ∈ given, v.isDefined = true) ∧
      ((∀ v ∈ out, v.isDefined = true) ↔
        outcomes.Pairwise fun p q => q.value.isDefined = true → p.value.isDefined = true) := by
  unfold base at h
  cases hmembers : form.members? value with
  | none =>
    rw [hmembers] at h
    obtain ⟨rfl, -⟩ := Runs.pure_some h
    exact absurd hok (by simp [Outcome.isOk, Outcome.failure])
  | some members =>
    rw [hmembers] at h
    dsimp only at h
    rw [if_pos (by simp [needsWalk, hsparse])] at h
    obtain ⟨⟨out, reports⟩, w₁, hrun, hpure⟩ := Runs.bind_some h
    obtain ⟨rfl, rfl⟩ := Runs.pure_some hpure
    obtain rfl : reports = [] := List.isEmpty_iff.mp hok
    obtain ⟨given, outcomes, hleft, rfl, hgiven, -⟩ := parts_of_quiet hrun
    have hdefined : ∀ v ∈ given, v.isDefined = true := by
      intro v hv
      have hhole := hgiven v hv
      simpa [Ground.isHole, ground, hsparse] using hhole
    refine ⟨members, given, _, outcomes, rfl, rfl, hleft, rfl, hdefined, ?_⟩
    rw [List.forall_mem_append, forall_trimmed_iff]
    exact ⟨fun h => h.2, fun h => ⟨hdefined, h⟩⟩

/-- A place without a default, then one with. -/
def gappedForm : ArrayForm Schema where
  ordered := [Schema.any, Schema.number.withDefault (.value (.number 7))]

def gappedSite : Site := ⟨{}, Schema.ofForm (.array gappedForm), .root, {}, .undefined⟩

theorem holes_only_among_defaults_gapped :
    ∃ members given out outcomes, gappedForm.members? (.array []) = some members ∧
      Value.array [.undefined, .number 7] = .array out ∧
      (gappedForm.ground gappedSite members).Left (Check.within {} 1) given
        (gappedForm.ordered.drop members.length) outcomes ∧
      out = given ++ trimmed outcomes ∧
      (∀ v ∈ given, v.isDefined = true) ∧
      ((∀ v ∈ out, v.isDefined = true) ↔
        outcomes.Pairwise fun p q => q.value.isDefined = true → p.value.isDefined = true) := by
  have hrun : (gappedForm.base (Check.within {} 1) gappedSite (.array [])).run {} =
      some (⟨.array [.undefined, .number 7], [], false⟩, {}) := by with_unfolding_all rfl
  exact holes_only_among_defaults rfl hrun rfl

end ArrayForm

/-! ### What a missing value is refused for -/

namespace Site

variable {site : Site} {check : Check} {w w' : Workshop} {o : Outcome}

/-- The default cannot be had. -/
def LacksDefault (site : Site) : Prop :=
  site.prefs.noDefaults = false ∧
    ∃ default report, site.node.flags.default = some default ∧
      site.defaultValue default = .error report

/-- Why a node refuses a missing value: a value is asked for and nothing replaces it; or the
default cannot be had; or an object made for it, or it itself where presence is ignored, fails
the checks that follow. -/
def RefusesMissing (site : Site) (check : Check) (w w' : Workshop) : Prop :=
  match site.presence with
  | .required => site.replacement? = none
  | .forbidden => site.LacksDefault
  | .optional =>
    if site.isDeep then ∃ o : Outcome, (site.checkPresent check (.object [])).run w =
      some (o, w') ∧ o.isOk = false
    else site.LacksDefault
  | .ignore =>
    ∃ o : Outcome, (site.checkPresent check .undefined).run w = some (o, w') ∧ o.isOk = false

/-- A missing value without a report is reported only for its default. -/
theorem finish_missing : (site.finish .undefined []).isOk = false ↔ site.LacksDefault := by
  have hreports : (site.finish .undefined []).reports = (site.fillIn .undefined []).2 := rfl
  rw [Outcome.isOk, hreports, fillIn, LacksDefault]
  cases hprefs : site.prefs.noDefaults with
  | true => simp
  | false =>
    rw [if_neg (by simp [Value.isDefined])]
    cases hdefault : site.node.flags.default with
    | none => simp
    | some default =>
      rw [Option.map_some]
      cases hvalue : site.defaultValue default with
      | ok value => simp [hvalue]
      | error report => simp [hvalue]

theorem isDefined_of_replacement {value : Value} (h : site.replacement? = some value) :
    value.isDefined = true := by
  unfold replacement? at h
  split at h
  next v _ =>
    by_cases hdefined : v.isDefined = true
    · rw [if_pos hdefined] at h
      exact Option.some.inj h ▸ hdefined
    · rw [if_neg hdefined] at h
      exact nomatch h
  · exact nomatch h

/-- Reports are not taken back once a value may no longer be replaced. -/
theorem fillIn_prefix (value : Value) (reports : List Report) :
    reports <+: (site.fillIn value reports).2 := by
  unfold fillIn
  split
  · exact List.prefix_rfl
  · split
    · exact List.prefix_rfl
    · exact List.prefix_rfl
    · exact List.prefix_append ..

/-- A missing value with a report passes if it is replaced, and only then. -/
theorem finish_asked (report : Report) :
    (site.finish .undefined [report]).isOk = false ↔ site.replacement? = none := by
  cases hreplacement : site.replacement? with
  | some value =>
    have hrecover : site.recover .undefined [report] = (value, []) := by
      simp [recover, hreplacement]
    have hfill : site.fillIn value [] = (value, []) := by
      simp [fillIn, isDefined_of_replacement hreplacement]
    have hreports : (site.finish .undefined [report]).reports = [] := by
      unfold finish
      rw [hrecover]
      dsimp only
      rw [show site.withOwnMessage value [] = [] from rfl, hfill]
    simp [Outcome.isOk, hreports]
  | none =>
    have hrecover : site.recover .undefined [report] = (.undefined, [report]) := by
      simp [recover, hreplacement]
    obtain ⟨first, hfirst⟩ : ∃ first, site.withOwnMessage .undefined [report] = [first] := by
      unfold withOwnMessage
      split
      · exact ⟨_, rfl⟩
      · exact ⟨report, rfl⟩
    have hreports : [first] <+: (site.finish .undefined [report]).reports := by
      unfold finish
      rw [hrecover]
      dsimp only
      rw [hfirst]
      exact fillIn_prefix ..
    have hsome : (site.finish .undefined [report]).reports ≠ [] := by
      intro hnil
      rw [hnil] at hreports
      exact absurd (List.prefix_nil.mp hreports) (List.cons_ne_nil _ _)
    simp [Outcome.isOk, hsome]

/-- What the check of presence makes of a missing value. -/
theorem checkPresence_missing : site.checkPresence .undefined =
    match site.presence with
    | .required => .error [site.report "any.required" .undefined]
    | .forbidden => .error []
    | .optional => if site.isDeep then .ok (.object []) else .error []
    | .ignore => .ok .undefined := by
  unfold checkPresence
  cases site.presence <;> rfl

/-- A node refuses a missing value for these reasons and for no others. -/
theorem isOk_missing_iff (hmissing : site.input = .undefined)
    (h : (site.run check).run w = some (o, w')) :
    o.isOk = false ↔ site.RefusesMissing check w w' := by
  -- there is nothing to convert, and nothing that counts as empty
  have hconvert : site.convert .undefined = .ok .undefined := by simp [convert, Value.isDefined]
  have hempty : site.dropEmpty check .undefined = pure .undefined := by
    unfold dropEmpty
    split <;> rfl
  -- a node that goes on fails as the rest of the check does
  have hpresent {value : Value} (hrun : (site.checkPresent check value).run w = some (o, w')) :
      o.isOk = false ↔ ∃ o : Outcome, (site.checkPresent check value).run w = some (o, w') ∧
      o.isOk = false := by
    refine ⟨fun hfails => ⟨o, hrun, hfails⟩, fun ⟨p, hrun', hfails⟩ => ?_⟩
    obtain ⟨rfl, -⟩ := Prod.mk.inj (Option.some.inj (hrun.symm.trans hrun'))
    exact hfails
  unfold Site.run at h
  rw [hmissing, hconvert] at h
  dsimp only at h
  rw [hempty, pure_bind, checkPresence_missing] at h
  unfold RefusesMissing
  cases hpresence : site.presence with
  | required =>
    rw [hpresence] at h
    obtain ⟨rfl, rfl⟩ := Runs.pure_some h
    exact finish_asked _
  | forbidden =>
    rw [hpresence] at h
    obtain ⟨rfl, rfl⟩ := Runs.pure_some h
    exact finish_missing
  | optional =>
    rw [hpresence] at h
    -- a deep default stands in for what is missing
    dsimp only at h ⊢
    by_cases hdeep : site.isDeep = true
    · rw [if_pos hdeep] at h ⊢
      exact hpresent h
    · rw [if_neg hdeep] at h ⊢
      obtain ⟨rfl, rfl⟩ := Runs.pure_some h
      exact finish_missing
  | ignore =>
    rw [hpresence] at h
    exact hpresent h

end Site

namespace ArrayForm

theorem Ground.Left.get {g : Ground} {check : Check} {given : List Value} {ordereds : List Schema}
    {outcomes : List Outcome} (h : g.Left check given ordereds outcomes) {k : Nat} {s : Schema}
    (hs : ordereds[k]? = some s) :
    ∃ o w₁ w₂, outcomes[k]? = some o ∧
      (check s .undefined (g.site.behind given k) g.site.prefs).run w₁ = some (o, w₂) := by
  obtain ⟨hlt, rfl⟩ := List.getElem?_eq_some_iff.mp hs
  have hlt' : k < ordereds.zipIdx.length := by rwa [List.length_zipIdx]
  have hlt'' : k < outcomes.length := List.Forall₂.length_eq h ▸ hlt'
  obtain ⟨w₁, w₂, hrun⟩ := List.Forall₂.get h hlt' hlt''
  rw [List.get_eq_getElem, List.getElem_zipIdx, Nat.zero_add] at hrun
  exact ⟨_, w₁, w₂, List.getElem?_eq_getElem hlt'', hrun⟩

/-- The check of a missing value by the schema of a place left. -/
def missing (env : Environment) (site : Site) (given : List Value) (k : Nat)
    (s : Schema) : Site where
  env := env
  schema := s
  position := site.behind given k
  prefs := site.prefs.merged s.node.prefs
  input := .undefined

/-- If the members of an array pass, no place left is marked required. Every place left is checked
with a missing value all the same, and what that is refused for is overlooked. -/
theorem missing_places_overlooked {env : Environment} {inner : Check}
    {form : ArrayForm Schema} {site : Site} {members out : List Value} {w w' : Workshop}
    (h : (form.checkMembers (Check.node env inner) site members).run w = some ((out, []), w')) :
    ∃ (given : List Value) (outcomes : List Outcome), out = given ++ trimmed outcomes ∧
      ∀ k s, form.ordered[members.length + k]? = some s → s.node.flags.presence ≠ some .required ∧
        ∃ o w₁ w₂, outcomes[k]? = some o ∧
          (Check.node env inner s .undefined (site.behind given k) site.prefs).run w₁ =
            some (o, w₂) ∧
          (o.isOk = false ↔ (missing env site given k s).RefusesMissing inner w₁ w₂) := by
  obtain ⟨given, outcomes, hleft, hout, -, hplaces⟩ := parts_of_quiet h
  refine ⟨given, outcomes, hout, ?_⟩
  intro k s hs
  rw [← List.getElem?_drop] at hs
  obtain ⟨o, w₁, w₂, hget, hrun⟩ := hleft.get hs
  refine ⟨hplaces s (List.mem_of_getElem? hs), o, w₁, w₂, hget, hrun, ?_⟩
  have hmissing : (missing env site given k s).input = .undefined := rfl
  exact Site.isOk_missing_iff hmissing hrun

/-- One place, not marked in any way. -/
def plainForm : ArrayForm Schema where
  ordered := [Schema.any]

/-- Where every value is asked for, an array passes whose one place is left. -/
theorem missing_places_overlooked_asked : ∃ o w₁ w₂,
    (Check.node {} (Check.within {} 0) Schema.any .undefined ⟨[.index 0], [.array []]⟩
      { presence := .required }).run w₁ = some (o, w₂) ∧ o.isOk = false := by
  have hrun : (plainForm.checkMembers (Check.node {} (Check.within {} 0))
      ⟨{}, Schema.ofForm (.array plainForm), .root, { presence := .required }, .undefined⟩ []).run
      {} = some (([], []), {}) := by with_unfolding_all rfl
  obtain ⟨given, outcomes, hout, hplaces⟩ := missing_places_overlooked hrun
  obtain ⟨rfl, -⟩ := List.append_eq_nil_iff.mp hout.symm
  obtain ⟨-, o, w₁, w₂, -, hcheck, hrefuses⟩ := hplaces 0 Schema.any rfl
  exact ⟨o, w₁, w₂, hcheck, hrefuses.mpr rfl⟩

end ArrayForm

end Conform
