import Conform.Proofs.ChildOrder
import Conform.Proofs.UnknownKeys
import Conform.Proofs.Whereabouts

/-!
# Keys that are not declared

The keys that an object has after renaming are declared, or a pattern is about them, or they are
unknown. A check that reports nothing went through all phases
(`ObjectForm.checkMembers_passes`), so each undeclared key was held against the patterns, and
the unknown ones were kept, stripped or refused, as the form and the preferences say
(`ObjectForm.UnknownSettled`). What is kept stands as it stood after renaming, and in that
order; that is how it stood in the input unless a rename is about it.

The proof follows the entries under some of the keys through the phases of the check. Those
under keys that are neither declared nor about to be matched are retained by every phase, entry
by entry and in order; the last phase strips them, keeps them or reports them, all of them
alike. So the working copy at the end, looked at under the unknown keys, is either what it was
after renaming or nothing.

That the check reports nothing is used twice. It gives that no phase was ended early, and it gives
that nothing was refused. Some objects say nothing of which keys there may be; their unknown keys
are kept without being looked at, and that case is dealt with by itself (`ObjectForm.IsOpen`).

Main statements: `ObjectForm.unknown_keys_settled`, and `ObjectForm.renamed_key_changes` for a key
whose value in the input is overwritten by a rename.
-/

namespace Conform

namespace Members

variable {α : Type} {members : List (String × α)} {keep : String → Bool}

theorem among_eq_nil_iff : among members keep = [] ↔ ∀ key ∈ keys members, keep key = false := by
  unfold among keys
  rw [List.filter_eq_nil_iff, List.forall_mem_map]
  simp only [Bool.not_eq_true]

end Members

namespace Sweep

variable {check : Check} {site : Site} {patterns : List (KeyPattern Schema)} {p last : ObjectPass}
  {w w' : Workshop} {keys matched left : List String}

/-- Unless the check ends, all keys are looked at. -/
theorem perm (h : Sweep check site patterns p w keys matched left last w')
    (hgoes : last.stopped = false) : keys.Perm (matched ++ left) := by
  induction h with
  | done => exact .refl []
  | ended hp => exact absurd (hp.symm.trans hgoes) (by decide)
  | matched _ _ _ ih => exact (ih hgoes).cons _
  | left _ _ _ ih => exact ((ih hgoes).cons _).trans List.perm_middle.symm

end Sweep

namespace ObjectForm

variable {form : ObjectForm Schema} {check : Check} {site : Site} {members : List (String × Value)}
  {p : ObjectPass} {w w' : Workshop}

/-- Whether a child is declared under the key. -/
def declares (form : ObjectForm Schema) (key : String) : Bool :=
    (form.orderedChildren.map (·.1)).contains key

theorem Ordered.declares_iff (h : form.Ordered) (key : String) :
    form.declares key = true ↔ key ∈ Members.keys form.children := by
  unfold declares
  rw [h.keys_orderedChildren, List.contains_iff_mem, h.mem_order]

/-- The keys under which no child is declared. -/
def undeclared (form : ObjectForm Schema) (members : List (String × Value)) : List String :=
  (Members.keys members).filter fun key => !form.declares key

/-- The working copy after renaming. -/
def renamed (form : ObjectForm Schema) (site : Site)
    (members : List (String × Value)) : ObjectPass :=
  applyRenames site [] { members } form.renames

/-- Neither children nor patterns say which keys there may be. -/
def IsOpen (form : ObjectForm Schema) : Prop := form.keys = none ∧ form.patterns = []

/-! ### Checks that report nothing -/

theorem checkUndeclared_open (hpatterns : form.patterns = []) (hp : p.stopped = false)
    (left keys : List String) :
    form.checkUndeclared check site p left keys = pure (p, left ++ keys) := by
  induction keys generalizing left with
  | nil => rw [List.append_nil]; rfl
  | cons key rest ih =>
    unfold checkUndeclared
    rw [if_neg (by rw [hp]; exact Bool.false_ne_true), hpatterns]
    refine (ih (left ++ [key])).trans ?_
    rw [List.append_assoc, List.singleton_append]

/-- The phases have nothing to do where members need not be looked at. -/
theorem checkMembers_plain (h : form.isPlain = true) :
    form.checkMembers check site members = pure { members } := by
  unfold isPlain at h
  simp only [Bool.and_eq_true, Option.isNone_iff_eq_none, List.isEmpty_iff] at h
  obtain ⟨⟨⟨hkeys, hrenames⟩, hdependencies⟩, hpatterns⟩ := h
  have hchildren : form.orderedChildren = [] := by
    refine List.filterMap_eq_nil_iff.mpr fun key _ => ?_
    unfold children
    rw [hkeys]
    rfl
  have hrun (keys : List String) : form.checkUnknown check site { members } keys =
      pure { members } := by
    unfold checkUnknown
    rw [checkUndeclared_open hpatterns rfl, pure_bind]
    refine congrArg pure ((if_neg Bool.false_ne_true).trans ?_)
    unfold settleUnknown
    rw [hkeys, hpatterns]
    exact if_pos (Bool.or_true _)
  unfold checkMembers checkChildren checkDependencies
  rw [hrenames, hchildren, hdependencies]
  dsimp only [applyRenames, ObjectPass.forEach]
  rw [if_neg Bool.false_ne_true, pure_bind, pure_bind, if_neg Bool.false_ne_true]
  show (do
    let p ← form.checkUnknown check site { members } _
    if p.stopped = true then pure p else pure p : Run ObjectPass) = _
  rw [hrun, pure_bind, ite_self]

/-- An object is checked through all phases, also where this is cut short. -/
theorem base_object : form.base check site (.object members) = do
    let p ← form.checkMembers check site members
    return { value := p.value, reports := p.reports } := by
  unfold base
  dsimp only
  split
  next hplain => rw [checkMembers_plain hplain, pure_bind]; rfl
  next => rfl

/-- A check that was not ended in the end was not ended before. -/
theorem goes_on {q : ObjectPass} {next : Run ObjectPass}
    (hrun : (if q.stopped then pure q else next).run w = some (p, w')) (hgoes : p.stopped = false) :
    q.stopped = false ∧ next.run w = some (p, w') := by
  split at hrun
  next hended =>
    obtain ⟨rfl, -⟩ := Runs.pure_some hrun
    exact absurd (hended.symm.trans hgoes) (by decide)
  next hq => exact ⟨Bool.eq_false_iff.mpr hq, hrun⟩

/-- A check that reports nothing went through all phases. -/
theorem checkMembers_passes (hform : site.node.form = .object form)
    (hrun : (form.checkMembers check site members).run w = some (p, w')) (hok : p.reports = []) :
    ∃ checked w₁ matched unknown swept, (form.renamed site members).stopped = false ∧
      (form.checkChildren check site (form.renamed site members)).run w = some (checked, w₁) ∧
      Sweep check site form.patterns checked w₁
        (form.undeclared (form.renamed site members).members)
        matched unknown swept w' ∧ swept.stopped = false ∧
      (form.settleUnknown site swept unknown).reports = [] ∧
      p = form.checkDependencies site (form.settleUnknown site swept unknown) := by
  -- a check that is ended has something to report
  have hgoes : p.stopped = false := by
    rw [← Bool.not_eq_true]
    exact fun hended => (checkMembers_ended hform hrun hended).2 hok
  obtain ⟨hrenamed, hrun⟩ := goes_on hrun hgoes
  obtain ⟨checked, w₁, hchildren, hrun⟩ := Runs.bind_some hrun
  obtain ⟨-, hrun⟩ := goes_on hrun hgoes
  obtain ⟨settled, w₂, hunknown, hrun⟩ := Runs.bind_some hrun
  obtain ⟨hsettled, hrun⟩ := goes_on hrun hgoes
  obtain ⟨hp, rfl⟩ := Runs.pure_some hrun
  obtain ⟨⟨swept, unknown⟩, w₃, hundeclared, hpure⟩ := Runs.bind_some hunknown
  obtain ⟨hsettle, rfl⟩ := Runs.pure_some hpure
  obtain ⟨matched, left, hleft, hsweep⟩ := Sweep.of_checkUndeclared hundeclared
  obtain rfl : unknown = left := hleft
  dsimp only at hsweep hsettle
  cases hswept : swept.stopped with
  | true =>
    -- what the sweep ended would not be settled, and be ended still
    rw [if_pos hswept] at hsettle
    exact absurd (hsettle ▸ hswept) (by rw [hsettled]; decide)
  | false =>
    rw [if_neg (by rw [hswept]; decide)] at hsettle
    obtain rfl := hsettle
    obtain ⟨new, hreports, -⟩ :=
      checkDependencies_adds (T := fun _ => True) (fun _ _ _ _ => trivial) form
      (form.settleUnknown site swept unknown)
    rw [hp, hok] at hreports
    exact ⟨checked, w₁, matched, unknown, swept, hrenamed, hchildren, hsweep, hswept,
      (List.append_eq_nil_iff.mp hreports.symm).1, hp.symm⟩

theorem members_failEach (p : ObjectPass) (site : Site) (reports : List Report) :
    (p.failEach site reports).members = p.members :=
  ObjectPass.forEach_keeps (Q := fun q => q.members = p.members)
    (fun q report _ hq => (q.members_fail site [report]).trans hq) rfl

theorem members_checkDependencies : (form.checkDependencies site p).members = p.members :=
  ObjectPass.forEach_keeps (Q := fun q => q.members = p.members)
    (fun q d _ hq => (members_failEach q site (dependencyReports site q.value d)).trans hq) rfl

/-! ### Unknown keys -/

/-- What is neither declared nor matched stands as it stood after renaming. -/
theorem retains_sweep {checked swept : ObjectPass} {w₁ : Workshop}
    {keys matched unknown : List String} (hrenamed : (form.renamed site members).stopped = false)
    (hchildren : (form.checkChildren check site (form.renamed site members)).run w =
      some (checked, w₁))
    (hsweep : Sweep check site form.patterns checked w₁ keys matched unknown swept w')
    {keep : String → Bool}
    (hdeclared : ∀ key, form.declares key = true → keep key = false)
    (hmatched : ∀ key ∈ matched, keep key = false) :
    swept.Retains keep (Members.among (form.renamed site members).members keep) := by
  have hstart : (form.renamed site members).Retains keep
      (Members.among (form.renamed site members).members keep) := by
    refine ⟨rfl, ?_⟩
    rw [renamed, stripped_applyRenames]
    exact List.forall_mem_nil _
  refine hsweep.retains
    (retains_checkChildren hstart hrenamed (fun child hchild => hdeclared _ ?_) hchildren) hmatched
  exact List.contains_iff_mem.mpr (List.mem_map_of_mem hchild)

/-- Stripped keys are gone. -/
theorem among_settleUnknown {keys : List String} (hclosed : ¬form.IsOpen)
    (hstrips : ¬form.Spares site) :
    Members.among (form.settleUnknown site p keys).members keys.contains = [] := by
  rw [Members.among_eq_nil_iff]
  unfold settleUnknown
  split
  next hnothing =>
    intro key _
    have hempty : keys = [] := by
      simp only [Bool.or_eq_true, Bool.and_eq_true, List.isEmpty_iff,
        Option.isNone_iff_eq_none] at hnothing
      exact hnothing.resolve_right hclosed
    rw [hempty]
    rfl
  next =>
    unfold Spares at hstrips
    rw [not_or, Bool.not_eq_false] at hstrips
    rw [if_pos (by rw [hstrips.1, Bool.true_and]; exact bne_iff_ne.mpr hstrips.2)]
    intro key hkey
    by_contra hin
    have hgone := ObjectPass.contains_eraseAll keys p
      (.inl (List.contains_iff_mem.mp (Bool.not_eq_false _ ▸ hin)))
    rw [(Members.contains_iff _ _).mpr hkey] at hgone
    exact absurd hgone (by decide)

/-- Keys that are refused are reported. -/
theorem unknown_of_settleUnknown {keys : List String} (hclosed : ¬form.IsOpen)
    (hspares : form.Spares site)
    (hallowed : form.unknown.getD site.prefs.allowUnknown = false) (hgoes : p.stopped = false)
    (hok : (form.settleUnknown site p keys).reports = []) : keys = [] := by
  cases keys with
  | nil => rfl
  | cons key rest =>
    exfalso
    unfold settleUnknown at hok
    rw [if_neg, if_neg, if_neg (by rw [hallowed]; decide)] at hok
    · -- the first key is reported, and what follows takes no report away
      have hadds : ∀ report ∈ rest.map (unknownReport site p), True := fun _ _ => trivial
      obtain ⟨new, hreports, -⟩ :=
        ObjectPass.adds_failEach (p.fail site [unknownReport site p key]) site hadds
      have hfirst : p.failEach site ((key :: rest).map (unknownReport site p)) =
          (p.fail site [unknownReport site p key]).failEach site
          (rest.map (unknownReport site p)) := by
        unfold ObjectPass.failEach
        rw [List.map_cons]
        conv_lhs => unfold ObjectPass.forEach
        rw [if_neg (by rw [hgoes]; decide)]
        rfl
      rw [hfirst, hreports] at hok
      have hone : (p.fail site [unknownReport site p key]).reports ≠ [] :=
        List.append_ne_nil_of_right_ne_nil _ (List.cons_ne_nil _ _)
      exact hone (List.append_eq_nil_iff.mp hok).1
    · -- nothing takes the key away before it is reported
      rcases hspares with hstays | hknown
      · simp [hstays]
      · simp [hknown]
    · -- the object is closed, so the key is no matter of course
      simp only [List.isEmpty_cons, Bool.false_or, Bool.and_eq_true,
        Option.isNone_iff_eq_none, List.isEmpty_iff]
      exact hclosed

section Settling

variable {checked swept : ObjectPass} {w₁ : Workshop} {matched unknown : List String}
  (hrenamed : (form.renamed site members).stopped = false)
  (hchildren : (form.checkChildren check site (form.renamed site members)).run w =
    some (checked, w₁))
  (hsweep : Sweep check site form.patterns checked w₁
    (form.undeclared (form.renamed site members).members)
    matched unknown swept w')

include hrenamed hchildren hsweep

/-- Unknown keys that may be there stand as they stood after renaming. -/
theorem among_settled (hdeclared : ∀ key, form.declares key = true → unknown.contains key = false)
    (hapart : ∀ key ∈ matched, unknown.contains key = false)
    (hmay : form.IsOpen ∨ form.Spares site) :
    Members.among (form.settleUnknown site swept unknown).members unknown.contains =
      Members.among (form.renamed site members).members unknown.contains := by
  have hretains := retains_sweep hrenamed hchildren hsweep hdeclared hapart
  rcases hmay with hopen | hspares
  · unfold settleUnknown
    rw [if_pos (by simp [hopen.1, hopen.2])]
    exact hretains.entries
  · exact (retains_settleUnknown hretains (.inl hspares)).entries

/-- Under a key that is neither declared nor among those swept there is nothing. -/
theorem keys_settled (hgoes : swept.stopped = false) {key : String}
    (hkey : key ∈ Members.keys (form.settleUnknown site swept unknown).members) :
    form.declares key = true ∨ key ∈ matched ∨ key ∈ unknown := by
  -- under all these other keys there is nothing after renaming, and nothing is written
  let other (key : String) : Bool := !(form.declares key || (matched ++ unknown).contains key)
  have hother {key : String} (h : form.declares key = true ∨ key ∈ matched ++ unknown) :
      other key = false := by
    rw [Bool.not_eq_false', Bool.or_eq_true, List.contains_iff_mem]
    exact h
  have hnone : Members.among (form.renamed site members).members other = [] := by
    refine Members.among_eq_nil_iff.mpr fun key hkey => hother ?_
    cases hdeclares : form.declares key with
    | true => exact .inl rfl
    | false =>
      exact .inr
        ((hsweep.perm hgoes).mem_iff.mp (List.mem_filter.mpr ⟨hkey, by rw [hdeclares]; rfl⟩))
  have hretains : swept.Retains other (Members.among (form.renamed site members).members other) :=
    retains_sweep hrenamed hchildren hsweep (fun key h => hother (.inl h))
      fun key h => hother (.inr (List.mem_append_left _ h))
  rw [hnone] at hretains
  have hsettle : (form.settleUnknown site swept unknown).Retains other [] :=
    retains_settleUnknown hretains (.inr fun key h => hother (.inr (List.mem_append_right _ h)))
  have hfalse := Members.among_eq_nil_iff.mp hsettle.entries key hkey
  rwa [Bool.not_eq_false', Bool.or_eq_true, List.contains_iff_mem, List.mem_append] at hfalse

end Settling

/-- What became of the keys that are not declared, in a check that reports nothing: `matched` are
those that a pattern is about, `unknown` all others. -/
structure UnknownSettled (form : ObjectForm Schema) (check : Check) (site : Site)
    (members out : List (String × Value)) (w : Workshop)
    (matched unknown : List String) : Prop where
  /-- They are told apart after renaming, once the declared children are checked. -/
  swept : ∃ checked w₁ last w₂,
    (form.checkChildren check site (form.renamed site members)).run w = some (checked, w₁) ∧
      Sweep check site form.patterns checked w₁
      (form.undeclared (form.renamed site members).members) matched unknown last w₂
  all : (form.undeclared (form.renamed site members).members).Perm (matched ++ unknown)
  /-- They may be there: all of them are, in their order, with their values. -/
  kept : form.IsOpen ∨ form.Spares site ∧ form.unknown.getD site.prefs.allowUnknown = true →
    Members.among out unknown.contains =
      Members.among (form.renamed site members).members unknown.contains ∧
    ∀ key ∈ unknown, ∃ value, Members.get? out key = some value ∧
      Members.get? (form.renamed site members).members key = some value
  /-- They are to be stripped: none of them is there. -/
  stripped : ¬form.IsOpen → ¬form.Spares site → ∀ key ∈ unknown, key ∉ Members.keys out
  /-- They may not be there: there are none. -/
  refused : ¬form.IsOpen → form.Spares site →
    form.unknown.getD site.prefs.allowUnknown = false → unknown = []
  nothingElse : ∀ key ∈ Members.keys out, form.declares key = true ∨ key ∈ matched ∨ key ∈ unknown

theorem checkMembers_settled (hform : site.node.form = .object form)
    (hmembers : Members.Distinct members)
    (hrun : (form.checkMembers check site members).run w = some (p, w')) (hok : p.reports = []) :
    ∃ matched unknown, form.UnknownSettled check site members p.members w matched unknown := by
  obtain ⟨checked, w₁, matched, unknown, swept, hrenamed, hchildren, hsweep,
      hswept, hsettled, rfl⟩ :=
    checkMembers_passes hform hrun hok
  -- keys are distinct, so none is both matched and unknown
  have hperm := hsweep.perm hswept
  have hdistinct : (matched ++ unknown).Nodup := by
    refine hperm.nodup_iff.mp (List.Nodup.filter _ ?_)
    exact distinct_applyRenames site form.renames [] hmembers
  have hapart (key : String) (hkey : key ∈ matched) : unknown.contains key = false := by
    rw [← Bool.not_eq_true, List.contains_iff_mem]
    exact fun hin => (List.nodup_append.mp hdistinct).2.2 key hkey key hin rfl
  have hin (key : String) (hkey : key ∈ unknown) :
      key ∈ Members.keys (form.renamed site members).members ∧ form.declares key = false := by
    have hundeclared := hperm.mem_iff.mpr (List.mem_append_right matched hkey)
    rwa [undeclared, List.mem_filter, Bool.not_eq_true'] at hundeclared
  have hdeclared (key : String) (hkey : form.declares key = true) :
      unknown.contains key = false := by
    rw [← Bool.not_eq_true, List.contains_iff_mem]
    exact fun hunknown => absurd (hkey.symm.trans (hin key hunknown).2) (by decide)
  rw [members_checkDependencies]
  refine ⟨matched, unknown, ⟨checked, w₁, swept, w', hchildren, hsweep⟩, hperm, fun hmay => ?_,
    fun hclosed hstrips key hkey hout => ?_, fun hclosed hspares hallowed =>
    unknown_of_settleUnknown hclosed hspares hallowed hswept hsettled,
    fun key hkey => keys_settled hrenamed hchildren hsweep hswept hkey⟩
  · have hall := among_settled hrenamed hchildren hsweep hdeclared hapart (hmay.imp_right And.left)
    refine ⟨hall, fun key hkey => ?_⟩
    have hkeep : unknown.contains key = true := List.contains_iff_mem.mpr hkey
    obtain ⟨value, hvalue⟩ :=
      Option.isSome_iff_exists.mp ((Members.contains_iff _ _).mpr (hin key hkey).1)
    refine ⟨value, ?_, hvalue⟩
    rw [← Members.get?_among hkeep, hall, Members.get?_among hkeep]
    exact hvalue
  · have hnone :=
      Members.among_eq_nil_iff.mp (among_settleUnknown (p := swept) hclosed hstrips) key hout
    exact absurd (hnone.symm.trans (List.contains_iff_mem.mpr hkey)) (by decide)

/-- In an object whose check reports nothing, the keys that are not declared are told apart after
renaming: those that a pattern is about, and the unknown ones, which are kept as they stand,
stripped, or not there. No other key comes of the check. Renaming leaves alone, in their order, the
members that no rename is about. -/
theorem unknown_keys_settled {o : Outcome} (hform : site.node.form = .object form)
    (hmembers : Members.Distinct members)
    (hrun : (form.base check site (.object members)).run w = some (o, w'))
    (hok : o.reports = []) :
    ∃ out matched unknown, o.value = .object out ∧
      form.UnknownSettled check site members out w matched unknown ∧
      (∀ keep, (∀ r ∈ form.renames, keep r.source = false ∧ keep r.target = false) →
        Members.among (form.renamed site members).members keep = Members.among members keep) ∧
      (form.Ordered → ∀ key, form.declares key = true ↔ key ∈ Members.keys form.children) := by
  rw [base_object] at hrun
  obtain ⟨p, w₁, hphases, hpure⟩ := Runs.bind_some hrun
  obtain ⟨rfl, -⟩ := Runs.pure_some hpure
  obtain ⟨matched, unknown, hsettled⟩ := checkMembers_settled hform hmembers hphases hok
  exact ⟨p.members, matched, unknown, rfl, hsettled,
    fun keep hkeep => among_applyRenames site form.renames [] { members } hkeep, fun h =>
    h.declares_iff⟩


/-- An object of one key that renames another, and takes everything that a text names. -/
def sparseForm : ObjectForm Schema where
  keys := some [("a", Schema.any)]
  order := ["a"]
  renames := [⟨"old", "new", {}⟩]
  patterns := [⟨.schema (Schema.any.valid [.literal (.string "x")]), Schema.any⟩]

/-- What it checks, of which `old` is renamed, and `b` unknown. -/
def sparseMembers : List (String × Value) :=
    [("old", .null), ("x", .bool true), ("a", .bool false), ("b", .null)]

/-- Where it is checked, to strip what is unknown. -/
def sparseSite : Site :=
  ⟨{}, Schema.ofForm (.object sparseForm), .root, { stripUnknown := { objects := true } },
    .object sparseMembers⟩

theorem unknown_keys_settled_sparse :
    Members.Distinct sparseMembers ∧
    (sparseForm.base (Check.within {} 1) sparseSite (.object sparseMembers)).run {} =
      some ({ value := .object [("x", .bool true), ("a", .bool false)] }, {}) ∧
    ∃ matched unknown, sparseForm.UnknownSettled (Check.within {} 1) sparseSite sparseMembers
      [("x", .bool true), ("a", .bool false)] {} matched unknown := by
  have hform : sparseSite.node.form = .object sparseForm := rfl
  have hmembers : Members.Distinct sparseMembers := by
    unfold Members.Distinct
    decide
  have hrun : (sparseForm.base (Check.within {} 1) sparseSite (.object sparseMembers)).run {} =
      some ({ value := .object [("x", .bool true), ("a", .bool false)] }, {}) := rfl
  obtain ⟨out, matched, unknown, hout, hsettled, -⟩ := unknown_keys_settled hform hmembers hrun rfl
  obtain rfl := Value.object.inj hout
  exact ⟨hmembers, hrun, matched, unknown, hsettled⟩

/-- An object without keys or patterns, of which one member may be renamed over another. -/
def overridingForm : ObjectForm Schema where
  renames := [⟨"a", "b", { override := true }⟩]

/-- The member renamed over an undeclared key takes the place of its value. -/
theorem renamed_key_changes :
    overridingForm.IsOpen ∧ overridingForm.declares "b" = false ∧
    ∃ members out, Members.Distinct members ∧
      (overridingForm.base (Check.within {} 1)
        ⟨{}, Schema.ofForm (.object overridingForm), .root, {}, .object members⟩
        (.object members)).run {} = some ({ value := .object out }, {}) ∧
      Members.get? members "b" = some (.number 2) ∧ Members.get? out "b" = some (.number 1) :=
  ⟨⟨rfl, rfl⟩, rfl, [("a", .number 1), ("b", .number 2)], [("b", .number 1)],
    by unfold Members.Distinct; decide, rfl, rfl, rfl⟩

end ObjectForm

end Conform
