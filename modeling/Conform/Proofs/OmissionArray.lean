import Conform.Proofs.OmissionObject

/-!
# Arrays with something left out

The walk over the members of an array, by the array's schemas and by those without. Presence and
stamps are left where they are, so the same schemas are required, and a failure is recalled for the
same ones. The two walks are of the same values, and they report on the same occasions
(`ArrayForm.Walk.Echoes`), of which alone it is asked whether the walk is ended.

The relation of walks has the outputs and the places in common, the required items left on one side
without what is left out on the other, and reports that echo each other. What was recalled as a
failure is related as well (`Echoing`): under one number there are outcomes that echo each other, so
they are both failures, and it does not matter that they were made of different reports. A step of
the walk asks of an outcome whether it passed, what its value is and whether it is to be stripped,
and all three are the same for outcomes that echo each other.

From there the lemmas go through the step: holes, forbidden items, places, required items,
the other items. They hold of any inner checks that echo each other where the node hands
values on (`Site.Omits`), and any workshops that stand beside each other, since lazy items
make their schemas on both sides.
-/

namespace Conform.ArrayForm

variable {o : Omission}

/-! ### Schemas of an array -/

/-- Presence and stamps stay, so the same items are required and known as copies. -/
theorem keepsChoice_without (o : Omission) : KeepsChoice (Schema.without o) where
  presence := fun s => by
    rw [Schema.without_eq]
    rfl
  exclusion := fun s => by
    rw [Schema.without_eq, Schema.without_eq o (s.updateFlags _)]
    rfl

/-- Copies are still known as copies. -/
theorem isSame_without (s t : Schema) : (s.without o).isSame (t.without o) = s.isSame t := by
  unfold Schema.isSame
  rw [Schema.without_eq, Schema.without_eq o t]

/-- Numbers are places, which stay. -/
theorem numberedRequireds_without (form : ArrayForm Schema) :
    (form.map (Schema.without o)).numberedRequireds =
      form.numberedRequireds.map fun x => (x.1, x.2.without o) := by
  have hsame (s : Schema) : (s.without o).isSame ∘ Schema.without o = s.isSame :=
    funext fun t => isSame_without s t
  unfold numberedRequireds
  dsimp only
  rw [(keepsChoice_without o).requireds_map, List.zipIdx_map, List.map_map, List.map_map]
  refine List.map_congr_left fun x _ => ?_
  show (((form.requireds.map (Schema.without o)).findIdx? (x.1.without o).isSame).getD x.2,
    x.1.without o) = _
  rw [List.findIdx?_map, hsame]
  rfl

/-! ### The walk -/

/-- Two walks over the same values by the array's own schemas, which have reported
on the same occasions. -/
structure Walk.Echoes (o : Omission) (form : ArrayForm Schema) (a b : Walk) : Prop where
  requireds : b.requireds = a.requireds.map fun x => (x.1, x.2.without o)
  numbered : ∀ x ∈ a.requireds, x ∈ form.numberedRequireds
  ordereds : b.ordereds = a.ordereds.map (Schema.without o)
  listed : ∀ t ∈ a.ordereds, t ∈ form.ordered
  out : b.out = a.out
  reports : o.Echoes a.reports b.reports

/-- What a member does to two such walks. -/
inductive Step.Echoes (o : Omission) (form : ArrayForm Schema) : Step → Step → Prop
  | next {a b : Walk} : a.Echoes o form b → Step.Echoes o form (.next a) (.next b)
  | finish {a b : Walk} : a.Echoes o form b → Step.Echoes o form (.finish a) (.finish b)
  | abort {xs ys : List Report} : o.Echoes xs ys → Step.Echoes o form (.abort xs) (.abort ys)

namespace Walk.Echoes

variable {form : ArrayForm Schema} {a b : Walk}

/-- Both walks put out the same values. -/
theorem push (h : a.Echoes o form b) (values : List Value) :
    Walk.Echoes o form { a with out := a.out ++ values } { b with out := b.out ++ values } :=
  ⟨h.requireds, h.numbered, h.ordereds, h.listed, congrArg (· ++ values) h.out, h.reports⟩

/-- Both walks report, or neither does. -/
theorem report (h : a.Echoes o form b) {xs ys : List Report} (hxs : o.Echoes xs ys) :
    Walk.Echoes o form { a with reports := a.reports ++ xs }
      { b with reports := b.reports ++ ys } :=
  ⟨h.requireds, h.numbered, h.ordereds, h.listed, h.out, h.reports.append hxs⟩

/-- Both walks use up a place. -/
theorem tail (h : a.Echoes o form b) :
    Walk.Echoes o form { a with ordereds := a.ordereds.tail }
      { b with ordereds := b.ordereds.tail } := by
  refine ⟨h.requireds, h.numbered, ?_,
    fun t ht => h.listed t (List.mem_of_mem_tail ht), h.out, h.reports⟩
  dsimp only
  rw [h.ordereds, List.map_tail]

end Walk.Echoes

/-- Failures with their numbers, by the schemas and by those without. -/
def Echoing (o : Omission) : List (Nat × Outcome) → List (Nat × Outcome) → Prop :=
  List.Forall₂ fun x y => y.1 = x.1 ∧ Outcome.Echoes o x.2 y.2

namespace Ground

variable {g : Ground} {check check' : Check} {a b : Walk}

/-- The same ground, with something left out of its schemas. -/
def without (o : Omission) (g : Ground) : Ground :=
    ⟨g.site.without o, g.form.map (Schema.without o), g.parent⟩

/-- Holes are the same. -/
theorem isHole_without : (g.without o).isHole = g.isHole := rfl

/-- A report on a member echoes the one without what is left out. -/
theorem memberReport_echoes (code : String) (i : Nat) (member : Value)
    (context : List (String × Value)) :
    o.Echoes [g.memberReport code i member context]
      [(g.without o).memberReport code i member context] :=
  .one fun ho => congrFun (congrFun (congrFun (reportAt_congr (Site.label_without ho) rfl) _) _) _

/-- A failure ends both walks, or both go on. -/
theorem fail_echoes (hw : a.Echoes o g.form b) {xs ys : List Report} (hxs : o.Echoes xs ys)
    {goOn goOn' : Walk → Step}
    (hgo : ∀ a b : Walk, a.Echoes o g.form b → Step.Echoes o g.form (goOn a) (goOn' b)) :
    Step.Echoes o g.form (g.fail a xs goOn) ((g.without o).fail b ys goOn') := by
  have hearly : (g.without o).site.prefs.abortEarly = g.site.prefs.abortEarly := rfl
  have hreport := hw.report hxs
  unfold Ground.fail
  rw [hearly]
  split
  · exact .abort hreport.reports
  · exact hgo _ _ hreport

/-- What comes of a member that an item accepts is the same. -/
theorem takeIncluded_echoes (hw : a.Echoes o g.form b) (i : Nat) {x y : Outcome}
    (hxy : Outcome.Echoes o x y) :
    Step.Echoes o g.form (g.takeIncluded a i x) ((g.without o).takeIncluded b i y) := by
  unfold Ground.takeIncluded
  rw [isHole_without, hxy.value, hxy.strip]
  split
  · exact .next hw
  · split
    · exact fail_echoes hw (memberReport_echoes ..) fun _ _ => .next
    · exact .next (hw.push _)

theorem takeRequired_echoes (hw : a.Echoes o g.form b) (i : Nat) {x y : Outcome}
    (hxy : Outcome.Echoes o x y) :
    Step.Echoes o g.form (g.takeRequired a i x) ((g.without o).takeRequired b i y) := by
  unfold Ground.takeRequired
  rw [isHole_without, hxy.value]
  dsimp only
  split
  · exact fail_echoes hw (memberReport_echoes ..) fun _ _ hw => .next (hw.push _)
  · exact .next (hw.push _)

/-- What comes of a member at its place is the same. -/
theorem takeOrdered_echoes (hw : a.Echoes o g.form b) (i : Nat) {x y : Outcome}
    (hxy : Outcome.Echoes o x y) :
    Step.Echoes o g.form (g.takeOrdered a i x) ((g.without o).takeOrdered b i y) := by
  unfold Ground.takeOrdered
  rw [isHole_without, hxy.value, hxy.strip, hxy.isOk]
  split
  · exact fail_echoes hw hxy.reports fun _ _ hw => .next (hw.push _)
  · split
    · exact .next hw
    · split
      · exact fail_echoes hw (memberReport_echoes ..) fun _ _ => .next
      · exact .next (hw.push _)

/-! ### Trying schemas -/

/-- What came of trying the required schemas. -/
inductive Tried.Echoes (o : Omission) : Tried → Tried → Prop
  | matched {a b : Outcome} (left : List (Nat × Schema)) : Outcome.Echoes o a b →
      Tried.Echoes o (.matched a left) (.matched b (left.map fun x => (x.1, x.2.without o)))
  | failed {failed failed' : List (Nat × Outcome)} : Echoing o failed failed' →
      Tried.Echoes o (.failed failed) (.failed failed')

variable (h : g.site.Omits o check check')

include h

/-- A member is excluded in both walks or in neither. -/
theorem isExcluded_echoes (i : Nat) (member : Value) {exclusions : List Schema}
    (hin : ∀ s ∈ exclusions, s.Throughout g.site.env (Schema.Admits o)) :
    Lockstep (o.Beside g.site.env) Eq (g.isExcluded check i member exclusions)
      ((g.without o).isExcluded check' i member (exclusions.map (Schema.without o))) :=
  isExcluded_lockstep fun s hs => (h.inner s (hin s hs)).passes member (g.position i) h.prefs

variable (hform : g.site.node.form = .array g.form)

include hform

/-- Required items are tried in step: both match the same one, or recall failures
that echo each other. -/
theorem tryRequireds_echoes (i : Nat) (member : Value) {before pending : List (Nat × Schema)}
    {failed failed' : List (Nat × Outcome)} (hfailed : Echoing o failed failed')
    (hbefore : ∀ x ∈ before, x ∈ g.form.numberedRequireds)
    (hpending : ∀ x ∈ pending, x ∈ g.form.numberedRequireds) :
    Lockstep (o.Beside g.site.env)
      (fun x y => Tried.Echoes o x y ∧ ∀ a left, x = .matched a left →
        ∀ x ∈ left, x ∈ g.form.numberedRequireds)
      (g.tryRequireds check i member before failed pending)
      ((g.without o).tryRequireds check' i member (before.map fun x => (x.1, x.2.without o)) failed'
        (pending.map fun x => (x.1, x.2.without o))) := by
  induction pending generalizing before failed failed' with
  | nil => exact .pure ⟨.failed hfailed, fun _ _ hnever => absurd hnever (by simp)⟩
  | cons x rest ih =>
    have hx := hpending x (List.mem_cons_self ..)
    have hrest : ∀ x ∈ rest, x ∈ g.form.numberedRequireds :=
      fun x hx => hpending x (List.mem_cons_of_mem _ hx)
    rw [List.map_cons]
    unfold tryRequireds
    refine (h.visited (visited_of_numbered hform hx) member (g.position i)).bind fun y y' hyy => ?_
    -- the tried schema matches in both, or fails in both and is put aside
    rw [hyy.isOk]
    split
    · rw [← List.map_append]
      refine .pure ⟨.matched _ hyy, fun a left heq x hx => ?_⟩
      obtain ⟨rfl, rfl⟩ := Tried.matched.inj heq
      exact (List.mem_append.mp hx).elim (hbefore x) (hrest x)
    · have hadded : Echoing o (failed ++ [(x.1, y)]) (failed' ++ [(x.1, y')]) :=
        List.rel_append hfailed (.cons ⟨rfl, hyy⟩ .nil)
      have hbefore := List.forall_mem_append.mpr ⟨hbefore, List.forall_mem_singleton.mpr hx⟩
      have hnext := ih hadded hbefore hrest
      rw [List.map_append] at hnext
      exact hnext

/-- A candidate's outcome is recalled on both sides or tried on both. -/
theorem outcome_echoes {i : Nat} {member : Value} {failed failed' : List (Nat × Outcome)}
    (hfailed : Echoing o failed failed') {c : Option Nat × Schema} (hc : c ∈ g.candidates) :
    Lockstep (o.Beside g.site.env) (Outcome.Echoes o) (g.outcome check i member failed c.1 c.2)
      ((g.without o).outcome check' i member failed' c.1 (c.2.without o)) := by
  have hfresh := h.visited (visited_of_candidates hform hc) member (g.position i)
  unfold Ground.outcome
  cases c.1 with
  | none => exact hfresh
  | some n =>
    -- a failure is recalled on both sides or on neither
    have hlook : Option.Rel (Outcome.Echoes o) (failed.lookup n) (failed'.lookup n) :=
      lookup_related hfailed n
    dsimp only [Option.bind]
    revert hlook
    generalize failed.lookup n = x
    generalize failed'.lookup n = y
    rintro (hxy | _)
    · exact .pure hxy
    · exact hfresh

/-- The other items are tried in step. -/
theorem tryInclusions_echoes (i : Nat) (member : Value) {failed failed' : List (Nat × Outcome)}
    (hfailed : Echoing o failed failed') {candidates : List (Option Nat × Schema)}
    (hin : ∀ c ∈ candidates, c ∈ g.candidates) :
    Lockstep (o.Beside g.site.env)
      (fun r r' => Option.Rel (Outcome.Echoes o) r.1 r'.1 ∧ Outcome.Echoes o r.2 r'.2)
      (g.tryInclusions check i member failed candidates)
      ((g.without o).tryInclusions check' i member failed'
        (candidates.map fun c => (c.1, c.2.without o))) := by
  induction candidates with
  | nil => exact .pure ⟨.none, .refl _⟩
  | cons c rest ih =>
    have hlast : (rest.map fun c : Option Nat × Schema => (c.1, c.2.without o)).isEmpty =
        rest.isEmpty :=
      List.isEmpty_map
    rw [List.map_cons]
    unfold tryInclusions
    refine (outcome_echoes h hform hfailed (hin c (List.mem_cons_self ..))).bind fun x y hxy => ?_
    rw [hxy.isOk, hlast]
    split
    · exact .pure ⟨.some hxy, hxy⟩
    · split
      · exact .pure ⟨.none, hxy⟩
      · exact ih fun c hc => hin c (List.mem_cons_of_mem _ hc)

omit h hform in
theorem candidates_without : (g.without o).candidates = g.candidates.map fun c =>
    (c.1, c.2.without o) := by
  unfold candidates
  show (g.form.map (Schema.without o)).inclusions.map _ ++
    (g.form.map (Schema.without o)).numberedRequireds.map _ = _
  rw [(keepsChoice_without o).inclusions_map, numberedRequireds_without,
    List.map_append, List.map_map, List.map_map, List.map_map, List.map_map]
  rfl

/-- A member that no required item took is included in both walks or in neither. -/
theorem includeMember_echoes (hw : a.Echoes o g.form b) (i : Nat) (member : Value)
    {failed failed' : List (Nat × Outcome)} (hfailed : Echoing o failed failed') :
    Lockstep (o.Beside g.site.env) (Step.Echoes o g.form)
      (g.includeMember check a i member failed)
        ((g.without o).includeMember check' b i member failed') := by
  have hnone : (g.candidates.map fun c => (c.1, c.2.without o)).isEmpty = g.candidates.isEmpty :=
    List.isEmpty_map
  have hstrip : (g.without o).site.prefs.stripUnknown = g.site.prefs.stripUnknown := rfl
  have hkeep (a b : Walk) (hw : a.Echoes o g.form b) :
      Step.Echoes o g.form (.next { a with out := a.out ++ [member] })
      (.next { b with out := b.out ++ [member] }) :=
    .next (hw.push _)
  unfold includeMember
  dsimp only
  rw [candidates_without, hnone, hstrip, List.length_map]
  -- no candidates: the member is kept as it is
  split
  · exact .pure (hkeep a b hw)
  · refine (tryInclusions_echoes h hform i member hfailed fun _ hc => hc).bind ?_
    rintro ⟨found, last⟩ ⟨found', last'⟩ ⟨hfound, hlast⟩
    dsimp only at hfound hlast ⊢
    cases hfound with
    | some hxy => exact .pure (takeIncluded_echoes hw i hxy)
    | none =>
      dsimp only
      -- an unfitting member may be dropped
      split
      · exact .pure (.next hw)
      · split
        · exact .pure (fail_echoes hw hlast.reports hkeep)
        · exact .pure (fail_echoes hw (memberReport_echoes ..) hkeep)

/-- A member behind the last place is matched in step. -/
theorem placeMember_echoes (hw : a.Echoes o g.form b) (i : Nat) (member : Value) :
    Lockstep (o.Beside g.site.env) (Step.Echoes o g.form)
      (g.placeMember check a i member) ((g.without o).placeMember check' b i member) := by
  unfold placeMember
  rw [hw.requireds]
  have hnothing : ∀ x ∈ ([] : List (Nat × Schema)), x ∈ g.form.numberedRequireds :=
    List.forall_mem_nil _
  refine (tryRequireds_echoes h hform i member .nil hnothing hw.numbered).bind ?_
  rintro tried tried' ⟨htried, hleft⟩
  cases htried with
  | matched left hxy =>
    have hw : Walk.Echoes o g.form { a with requireds := left }
        { b with requireds := left.map fun x => (x.1, x.2.without o) } :=
      ⟨rfl, hleft _ left rfl, hw.ordereds, hw.listed, hw.out, hw.reports⟩
    exact .pure (takeRequired_echoes hw i hxy)
  | failed hfailed => exact includeMember_echoes h hform hw i member hfailed

/-- One step of the walk, by its parts. -/
theorem step_echoes (hw : a.Echoes o g.form b) (i : Nat) (member : Value) (rest : List Value) :
    Lockstep (o.Beside g.site.env) (Step.Echoes o g.form)
      (g.step check a i member rest) ((g.without o).step check' b i member rest) := by
  have hordered : (g.form.map (Schema.without o)).ordered.isEmpty = g.form.ordered.isEmpty :=
    List.isEmpty_map
  have hitems : (g.form.map (Schema.without o)).items.isEmpty = g.form.items.isEmpty :=
    List.isEmpty_map
  have hlength : (g.form.map (Schema.without o)).ordered.length = g.form.ordered.length :=
    List.length_map _
  have hform' : (g.without o).form = g.form.map (Schema.without o) := rfl
  have hexclusions : ∀ s ∈ g.form.exclusions,
      s.Throughout g.site.env (Schema.Admits o) := fun s hs =>
    throughout_of_exclusion (fun _ h => h) h.throughout hform hs
  unfold step
  dsimp only
  rw [isHole_without, hform', (keepsChoice_without o).exclusions_map, hordered, hitems, hlength]
  -- a hole is reported by both, each in its words
  split
  · exact .pure (fail_echoes hw (memberReport_echoes ..) fun _ _ hw => .next hw.tail)
  · refine (isExcluded_echoes h i member hexclusions).bind ?_
    rintro excluded _ rfl
    split
    · exact .pure (fail_echoes hw (memberReport_echoes ..) fun _ _ hw => .next hw.tail)
    · split
      · exact placeMember_echoes h hform hw i member
      · rw [hw.ordereds]
        cases hordereds : a.ordereds with
        | cons s ordereds =>
          -- a place in order remains for the member
          have hs := hw.listed
          rw [hordereds] at hs
          have hw : Walk.Echoes o g.form { a with ordereds }
              { b with ordereds := ordereds.map (Schema.without o) } :=
            ⟨hw.requireds, hw.numbered, rfl,
              fun t ht => hs t (List.mem_cons_of_mem _ ht), hw.out, hw.reports⟩
          have hvisited :=
            visited_of_items hform (List.mem_append_right _ (hs s (List.mem_cons_self ..)))
          refine (h.visited hvisited member (g.position i)).bind fun x y hxy => ?_
          exact .pure (takeOrdered_echoes hw i hxy)
        | nil =>
          dsimp only [List.map_nil]
          split
          · exact .pure (fail_echoes hw (memberReport_echoes ..) fun _ _ hw => .finish (hw.push _))
          · exact placeMember_echoes h hform hw i member

/-- Both walks come to the end, or both are ended by reports. -/
inductive Ended (o : Omission) (form : ArrayForm Schema) :
    Except (List Report) Walk → Except (List Report) Walk → Prop
  | ok {a b : Walk} : a.Echoes o form b → Ended o form (.ok a) (.ok b)
  | error {xs ys : List Report} : o.Echoes xs ys → Ended o form (.error xs) (.error ys)

/-- The walk over all members, by induction on them. -/
theorem walk_echoes (hw : a.Echoes o g.form b) (i : Nat) (members : List Value) :
    Lockstep (o.Beside g.site.env) (Ended o g.form)
      (g.walk check a i members) ((g.without o).walk check' b i members) := by
  induction members generalizing a b i with
  | nil => exact .pure (.ok hw)
  | cons member rest ih =>
    unfold Ground.walk
    refine (step_echoes h hform hw i member rest).bind ?_
    rintro x y hstep
    cases hstep with
    | next hw => exact ih hw (i + 1)
    | finish hw => exact .pure (.ok hw)
    | abort hreports => exact .pure (.error hreports)

/-! ### The end of the walk -/

omit h hform in
/-- Schemas that were missed are reported in both. -/
theorem missedReports_echoes (site : Site) (value : Value) (missed : List Schema) :
    o.Echoes (missedReports site value missed)
      (missedReports (site.without o) value (missed.map (Schema.without o))) := by
  unfold missedReports
  rw [List.isEmpty_map]
  split
  · exact .refl []
  · -- labels make one of three reports, but one in any case
    refine .one fun ho => ?_
    have hlabels : (missed.map (Schema.without o)).filterMap
        (fun s => s.node.flags.label.map Value.string) =
        missed.filterMap fun s => s.node.flags.label.map Value.string := by
      rw [List.filterMap_map]
      congr 1
      funext s
      exact congrArg (Option.map Value.string) (Schema.label_without ho s)
    unfold missedReport
    rw [hlabels, List.length_map, Site.report_without ho]

omit h hform in
/-- The reports at the end echo each other. -/
theorem reports_echoes (hw : a.Echoes o g.form b) :
    o.Echoes (g.reports a) ((g.without o).reports b) := by
  have hmissing :=
    (keepsChoice_without o).filter_presence (fun presence => decide (presence = some .required))
    a.ordereds
  have hpending : b.requireds.map (·.2) = (a.requireds.map (·.2)).map (Schema.without o) := by
    rw [hw.requireds, List.map_map, List.map_map]
    rfl
  unfold Ground.reports
  dsimp only
  rw [hw.ordereds, hw.out, hpending, hmissing]
  exact (hw.reports.append (missedReports_echoes ..)).append (missedReports_echoes ..)

/-- Places that no member reached are filled alike. -/
theorem defaultsFromEnd_echoes {places : List (Schema × Nat)}
    (hplaces : ∀ place ∈ places, place.1 ∈ g.form.ordered) (size : Nat) (parent : Value) :
    Lockstep (o.Beside g.site.env) Eq (g.defaultsFromEnd check size parent places)
      ((g.without o).defaultsFromEnd check' size parent
        (places.map fun place => (place.1.without o, place.2))) := by
  induction places with
  | nil => exact .pure rfl
  | cons place before ih =>
    have hvisited :=
      visited_of_items hform (List.mem_append_right _ (hplaces _ (List.mem_cons_self ..)))
    rw [List.map_cons]
    unfold defaultsFromEnd
    refine (h.visited hvisited .undefined _).bind fun x y hxy => ?_
    refine (ih fun place hplace => hplaces place (List.mem_cons_of_mem _ hplace)).bind ?_
    rintro values _ rfl
    rw [hxy.value]
    exact .pure rfl

/-- The end of the walk: reports on what was missed, and the same defaults. -/
theorem close_echoes (hw : a.Echoes o g.form b) :
    Lockstep (o.Beside g.site.env) (fun r r' => r'.1 = r.1 ∧ o.Echoes r.2 r'.2) (g.close check a)
      ((g.without o).close check' b) := by
  have hreports := reports_echoes (g := g) hw
  have hnone : b.ordereds.isEmpty = a.ordereds.isEmpty := by rw [hw.ordereds, List.isEmpty_map]
  have hplaces : b.ordereds.zipIdx.reverse =
      a.ordereds.zipIdx.reverse.map fun place => (place.1.without o, place.2) := by
    rw [hw.ordereds, List.zipIdx_map, List.map_reverse]
    rfl
  unfold close
  dsimp only
  rw [hnone, hreports.isEmpty, hw.out]
  split
  · exact .pure ⟨rfl, hreports⟩
  · refine Lockstep.bind (R := Eq) ?_ ?_
    · unfold Ground.defaults
      rw [hplaces]
      refine (defaultsFromEnd_echoes h hform (fun x hx => ?_) _ _).bind ?_
      · exact hw.listed x.1 (List.fst_mem_of_mem_zipIdx (List.mem_reverse.mp hx))
      · rintro values _ rfl
        exact .pure rfl
    · rintro values _ rfl
      exact .pure ⟨rfl, .refl []⟩

end Ground

/-! ### A whole array -/

/-- A whole array comes to outcomes that echo each other. -/
theorem base_echoes {check check' : Check} {site : Site} (h : site.Omits o check check')
    {form : ArrayForm Schema} (hform : site.node.form = .array form) (value : Value) :
    Lockstep (o.Beside site.env) (Outcome.Echoes o) (form.base check site value)
      ((form.map (Schema.without o)).base check' (site.without o) value) := by
  have hmembers : (form.map (Schema.without o)).members? value = form.members? value := rfl
  have hneeds : (form.map (Schema.without o)).needsWalk = form.needsWalk := by
    have hitems : (form.map (Schema.without o)).items.isEmpty = form.items.isEmpty :=
      List.isEmpty_map
    have hordered : (form.map (Schema.without o)).ordered.isEmpty = form.ordered.isEmpty :=
      List.isEmpty_map
    unfold needsWalk
    rw [hitems, hordered]
    rfl
  have hchecked (members : List Value) :
      Lockstep (o.Beside site.env) (fun r r' => r'.1 = r.1 ∧ o.Echoes r.2 r'.2)
      (form.checkMembers check site members)
      ((form.map (Schema.without o)).checkMembers check' (site.without o) members) := by
    -- the walks start with the same members to come
    have hstart : Walk.Echoes o form
        { requireds := form.numberedRequireds, ordereds := form.ordered }
        { requireds := (form.map (Schema.without o)).numberedRequireds,
          ordereds := (form.map (Schema.without o)).ordered } :=
      ⟨numberedRequireds_without form, fun _ hx => hx, rfl, fun _ ht => ht, rfl, .refl []⟩
    unfold checkMembers
    refine (Ground.walk_echoes (g := ⟨site, form, .array members⟩) h hform hstart 0 members).bind ?_
    rintro x y hended
    cases hended with
    | ok hw => exact Ground.close_echoes (g := ⟨site, form, .array members⟩) h hform hw
    | error hreports => exact .pure ⟨rfl, hreports⟩
  unfold base
  rw [hmembers, hneeds]
  split
  · exact .pure (Site.failure_echoes ..)
  next members _ =>
    split
    · refine (hchecked members).bind ?_
      rintro ⟨out, reports⟩ ⟨out', reports'⟩ ⟨hout, hreports⟩
      dsimp only at hout hreports
      rw [hout]
      exact .pure ⟨rfl, hreports, rfl⟩
    · exact .pure (.refl _)

end Conform.ArrayForm
