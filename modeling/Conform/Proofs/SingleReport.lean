import Conform.Proofs.Findings

/-!
# One report for a failure

Where the first failure settles a check, one report is to come of it. Two places of the source
add reports to those that a node has: a default function that fails, for a value that is missing
as it must not be, and the end of an array whose required item schemas and required ordered
schemas were both missed. All other places stop at once, so whatever follows a first report has
one of their codes (`FirstOnly`).

Here is what may not be asked of a schema (`Schema.EndsAtOnce`), what is known of the checks inside
one (`Site.Single`), and what follows for the phases of objects and the walk over arrays. Both carry
the same invariant: as long as they go on, nothing is reported. For an object it is a property of
the working copy (`ObjectPass.Single`): there are no reports, or the phases have ended with the
first. For an array it is one of the walk and of each step (`Walk.Quiet`, `Step.Quiet`): a step that
goes on has no reports, and one that ends has the reports of one failure.

Which codes may follow is a parameter (`extra`), so that two results come of one proof. With
no code allowed, a schema that has neither of the two features reports exactly once; with the
codes of the two features, every schema is covered, and the statement says what may stand
behind the first report. Alternatives try their entries without ending, but report one failure
of their own in the end.
-/

namespace Conform

/-- All reports but the first have codes that may be added. -/
def FirstOnly (extra : String → Prop) (reports : List Report) : Prop :=
    ∀ r ∈ reports.tail, extra r.code

namespace FirstOnly

variable {extra : String → Prop}

/-- No reports are in order. -/
theorem nil : FirstOnly extra [] := List.forall_mem_nil _

/-- One report is in order, whatever it is. -/
theorem one (report : Report) : FirstOnly extra [report] := List.forall_mem_nil _

/-- What has such a code may follow. -/
theorem add {reports more : List Report} (h : FirstOnly extra reports)
    (hmore : FirstOnly extra more)
    (hextra : reports ≠ [] → ∀ r ∈ more, extra r.code) : FirstOnly extra (reports ++ more) := by
  cases reports with
  | nil => exact hmore
  | cons first rest =>
    intro r hr
    rcases List.mem_append.mp hr with hold | hnew
    · exact h r hold
    · exact hextra (List.cons_ne_nil _ _) r hnew

/-- Where nothing may be added, there is one report. -/
theorem length_le {reports : List Report} (h : FirstOnly extra reports)
    (hnone : ∀ code, ¬extra code) : reports.length ≤ 1 := by
  cases reports with
  | nil => exact Nat.zero_le 1
  | cons first rest =>
    cases rest with
    | nil => exact Nat.le_refl 1
    | cons second others => exact absurd (h second (List.mem_cons_self ..)) (hnone _)

end FirstOnly

/-! ### Schemas that end at once -/

namespace ArrayForm

/-- The codes of the reports on schemas that no member matched. -/
def missedCodes : List String :=
  ["array.includesRequiredUnknowns", "array.includesRequiredKnowns", "array.includesRequiredBoth"]

/-- A missed schema is reported under one of two codes. -/
theorem missedReport_code (site : Site) (value : Value) (missed : List Schema) :
    (missedReport site value missed).code ∈ missedCodes := by
  unfold missedReport
  dsimp only
  split
  · exact List.mem_cons_self ..
  · split
    · exact List.mem_cons_of_mem _ (List.mem_cons_of_mem _ (List.mem_singleton_self _))
    · exact List.mem_cons_of_mem _ (List.mem_cons_self ..)

/-- Schemas are required among the items and among the ordered ones, so an array may miss both. -/
def requiresTwice (form : ArrayForm Schema) : Bool :=
  !form.requireds.isEmpty && form.ordered.any fun s =>
    decide (s.node.flags.presence = some .required)

/-- Whether required items stand beside required places does not depend on marks. -/
theorem requiresTwice_map (keep : Bool) (form : ArrayForm Schema) :
    (form.map (Schema.erase keep)).requiresTwice = form.requiresTwice := by
  have hordered : (form.map (Schema.erase keep)).ordered =
      form.ordered.map (Schema.erase keep) := rfl
  unfold requiresTwice
  rw [(unseen_erase keep).requireds_map, hordered, List.isEmpty_map, List.any_map]
  simp only [Function.comp_def, (unseen_erase keep).presence]

end ArrayForm

/-- An array may miss required schemas twice. -/
def Form.requiresTwice : Form Schema → Bool
  | .array form => form.requiresTwice
  | _ => false

/-- The default is a function that may fail. -/
def Node.MayLackDefault {σ : Type} (env : Environment) (n : Node σ) : Prop :=
  ∃ name f value prefs reason, n.flags.default = some (.function name) ∧
    env.registry.defaults name = some f ∧ f value prefs = .error reason

namespace Schema

/-- The node may add a report with the code to one that it has. -/
def Repeats (env : Environment) (s : Schema) (code : String) : Prop :=
  code = "any.default" ∧ s.node.MayLackDefault env ∨
    code ∈ ArrayForm.missedCodes ∧ s.node.form.requiresTwice = true

/-- The node is no alternatives and does not ask for all failures. -/
structure IsEager (s : Schema) : Prop where
  kind : s.kind ≠ .alternatives
  patch : ∀ patch ∈ s.node.prefs, patch.abortEarly ≠ some false

/-- The node ends with the first failure, and what it may add all the same has such codes. -/
structure EndsAtOnce (env : Environment) (extra : String → Prop) (s : Schema) :
    Prop extends IsEager s where
  repeats : ∀ code, s.Repeats env code → extra code

variable {env : Environment} {extra : String → Prop}

/-- Which reports may follow a first one does not depend on marks. -/
theorem repeats_erase {s : Schema} {code : String} :
    (s.erase true).Repeats env code ↔ s.Repeats env code := by
  have hform : ((s.node.map (erase true)).withoutCell).form.requiresTwice =
      s.node.form.requiresTwice := by
    show ((s.node.form.map (erase true)).withoutCell).requiresTwice = _
    cases s.node.form with
    | array form => exact ArrayForm.requiresTwice_map true form
    | _ => rfl
  unfold Repeats
  rw [node_erase, hform]
  exact Iff.rfl

/-- Whether a schema ends at once does not depend on marks. -/
theorem endsAtOnce_erase {s : Schema} :
    (s.erase true).EndsAtOnce env extra ↔ s.EndsAtOnce env extra := by
  have hkind : (s.erase true).kind = s.kind := kind_erase true s
  have hprefs : (s.erase true).node.prefs = s.node.prefs := by
    rw [node_erase]
    rfl
  constructor
  · intro h
    exact ⟨⟨hkind ▸ h.kind, hprefs ▸ h.patch⟩,
      fun code hcode => h.repeats code (repeats_erase.mpr hcode)⟩
  · intro h
    exact ⟨⟨hkind ▸ h.kind, hprefs ▸ h.patch⟩,
      fun code hcode => h.repeats code (repeats_erase.mp hcode)⟩

/-- Marks do not bear on it. -/
theorem endsAtOnce_congr (s t : Schema) (h : t.erase true = s.erase true)
    (hs : s.EndsAtOnce env extra) : t.EndsAtOnce env extra :=
  endsAtOnce_erase.mp (h ▸ endsAtOnce_erase.mpr hs)

/-- Another presence does not bring back what was excluded. -/
theorem EndsAtOnce.withPresence {s : Schema} (h : s.EndsAtOnce env extra) (presence : Presence) :
    (s.updateFlags ({ · with presence := some presence })).EndsAtOnce env extra :=
  ⟨⟨h.kind, h.patch⟩, h.repeats⟩

end Schema

namespace Site

/-- A site of a check that the first failure settles, and what is known of the checks inside. -/
structure Single (check : Check) (extra : String → Prop) (site : Site) : Prop where
  early : site.prefs.abortEarly = true
  throughout : site.schema.Throughout site.env (Schema.EndsAtOnce site.env extra)
  inner : ∀ t : Schema, t.Throughout site.env (Schema.EndsAtOnce site.env extra) →
    ∀ value position (prefs : Preferences), prefs.abortEarly = true →
      Leaves site.env (Schema.EndsAtOnce site.env extra) (fun o => FirstOnly extra o.reports)
        (check t value position prefs)

namespace Single

variable {check : Check} {extra : String → Prop} {site : Site} (h : site.Single check extra)

include h

/-- A schema that the node hands values on to reports once, apart from what may follow. -/
theorem visited {levels : Nat} {t : Schema} (ht : (levels, t) ∈ site.schema.visited) (value : Value)
    (p : Position) :
    Leaves site.env (Schema.EndsAtOnce site.env extra) (fun o => FirstOnly extra o.reports)
      (check t value p site.prefs) :=
  h.inner t (h.throughout.visited ht) value p site.prefs h.early

/-- To ask whether a value passes makes no other schemas, whatever the preferences. -/
theorem passes {t : Schema} (ht : t.Throughout site.env (Schema.EndsAtOnce site.env extra))
    (value : Value) (p : Position) (prefs : Preferences) :
    Leaves site.env (Schema.EndsAtOnce site.env extra) (fun _ => True)
      (check.passes t value p prefs) :=
  (h.inner t ht value p { prefs with abortEarly := true } rfl).bind fun _ _ => .pure trivial

/-- Asking whether an inner schema passes reports nothing. -/
theorem visited_passes {levels : Nat} {t : Schema}
    (ht : (levels, t) ∈ site.schema.visited) (value : Value) (p : Position) (prefs : Preferences) :
    Leaves site.env (Schema.EndsAtOnce site.env extra) (fun _ => True)
      (check.passes t value p prefs) :=
  h.passes (h.throughout.visited ht) value p prefs

end Single

end Site

/-! ### Objects -/

/-- As long as the check goes on nothing is reported, and what ended it was the first report. -/
structure ObjectPass.Single (extra : String → Prop) (p : ObjectPass) : Prop where
  quiet : p.stopped = false → p.reports = []
  first : FirstOnly extra p.reports

/-- The phases of an object end with the first failure. -/
theorem ObjectPass.tells_single {extra : String → Prop} {site : Site}
    (hearly : site.prefs.abortEarly = true) :
    ObjectPass.Tells site (FirstOnly extra) (ObjectPass.Single extra) := by
  refine ⟨FirstOnly.one, fun p reports hgo hp hreports => ?_, fun p q hfinds hp => ?_⟩
  · unfold ObjectPass.fail
    split
    · exact hp
    · rw [hp.quiet hgo, hearly]
      exact ⟨fun hnever => absurd hnever (by simp), hreports⟩
  · exact ⟨fun hgo => hfinds.1.trans (hp.quiet (hfinds.2.symm.trans hgo)), hfinds.1 ▸ hp.first⟩

/-- An object reports once, apart from what may follow: each phase ends with the first failure. -/
theorem ObjectForm.base_single {extra : String → Prop} {check : Check} {site : Site}
    {form : ObjectForm Schema}
    (h : site.Single check extra) (hform : site.node.form = .object form) (value : Value) :
    Leaves site.env (Schema.EndsAtOnce site.env extra) (fun o => FirstOnly extra o.reports)
      (form.base check site value) := by
  have hinner : site.Reports check (Schema.EndsAtOnce site.env extra) (FirstOnly extra) :=
    ⟨fun _ _ ht value p => h.visited ht value p,
      fun _ _ ht value p prefs => h.visited_passes ht value p prefs⟩
  unfold base
  cases value with
  | object members =>
    have hstart : ObjectPass.Single extra { members } := ⟨fun _ => rfl, .nil⟩
    dsimp only
    split
    · exact .pure .nil
    · refine (checkMembers_tells (ObjectPass.tells_single h.early) hinner hform hstart).bind
        fun p hp => ?_
      exact .pure hp.first
  | _ => exact .pure (.one _)

/-! ### Arrays -/

namespace ArrayForm

/-- A walk that goes on has reported nothing, and what is left to match is of
the array's own schemas. -/
structure Walk.Quiet (form : ArrayForm Schema) (walk : Walk) : Prop where
  requireds : ∀ x ∈ walk.requireds, x ∈ form.numberedRequireds
  ordereds : ∀ t ∈ walk.ordereds, t ∈ form.ordered
  reports : walk.reports = []

/-- What the next member may do to such a walk. -/
def Step.Quiet (form : ArrayForm Schema) (extra : String → Prop) : Step → Prop
  | .next walk => walk.Quiet form
  | .finish walk => walk.Quiet form
  | .abort reports => FirstOnly extra reports

section

variable {extra : String → Prop} {g : Ground} {walk : Walk}

namespace Ground

/-- A report ends the walk. -/
theorem fail_quiet (hearly : g.site.prefs.abortEarly = true) (hwalk : walk.Quiet g.form)
    {reports : List Report} (hreports : FirstOnly extra reports) (goOn : Walk → Step) :
    (g.fail walk reports goOn).Quiet g.form extra := by
  unfold fail
  dsimp only
  rw [if_pos hearly, hwalk.reports]
  exact hreports

/-- A value that is put out is no report. -/
theorem push_quiet (hwalk : walk.Quiet g.form) (out : List Value) :
    (Step.next { walk with out }).Quiet g.form extra :=
  ⟨hwalk.requireds, hwalk.ordereds, hwalk.reports⟩

variable (hearly : g.site.prefs.abortEarly = true) (hwalk : walk.Quiet g.form)

include hearly hwalk

/-- A member that an item accepted is no report. -/
theorem takeIncluded_quiet (i : Nat) (o : Outcome) :
    (g.takeIncluded walk i o).Quiet g.form extra := by
  unfold takeIncluded
  split
  · exact hwalk
  · split
    · exact fail_quiet hearly hwalk (.one _) _
    · exact push_quiet hwalk _

/-- A member at its place is a report only if its schema failed, and that ends the walk. -/
theorem takeOrdered_quiet (i : Nat) {o : Outcome} (ho : FirstOnly extra o.reports) :
    (g.takeOrdered walk i o).Quiet g.form extra := by
  unfold takeOrdered
  split
  · exact fail_quiet hearly hwalk ho _
  · exact takeIncluded_quiet hearly hwalk i o

/-- A member that a required item accepted is no report. -/
theorem takeRequired_quiet (i : Nat) (o : Outcome) :
    (g.takeRequired walk i o).Quiet g.form extra := by
  unfold takeRequired
  dsimp only
  split
  · exact fail_quiet hearly hwalk (.one _) _
  · exact push_quiet hwalk _

omit hearly hwalk

variable {check : Check} (h : g.site.Single check extra) (hform : g.site.node.form = .array g.form)

include h hform

/-- Failures of required schemas are kept for later, so they count as outcomes of checks, too. -/
theorem tryRequireds_single (i : Nat) (member : Value) {before pending : List (Nat × Schema)}
    {failed : List (Nat × Outcome)} (hpending : ∀ x ∈ pending, x ∈ g.form.numberedRequireds)
    (hbefore : ∀ x ∈ before, x ∈ g.form.numberedRequireds)
    (hfailed : ∀ n o, (n, o) ∈ failed → FirstOnly extra o.reports) :
    Leaves g.site.env (Schema.EndsAtOnce g.site.env extra)
      (fun
        | .matched _ left => ∀ x ∈ left, x ∈ g.form.numberedRequireds
        | .failed failed => ∀ n o, (n, o) ∈ failed → FirstOnly extra o.reports)
      (g.tryRequireds check i member before failed pending) := by
  induction pending generalizing before failed with
  | nil => exact .pure hfailed
  | cons x rest ih =>
    obtain ⟨number, s⟩ := x
    have hs := hpending _ (List.mem_cons_self ..)
    have hrest : ∀ x ∈ rest, x ∈ g.form.numberedRequireds := fun x hx =>
      hpending x (List.mem_cons_of_mem _ hx)
    unfold tryRequireds
    refine (h.visited (visited_of_numbered hform hs) member _).bind fun o ho => ?_
    split
    · exact .pure fun x hx => (List.mem_append.mp hx).elim (hbefore x) (hrest x)
    · -- the failure is kept, and the schema stays pending
      refine ih hrest ?_ ?_
      · intro x hx
        rcases List.mem_append.mp hx with hold | hnew
        · exact hbefore x hold
        · exact List.mem_singleton.mp hnew ▸ hs
      · intro n o' hmem
        rcases List.mem_append.mp hmem with hold | hnew
        · exact hfailed n o' hold
        · obtain ⟨rfl, rfl⟩ := Prod.mk.inj (List.mem_singleton.mp hnew)
          exact ho

/-- A member that no item accepts has the reports of the last one tried. -/
theorem tryInclusions_single (i : Nat) (member : Value) {failed : List (Nat × Outcome)}
    (hfailed : ∀ n o, (n, o) ∈ failed → FirstOnly extra o.reports)
    {candidates : List (Option Nat × Schema)} (hin : ∀ c ∈ candidates, c ∈ g.candidates) :
    Leaves g.site.env (Schema.EndsAtOnce g.site.env extra) (fun r => FirstOnly extra r.2.reports)
      (g.tryInclusions check i member failed candidates) := by
  induction candidates with
  | nil => exact .pure .nil
  | cons c rest ih =>
    obtain ⟨number, s⟩ := c
    have houtcome : Leaves g.site.env (Schema.EndsAtOnce g.site.env extra)
        (fun o => FirstOnly extra o.reports) (g.outcome check i member failed number s) := by
      unfold Ground.outcome
      split
      next o hlook =>
        obtain ⟨n, -, hlook⟩ := Option.bind_eq_some_iff.mp hlook
        exact .pure (hfailed n o (mem_of_lookup hlook))
      next => exact h.visited (visited_of_candidates hform (hin _ (List.mem_cons_self ..))) member _
    unfold tryInclusions
    refine houtcome.bind fun o ho => ?_
    split
    · exact .pure ho
    · split
      · exact .pure ho
      · exact ih fun c hc => hin c (List.mem_cons_of_mem _ hc)

/-- A member that no required item took ends the walk or goes on without a report. -/
theorem includeMember_single (hwalk : walk.Quiet g.form) (i : Nat) (member : Value)
    {failed : List (Nat × Outcome)} (hfailed : ∀ n o, (n, o) ∈ failed → FirstOnly extra o.reports) :
    Leaves g.site.env (Schema.EndsAtOnce g.site.env extra) (Step.Quiet g.form extra)
      (g.includeMember check walk i member failed) := by
  unfold includeMember
  dsimp only
  split
  · exact .pure (push_quiet hwalk _)
  · refine (tryInclusions_single h hform i member hfailed fun _ hc => hc).bind ?_
    rintro ⟨_ | o, last⟩ hlast
    · dsimp only
      split
      · exact .pure hwalk
      · split
        · exact .pure (fail_quiet h.early hwalk hlast _)
        · exact .pure (fail_quiet h.early hwalk (.one _) _)
    · exact .pure (takeIncluded_quiet h.early hwalk i o)

/-- A member behind the last place ends the walk or goes on without a report. -/
theorem placeMember_single (hwalk : walk.Quiet g.form) (i : Nat) (member : Value) :
    Leaves g.site.env (Schema.EndsAtOnce g.site.env extra) (Step.Quiet g.form extra)
      (g.placeMember check walk i member) := by
  unfold placeMember
  refine (tryRequireds_single h hform i member hwalk.requireds
    (fun _ hmem => absurd hmem List.not_mem_nil)
    fun _ _ hmem => absurd hmem List.not_mem_nil).bind fun tried htried => ?_
  cases tried with
  | matched o left =>
    have hwalk : Walk.Quiet g.form { walk with requireds := left } :=
      ⟨htried, hwalk.ordereds, hwalk.reports⟩
    exact .pure (takeRequired_quiet h.early hwalk i o)
  | failed failed => exact includeMember_single h hform hwalk i member htried

/-- One member. -/
theorem step_single (hwalk : walk.Quiet g.form) (i : Nat) (member : Value) (rest : List Value) :
    Leaves g.site.env (Schema.EndsAtOnce g.site.env extra) (Step.Quiet g.form extra)
      (g.step check walk i member rest) := by
  have hexclusions : ∀ s ∈ g.form.exclusions,
      s.Throughout g.site.env (Schema.EndsAtOnce g.site.env extra) :=
    fun s hs => throughout_of_exclusion (fun _ h => h.withPresence _) h.throughout hform hs
  unfold step
  dsimp only
  split
  · -- the first report ends the check
    exact .pure (fail_quiet h.early hwalk (.one _) _)
  · refine (leaves_isExcluded fun s hs => h.passes (hexclusions s hs) member _ _).bind
      fun excluded _ => ?_
    split
    · exact .pure (fail_quiet h.early hwalk (.one _) _)
    · split
      · exact placeMember_single h hform hwalk i member
      · cases hordereds : walk.ordereds with
        | cons s ordereds =>
          -- a place in order is left for the member
          have hs := hwalk.ordereds
          rw [hordereds] at hs
          have hvisited : (1, s) ∈ g.site.schema.visited :=
            visited_of_items hform (List.mem_append_right _ (hs s (List.mem_cons_self ..)))
          have hwalk : Walk.Quiet g.form { walk with ordereds } :=
            ⟨hwalk.requireds, fun t ht => hs t (List.mem_cons_of_mem _ ht), hwalk.reports⟩
          refine (h.visited hvisited member _).bind fun o ho => ?_
          exact .pure (takeOrdered_quiet h.early hwalk i ho)
        | nil =>
          dsimp only
          split
          · exact .pure (fail_quiet h.early hwalk (.one _) _)
          · exact placeMember_single h hform hwalk i member

/-- All members from some place on. -/
theorem walk_single (hwalk : walk.Quiet g.form) (i : Nat) (members : List Value) :
    Leaves g.site.env (Schema.EndsAtOnce g.site.env extra)
      (fun
        | .ok walk => walk.Quiet g.form
        | .error reports => FirstOnly extra reports)
      (g.walk check walk i members) := by
  induction members generalizing walk i with
  | nil => exact .pure hwalk
  | cons member rest ih =>
    unfold Ground.walk
    refine (step_single h hform hwalk i member rest).bind fun next hnext => ?_
    cases next with
    | next walk => exact ih hnext (i + 1)
    | finish walk => exact .pure hnext
    | abort reports => exact .pure hnext

/-- At the end both kinds of required schemas are looked at, and the array reports on both if both
have been missed: only then is there a second report. -/
theorem reports_single (hwalk : walk.Quiet g.form) : FirstOnly extra (g.reports walk) := by
  have hmissed (value : Value) (missed : List Schema) :
      FirstOnly extra (missedReports g.site value missed) := by
    unfold missedReports
    split
    · exact .nil
    · exact .one _
  unfold Ground.reports
  dsimp only
  rw [hwalk.reports, List.nil_append]
  refine (hmissed _ _).add (hmissed _ _) fun hne r hr => ?_
  -- two kinds can have been missed: what is pending, and the places not reached
  have hrequireds : g.form.requireds ≠ [] := by
    intro hnil
    have hnone : walk.requireds = [] := List.eq_nil_iff_forall_not_mem.mpr fun x hx => by
      have hx := (place_of_numbered (n := x.1) (s := x.2) (hwalk.requireds x hx)).1
      rw [hnil] at hx
      exact List.not_mem_nil hx
    rw [hnone] at hne
    exact hne rfl
  unfold missedReports at hr
  split at hr
  next => exact absurd hr List.not_mem_nil
  next hsome =>
    obtain rfl := List.mem_singleton.mp hr
    obtain ⟨s, hs⟩ := List.exists_mem_of_ne_nil _ fun hnil => hsome (List.isEmpty_iff.mpr hnil)
    obtain ⟨hs, hrequired⟩ := List.mem_filter.mp hs
    -- so the array has required schemas of both kinds
    have htwice : g.form.requiresTwice = true := by
      unfold requiresTwice
      rw [Bool.and_eq_true, Bool.not_eq_true', List.isEmpty_eq_false_iff, List.any_eq_true]
      exact ⟨hrequireds, s, hwalk.ordereds s hs, hrequired⟩
    refine h.throughout.self.repeats _ (.inr ⟨missedReport_code .., ?_⟩)
    have hform : g.site.schema.node.form = .array g.form := hform
    rw [hform]
    exact htwice

omit hform in
/-- Asking the places left for defaults reports nothing. -/
theorem defaultsFromEnd_single (size : Nat) (parent : Value) {ordereds : List (Schema × Nat)}
    (hin : ∀ x ∈ ordereds, (1, x.1) ∈ g.site.schema.visited) :
    Leaves g.site.env (Schema.EndsAtOnce g.site.env extra) (fun _ => True)
      (g.defaultsFromEnd check size parent ordereds) := by
  induction ordereds with
  | nil => exact .pure trivial
  | cons x before ih =>
    unfold defaultsFromEnd
    refine (h.visited (hin x (List.mem_cons_self ..)) .undefined _).bind fun o _ => ?_
    exact (ih fun x hx => hin x (List.mem_cons_of_mem _ hx)).bind fun values _ => .pure trivial

/-- The end of the walk reports once, or twice where items and places were missed. -/
theorem close_single (hwalk : walk.Quiet g.form) :
    Leaves g.site.env (Schema.EndsAtOnce g.site.env extra) (fun r => FirstOnly extra r.2)
      (g.close check walk) := by
  have hordereds : ∀ x ∈ walk.ordereds.zipIdx.reverse, (1, x.1) ∈ g.site.schema.visited := by
    intro x hx
    have hx := hwalk.ordereds x.1 (List.fst_mem_of_mem_zipIdx (List.mem_reverse.mp hx))
    exact visited_of_items hform (List.mem_append_right _ hx)
  unfold close
  dsimp only
  split
  · exact .pure (reports_single h hform hwalk)
  · unfold Ground.defaults
    refine Leaves.bind (Q := fun _ => True) ?_ fun values _ => .pure .nil
    exact (defaultsFromEnd_single h _ _ hordereds).bind fun values _ => .pure trivial

end Ground

end

/-- An array reports once, apart from what may follow. -/
theorem base_single {extra : String → Prop} {check : Check} {site : Site} {form : ArrayForm Schema}
    (h : site.Single check extra) (hform : site.node.form = .array form) (value : Value) :
    Leaves site.env (Schema.EndsAtOnce site.env extra) (fun o => FirstOnly extra o.reports)
      (form.base check site value) := by
  unfold base
  split
  · exact .pure (.one _)
  next members _ =>
    split
    · refine Leaves.bind (Q := fun r => FirstOnly extra r.2) ?_ fun r hr => .pure hr
      have hstart :
          Walk.Quiet form { requireds := form.numberedRequireds, ordereds := form.ordered } :=
        ⟨fun _ hx => hx, fun _ ht => ht, rfl⟩
      unfold checkMembers
      refine (Ground.walk_single (g := ⟨site, form, .array members⟩) h hform hstart 0 members).bind
        fun r hr => ?_
      cases r with
      | ok walk => exact Ground.close_single (g := ⟨site, form, .array members⟩) h hform hr
      | error reports => exact .pure hr
    · exact .pure .nil

end ArrayForm

end Conform
