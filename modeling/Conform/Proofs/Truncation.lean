import Conform.Proofs.Indifferent
import Conform.Proofs.Meeting

/-!
# The first failure and all of them

A check where the first failure settles the result does less than one that collects all
failures, but passes the same values with the same results (`Outcome.Truncates`). Both go the
same way up to the first failure. After it the collecting check goes on, and whatever it does
keeps the reports it has.

The relation has a parameter, whether the first reports are about one failure (`exact`). They are
where no alternatives are tried: alternatives put all that their entries report into one report of
their own, and may choose it by how much each entry reports, which differs between the two checks.
For the same reason a node with alternatives or a generated schema may not have a failover here, and
no member of an array may go by its place (`Schema.IsTruncatable`).

Here is what relates the two checks at one node (`Site.Early`), and what follows for alternatives
and for rules. Whether a schema accepts a value, where only that is asked, is asked in the same way
by both, the first failure settling it in either; so what is decided by such a question is the same,
and the two checks differ only in what they go through for its reports.
-/

namespace Conform

/-- Which failure a report is about. -/
def Report.place (r : Report) : String × List Segment := (r.code, r.path)

/-- The failure reported first. -/
def firstPlace (reports : List Report) : Option (String × List Segment) :=
    reports.head?.map Report.place

/-- More reports do not change where the first one is. -/
theorem firstPlace_append {reports : List Report} (h : reports ≠ []) (more : List Report) :
    firstPlace (reports ++ more) = firstPlace reports := by
  cases reports with
  | nil => exact absurd rfl h
  | cons first rest => rfl

/-- Reports that go on keep where the first one is. -/
theorem firstPlace_kept {reports more : List Report} (h : reports ≠ []) (hmore : reports <+: more) :
    firstPlace more = firstPlace reports := by
  obtain ⟨rest, rfl⟩ := hmore
  exact firstPlace_append h rest

/-- What a check that the first failure settles gives, beside one that collects all: both pass, with
one result, or both fail, and then `exact` says whether the first reports are about one failure. -/
structure Outcome.Truncates (exact : Prop) (o o' : Outcome) : Prop where
  ok : o'.isOk = o.isOk
  same : o.isOk = true → o'.value = o.value ∧ o'.strip = o.strip
  first : exact → firstPlace o'.reports = firstPlace o.reports

namespace Outcome.Truncates

variable {exact : Prop} {o o' : Outcome}

/-- An outcome is the same as itself up to the first failure. -/
theorem refl (o : Outcome) : Outcome.Truncates exact o o := ⟨rfl, fun _ => ⟨rfl, rfl⟩, fun _ => rfl⟩

/-- Less may be asked of the first reports. -/
theorem weaken {weaker : Prop} (h : Outcome.Truncates exact o o') (himp : weaker → exact) :
    Outcome.Truncates weaker o o' :=
  ⟨h.ok, h.same, fun hw => h.first (himp hw)⟩

/-- Two failures. -/
theorem failed (ho : o.reports ≠ []) (ho' : o'.reports ≠ [])
    (hfirst : exact → firstPlace o'.reports = firstPlace o.reports) :
    Outcome.Truncates exact o o' := by
  have hfails {o : Outcome} (h : o.reports ≠ []) : o.isOk = false := by
    unfold Outcome.isOk
    rw [List.isEmpty_eq_false_iff]
    exact h
  refine ⟨?_, ?_, hfirst⟩
  · rw [hfails ho, hfails ho']
  · intro hok
    rw [hfails ho] at hok
    exact absurd hok (by simp)

/-- Where a check passes, collecting gives the same outcome. -/
theorem eq_of_ok (h : Outcome.Truncates exact o o') (hok : o.isOk = true) : o' = o := by
  have hok' : o'.isOk = true := h.ok.trans hok
  obtain ⟨hvalue, hstrip⟩ := h.same hok
  obtain ⟨value, reports, strip⟩ := o
  obtain ⟨value', reports', strip'⟩ := o'
  obtain rfl : reports = [] := List.isEmpty_iff.mp hok
  obtain rfl : reports' = [] := List.isEmpty_iff.mp hok'
  obtain rfl : value' = value := hvalue
  obtain rfl : strip' = strip := hstrip
  rfl

/-- A check that fails has reports, and so has the other one. -/
theorem reports_ne (h : Outcome.Truncates exact o o') (hfails : ¬o.isOk = true) :
    o.reports ≠ [] ∧ o'.reports ≠ [] := by
  have hne {o : Outcome} (h : ¬o.isOk = true) : o.reports ≠ [] := by
    intro hnil
    exact h (by unfold Outcome.isOk; rw [hnil]; rfl)
  exact ⟨hne hfails, hne (h.ok ▸ hfails)⟩

end Outcome.Truncates

namespace Environment

/-- Registered functions do not ask whether the first failure settles the check. -/
structure Blind (env : Environment) : Prop where
  customs : ∀ name g, env.registry.customs name = some g → ∀ value p p' : _,
    Preferences.collecting p' = Preferences.collecting p → g value p' = g value p
  defaults : ∀ name g, env.registry.defaults name = some g → ∀ value p p' : _,
    Preferences.collecting p' = Preferences.collecting p → g value p' = g value p

end Environment

namespace Schema

/-- The node does not go by what an earlier failure left: no member is taken by its place, and no
failure of other schemas is replaced. -/
structure IsTruncatable (s : Schema) : Prop where
  unordered : ∀ f, s.node.form = .array f → f.ordered = []
  unreplaced : s.kind = .alternatives ∨ s.kind = .lazy → s.node.flags.failover = none

/-- The node does not try several schemas. -/
def IsNotAlternatives (s : Schema) : Prop := s.kind ≠ .alternatives

/-- Marks do not bear on the type. -/
theorem kind_erase (keep : Bool) (s : Schema) : (s.erase keep).kind = s.kind := by
  unfold kind
  rw [node_erase]
  obtain ⟨⟨form, _⟩, _⟩ := s
  cases form <;> rfl

/-- Marks do not bear on whether a node tries several schemas. -/
theorem isNotAlternatives_congr (t u : Schema) (h : u.erase true = t.erase true)
    (ht : t.IsNotAlternatives) : u.IsNotAlternatives := by
  unfold IsNotAlternatives
  rw [← kind_erase true, h, kind_erase]
  exact ht

/-- Marks do not bear on whether a check can be cut off. -/
theorem isTruncatable_congr (t u : Schema) (h : u.erase true = t.erase true)
    (ht : t.IsTruncatable) : u.IsTruncatable := by
  refine ⟨?_, ?_⟩
  · intro f hf
    have hform : (u.erase true).node.form = (t.erase true).node.form := by rw [h]
    rw [node_erase, node_erase] at hform
    have hform : (u.node.form.map (erase true)).withoutCell =
        (t.node.form.map (erase true)).withoutCell := hform
    -- no cell bears on the places in order
    rw [hf] at hform
    cases htf : t.node.form with
    | array g =>
      rw [htf] at hform
      have hsame : f.map (erase true) = g.map (erase true) := Form.array.inj hform
      have hordered : f.ordered.map (erase true) = g.ordered.map (erase true) :=
        congrArg ArrayForm.ordered hsame
      rw [ht.unordered g htf] at hordered
      exact List.map_eq_nil_iff.mp hordered
    | _ =>
      rw [htf] at hform
      exact absurd hform (by simp [Form.map, Form.withoutCell])
  · intro hkind
    rw [← kind_erase true, h, kind_erase] at hkind
    have hflags : (u.erase true).node.flags = (t.erase true).node.flags := by rw [h]
    rw [node_erase, node_erase] at hflags
    have hflags : u.node.flags = t.node.flags := hflags
    rw [hflags]
    exact ht.unreplaced hkind

end Schema

/-! ### Preferences -/

/-- The preferences of two checks, of which the second collects failures if they differ. -/
def Preferences.Truncates (p p' : Preferences) : Prop :=
  p'.collecting = p.collecting ∧ (p.abortEarly = true ∨ p' = p)

namespace Preferences

/-- A node's patch keeps what relates the preferences. -/
theorem Truncates.merged {p p' : Preferences} (h : p.Truncates p')
    (patch : Option PreferencesPatch) : (p.merged patch).Truncates (p'.merged patch) := by
  cases patch with
  | none => exact h
  | some patch =>
    obtain ⟨hsame, hearly⟩ := h
    obtain ⟨abortEarly, convert, allowUnknown, stripUnknown, presence, context,
        noDefaults, messages⟩ := p
    obtain ⟨abortEarly', _, _, _, _, _, _, _⟩ := p'
    obtain ⟨rfl, rfl, rfl, rfl, rfl, rfl, rfl⟩ : _ ∧ _ ∧ _ ∧ _ ∧ _ ∧ _ ∧ _ := by
      simpa [collecting] using hsame
    rw [merged_some, merged_some]
    refine ⟨rfl, ?_⟩
    -- a patch that settles the first failure settles it for both
    cases hpatch : patch.abortEarly with
    | some early =>
      refine .inr ?_
      unfold PreferencesPatch.apply
      dsimp only
      rw [hpatch]
      rfl
    | none =>
      rcases hearly with hearly | heq
      · refine .inl ?_
        unfold PreferencesPatch.apply
        dsimp only
        rw [hpatch]
        exact hearly
      · exact .inr (by rw [heq])

end Preferences

/-! ### One node -/

namespace Site

/-- The same site where no failure settles the check. -/
def collecting (site : Site) : Site := { site with prefs := site.prefs.collecting }

/-- A site where the first failure settles the check, and what is known of the checks inside. -/
structure Early (check : Check) (site : Site) : Prop where
  early : site.prefs.abortEarly = true
  steady : site.env.Steady
  blind : site.env.Blind
  careful : Careful site.env check
  truncatable : site.schema.Throughout site.env Schema.IsTruncatable
  inner : ∀ t : Schema, t.Throughout site.env Schema.IsTruncatable → ∀ value position,
    Meets site.env (Outcome.Truncates (t.Throughout site.env Schema.IsNotAlternatives))
      (check t value position site.prefs) (check t value position site.prefs.collecting)

/-- Whether the first reports are about one failure. -/
def IsExact (site : Site) : Prop := site.schema.Throughout site.env Schema.IsNotAlternatives

/-- A site is its own twin. -/
theorem twin_self {check : Check} (site : Site) (hcareful : Careful site.env check) :
    site.Twin check true site.position :=
  ⟨Schema.Agree.refl _ _, fun _ child _ => hcareful true child (.inl rfl)⟩

namespace Early

variable {check : Check} {site : Site} (h : site.Early check)

include h

/-- The site at which the first failure settles the check is its own twin. -/
theorem twin : site.Twin check true site.position := twin_self site h.careful

/-- The site that collects failures is its own twin. -/
theorem twin_collecting : site.collecting.Twin check true site.position :=
  twin_self site.collecting h.careful

/-- The two sites differ in where they stop only. -/
theorem alike : Site.Alike id site site.collecting :=
  Site.alike_of_node rfl rfl rfl rfl rfl (fun look _ value => by cases look <;> rfl)
    (fun name g hname value => h.blind.customs name g hname value site.prefs _ rfl)
    (fun name g hname value => h.blind.defaults name g hname value site.prefs _ rfl)

/-- An inner check comes to the same whenever it is made. -/
theorem check_self (s : Schema) (value : Value) (p : Position) (prefs : Preferences) :
    Matches site.env Eq (check s value p prefs) (check s value p prefs) :=
  (h.careful true s (.inl rfl) value p p prefs (Schema.Agree.refl s p)).left

/-- Nothing is asked of the outcome of an inner check. -/
theorem ends_check (s : Schema) (value : Value) (p : Position) (prefs : Preferences) :
    Ends site.env (fun _ => True) (check s value p prefs) :=
  (h.check_self s value p prefs).ends

/-- Whether a value passes is asked in the same way in both checks. -/
theorem passes_self (s : Schema) (value : Value) (p : Position) (prefs : Preferences) :
    Matches site.env Eq (check.passes s value p prefs) (check.passes s value p prefs) :=
  (h.check_self s value p _).bind fun _ _ heq => .pure (congrArg Outcome.isOk heq)

/-- Checks of what stands inside. -/
theorem visited {levels : Nat} {t : Schema} (ht : (levels, t) ∈ site.schema.visited) (value : Value)
    (p : Position) :
    Meets site.env (Outcome.Truncates site.IsExact) (check t value p site.prefs)
      (check t value p site.prefs.collecting) :=
  (h.inner t (h.truncatable.visited ht) value p).mono fun _ _ ho =>
    ho.weaken fun hs => hs.visited ht

end Early

/-! ### The finish -/

/-- Only a failover replaces. -/
theorem failover_of_replacement {site : Site} {replacement : Value}
    (h : site.replacement? = some replacement) : site.node.flags.failover.isSome = true := by
  unfold replacement? at h
  cases hflag : site.node.flags.failover with
  | some d => rfl
  | none =>
    rw [hflag] at h
    exact absurd h (by simp)

/-- Without a replacement, a failure stays as it is. -/
theorem recover_of_none {site : Site} (h : site.replacement? = none) (value : Value)
    (first : Report) (rest : List Report) :
    site.recover value (first :: rest) = (value, first :: rest) := by
  unfold recover
  rw [h]
  rfl

/-- A message of one's own stands for all reports, where the schema is, and keeps the first code. -/
theorem withOwnMessage_first (site : Site) (value : Value) (first : Report) (rest : List Report) :
    site.withOwnMessage value (first :: rest) ≠ [] ∧
      firstPlace (site.withOwnMessage value (first :: rest)) =
        if site.node.flags.message.isSome then some (first.code, site.position.path)
        else some first.place := by
  unfold withOwnMessage
  cases site.node.flags.message with
  | some template => exact ⟨by simp, rfl⟩
  | none => exact ⟨by simp, rfl⟩

/-- A default that fails is reported behind what there was. -/
theorem fillIn_first (site : Site) (value : Value) {reports : List Report}
    (hreports : reports ≠ []) :
    (site.fillIn value reports).2 ≠ [] ∧
      firstPlace (site.fillIn value reports).2 = firstPlace reports := by
  unfold fillIn
  split
  · exact ⟨hreports, rfl⟩
  · split
    · exact ⟨hreports, rfl⟩
    · exact ⟨hreports, rfl⟩
    · exact ⟨by simp, firstPlace_append hreports _⟩

/-- Two failures finish as failures, or with one replacement. -/
theorem finish_failing (site : Site) {exact : Prop} {value value' : Value}
    {reports reports' : List Report}
    {strip strip' : Bool} (hne : reports ≠ []) (hne' : reports' ≠ [])
    (hfirst : exact → firstPlace reports' = firstPlace reports)
    (hstrip : site.node.flags.failover.isSome = true → strip' = strip) :
    Outcome.Truncates exact (site.finish value reports strip)
      (site.finish value' reports' strip') := by
  obtain ⟨first, rest, rfl⟩ := List.exists_cons_of_ne_nil hne
  obtain ⟨first', rest', rfl⟩ := List.exists_cons_of_ne_nil hne'
  cases hreplace : site.replacement? with
  | some replacement =>
    -- a failover stands in for both, with what is dropped
    have hsame : site.finish value' (first' :: rest') strip' =
        site.finish value (first :: rest) strip := by
      unfold finish recover
      rw [hreplace, hstrip (failover_of_replacement hreplace)]
      rfl
    rw [hsame]
    exact .refl _
  | none =>
    obtain ⟨hown, hownPlace⟩ := site.withOwnMessage_first value first rest
    obtain ⟨hown', hownPlace'⟩ := site.withOwnMessage_first value' first' rest'
    obtain ⟨hfill, hfillPlace⟩ := site.fillIn_first value hown
    obtain ⟨hfill', hfillPlace'⟩ := site.fillIn_first value' hown'
    unfold finish
    rw [recover_of_none hreplace, recover_of_none hreplace]
    refine .failed hfill hfill' fun hexact => ?_
    have hhead : first'.place = first.place := Option.some.inj (hfirst hexact)
    show firstPlace (site.fillIn value' _).2 = firstPlace (site.fillIn value _).2
    rw [hfillPlace, hfillPlace', hownPlace, hownPlace', hhead,
      show first'.code = first.code from congrArg Prod.fst hhead]

end Site

/-! ### Alternatives -/

namespace AlternativesForm

variable {check : Check} {site : Site} (h : site.Early check)

/-- Failures of entries, put together, are failures. -/
theorem unmatched_ne {failures : List (List Report)} (hne : ∀ reports ∈ failures, reports ≠ [])
    (site : Site) (value : Value) : unmatched site value failures ≠ [] := by
  have hflatten (first second : List Report) (rest : List (List Report))
      (hfirst : first ≠ []) : (first :: second :: rest).flatten ≠ [] := by
    rw [List.flatten_cons]
    exact List.append_ne_nil_of_left_ne_nil hfirst _
  unfold unmatched
  split
  · exact List.cons_ne_nil _ _
  · exact hne _ (List.mem_singleton_self _)
  next hnil hone =>
    -- two failures or more are joined, or given one after another
    obtain ⟨first, second, rest, rfl⟩ : ∃ first second rest,
        failures = first :: second :: rest := by
      cases failures with
      | nil => exact absurd rfl hnil
      | cons first rest =>
        cases rest with
        | nil => exact absurd rfl (hone first)
        | cons second rest => exact ⟨first, second, rest, rfl⟩
    have hjoined := hflatten first second rest (hne first (List.mem_cons_self ..))
    unfold joined
    split
    · dsimp only
      split
      · exact List.cons_ne_nil _ _
      · exact List.cons_ne_nil _ _
      · exact hjoined
    · exact hjoined

include h

/-- Both checks pick the same branch. -/
theorem pick_meets {condition : Condition Schema} {cases : List (Case Schema)}
    {otherwise : Option Schema}
    (hin : ∀ t ∈ (Match.conditional condition cases otherwise).schemas,
      (0, t) ∈ site.schema.visited)
    (value : Value) :
    Meets site.env (fun x y => y = x ∧ ∀ t ∈ x, (0, t) ∈ site.schema.visited)
      (pick check site value condition cases otherwise)
      (pick check site.collecting value condition cases otherwise) := by
  have hcondition : condition.map id = condition := by cases condition <;> rfl
  have hcases : cases.map (Case.map id) = cases := List.map_id'' Case.map_id cases
  -- whether values pass is asked until the first failure in either check
  have hasks (t : Schema) (input : Value) :=
    matches_iff_lockstep.mp (h.passes_self t input site.position site.prefs)
  have hpick :=
    pick_lockstep (f := id) (b := site.collecting) (fun t _ => hasks t) hin value fun _ _ => rfl
  rw [hcondition, hcases, Option.map_id_apply] at hpick
  refine (matches_iff_lockstep.mpr hpick).meets.mono fun x y hxy => ?_
  rw [Option.map_id_apply] at hxy
  exact hxy

/-- Entries that are tried one after another are the same up to the first failure,
whatever failed before. -/
theorem tryEntries_meets {form : AlternativesForm Schema}
    (hform : site.node.form = .alternatives form)
    {entries : List (Match Schema)}
    (hentries : ∀ entry ∈ entries, entry ∈ form.entries) (value : Value)
    {failures failures' : List (List Report)} (hne : ∀ reports ∈ failures, reports ≠ [])
    (hne' : ∀ reports ∈ failures', reports ≠ []) :
    Meets site.env (Outcome.Truncates site.IsExact)
      (form.tryEntries check site value failures entries)
      (form.tryEntries check site.collecting value failures' entries) := by
  -- where reports are compared there are no alternatives
  have hinexact : ¬site.IsExact := by
    intro hexact
    refine hexact.self ?_
    unfold Schema.kind
    rw [show site.schema.node.form = .alternatives form from hform]
    rfl
  induction entries generalizing failures failures' with
  | nil =>
    unfold tryEntries
    cases hbase : form.base with
    | none =>
      exact .pure
        (.failed (unmatched_ne hne _ _) (unmatched_ne hne' _ _) fun he => absurd he hinexact)
    | some base =>
      exact h.visited (visited_of_base hform hbase) value site.position
  | cons entry rest ih =>
    have ih {failures failures' : List (List Report)} :=
      @ih (fun entry hentry => hentries entry (List.mem_cons_of_mem _ hentry)) failures failures'
    have hin := visited_of_entry hform (hentries entry (List.mem_cons_self ..))
    cases entry with
    | attempt schema =>
      unfold tryEntries
      refine (h.visited (hin schema (List.mem_singleton_self _)) value site.position).bind ?_
      intro o o' ho
      rw [ho.ok]
      split
      next hok =>
        rw [ho.eq_of_ok hok]
        exact .pure (.refl o)
      -- a failure in both is put aside in both
      next hfails =>
        obtain ⟨hreports, hreports'⟩ := ho.reports_ne hfails
        refine ih ?_ ?_
        · intro reports hmem
          rcases List.mem_append.mp hmem with hold | hnew
          · exact hne reports hold
          · exact List.mem_singleton.mp hnew ▸ hreports
        · intro reports hmem
          rcases List.mem_append.mp hmem with hold | hnew
          · exact hne' reports hold
          · exact List.mem_singleton.mp hnew ▸ hreports'
    | conditional condition cases otherwise =>
      unfold tryEntries
      refine (pick_meets h hin value).bind ?_
      rintro _ picked ⟨rfl, hpicked⟩
      cases picked with
      | none => exact ih hne hne'
      | some branch => exact h.visited (hpicked branch rfl) value site.position

/-- Alternatives are the same up to the first failure. -/
theorem check_meets {form : AlternativesForm Schema} (hform : site.node.form = .alternatives form)
    (value : Value) :
    Meets site.env (Outcome.Truncates site.IsExact) (form.check check site value)
      (form.check check site.collecting value) :=
  tryEntries_meets h hform (fun _ hentry => hentry) value
    (fun _ hmem => absurd hmem List.not_mem_nil) fun _ hmem => absurd hmem List.not_mem_nil

end AlternativesForm

end Conform
