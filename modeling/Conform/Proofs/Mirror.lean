import Conform.Proofs.Alike
import Conform.Proofs.Questions

/-!
# Checks and their mirrors

The mirror of a check is the check by the schema with what is inside changed, at another
position. Where the change is one that checks of inner schemas do not notice, and the positions
agree on what the schema reads, a check and its mirror go through the same steps
(`Site.Mirror`). Marks that schemas bear are changed in this way, and so is nothing at all, when
one schema is checked at two positions.

What is asked of the inner checks is `Mirrors`: the check by `s` and the check by `f s` are in
lockstep at any two positions that agree on what `s` reads. The relation of the workshops is a
parameter of the lockstep, so that the same proofs serve for runs that share a workshop and for runs
whose workshops are the same but for marks.

Here the steps of alternatives and of objects are shown to be mirrored. For each of the two types it
is said first which schemas it hands values on to, and whether the value itself or what is below it
(`visited_of_schemas` and the lemmas after it), since that is what tells which positions have to
agree. The steps that run no inner check are then equal in both (`…_mirror`), and those that do are
in lockstep (`…_mirrors`), loops by induction on what is still to be gone through. Arrays have a
module of their own, because of the outcomes that they recall.
-/

namespace Conform

/-- The check gives the same by `s` and by `f s`, wherever what `s` reads is the same. -/
def Mirrors (W : Workshop → Workshop → Prop) (env : Environment) (check : Check)
    (f : Schema → Schema) (s : Schema) :
    Prop :=
  ∀ value p q prefs, Schema.Agree env s p q →
    Lockstep W Eq (check s value p prefs) (check (f s) value q prefs)

/-- Whether a schema passes is the same in the mirror. -/
theorem Mirrors.passes {W : Workshop → Workshop → Prop} {env : Environment} {check : Check}
    {f : Schema → Schema}
    {s : Schema} (h : Mirrors W env check f s) {p q : Position}
    (hq : Schema.Agree env s p q) (value : Value) (prefs : Preferences) :
    Lockstep W Eq (check.passes s value p prefs) (check.passes (f s) value q prefs) :=
  (h value p q _ hq).bind fun _ _ heq => .pure (congrArg Outcome.isOk heq)

namespace Site

/-- What is known of a site and its mirror: they agree on what is read, and what is inside may
be checked either way. -/
structure Mirror (W : Workshop → Workshop → Prop) (check : Check) (f : Schema → Schema)
    (a b : Site) : Prop where
  alike : Site.Alike f a b
  prefs : b.prefs = a.prefs
  agree : Schema.Agree a.env a.schema a.position b.position
  inner : ∀ levels t, (levels, t) ∈ a.schema.visited → Mirrors W a.env check f t

namespace Mirror

variable {W : Workshop → Workshop → Prop} {check : Check} {f : Schema → Schema} {a b : Site}
  (h : a.Mirror W check f b)

include h

/-- Checks of what the node itself hands on. -/
theorem near {t : Schema} (ht : (0, t) ∈ a.schema.visited) (value : Value) (prefs : Preferences) :
    Lockstep W Eq (check t value a.position prefs) (check (f t) value b.position prefs) :=
  h.inner 0 t ht value _ _ prefs (h.agree.visited_zero ht)

/-- A schema that is checked on the value itself passes in the mirror or fails
there, as it does here. -/
theorem near_passes {t : Schema} (ht : (0, t) ∈ a.schema.visited) (value : Value)
    (prefs : Preferences) :
    Lockstep W Eq (check.passes t value a.position prefs)
      (check.passes (f t) value b.position prefs) :=
  (h.inner 0 t ht).passes (h.agree.visited_zero ht) value prefs

/-- Checks of what stands one level further in. -/
theorem below {t : Schema} (ht : (1, t) ∈ a.schema.visited) (segment : Segment)
    (parent value : Value) (prefs : Preferences) :
    Lockstep W Eq (check t value (a.position.nest segment parent) prefs)
      (check (f t) value (b.position.nest segment parent) prefs) :=
  h.inner 1 t ht value _ _ prefs (h.agree.nest ht segment parent)

/-- A schema that is checked on what is below the value passes in the mirror or fails
there, as it does here. -/
theorem below_passes {t : Schema} (ht : (1, t) ∈ a.schema.visited) (segment : Segment)
    (parent value : Value) (prefs : Preferences) :
    Lockstep W Eq (check.passes t value (a.position.nest segment parent) prefs)
      (check.passes (f t) value (b.position.nest segment parent) prefs) :=
  (h.inner 1 t ht).passes (h.agree.nest ht segment parent) value prefs

end Mirror

end Site

variable {W : Workshop → Workshop → Prop} {check : Check} {f : Schema → Schema} {a b : Site}

/-! ### What alternatives hand values on to -/

namespace AlternativesForm

section

variable {s : Schema} {form : AlternativesForm Schema} (hform : s.node.form = .alternatives form)

include hform

/-- Alternatives hand the value itself on to their entries. -/
theorem visited_of_schemas {t : Schema} (ht : t ∈ form.schemas) : (0, t) ∈ s.visited := by
  unfold Schema.visited Node.visited
  refine List.mem_append_right _ ?_
  rw [hform]
  exact List.mem_map_of_mem ht

/-- Alternatives hand the value itself on to their base. -/
theorem visited_of_base {t : Schema} (ht : form.base = some t) : (0, t) ∈ s.visited :=
  visited_of_schemas hform (List.mem_append_right _ (Option.mem_toList.mpr ht))

/-- What an entry has inside is handed the value itself. -/
theorem visited_of_entry {entry : Match Schema} (hentry : entry ∈ form.entries) :
    ∀ t ∈ entry.schemas, (0, t) ∈ s.visited := fun _ ht =>
  visited_of_schemas hform (List.mem_append_left _ (List.mem_flatMap.mpr ⟨entry, hentry, ht⟩))

/-- The reference of a conditional is resolved by the node. -/
theorem resolved_of_entry {entry : Match Schema} (hentry : entry ∈ form.entries) :
    ∀ r ∈ entry.reference?, r ∈ s.node.resolved := by
  intro r hr
  refine List.mem_append_right _ ?_
  rw [hform]
  exact List.mem_filterMap.mpr ⟨entry, hentry, hr⟩

end

/-! ### Alternatives -/

variable (h : a.Mirror W check f b)

include h

/-- The branch picked is the same but for the change, and one that the node hands values on to. -/
theorem pick_mirrors {condition : Condition Schema} {cases : List (Case Schema)}
    {otherwise : Option Schema}
    (hin : ∀ t ∈ (Match.conditional condition cases otherwise).schemas, (0, t) ∈ a.schema.visited)
    (hreference : ∀ r ∈ condition.reference?, r ∈ a.node.resolved) (value : Value) :
    Lockstep W (fun x y => y = x.map f ∧ ∀ t ∈ x, (0, t) ∈ a.schema.visited)
      (pick check a value condition cases otherwise)
      (pick check b value (condition.map f) (cases.map (Case.map f)) (otherwise.map f)) := by
  refine pick_lockstep (fun t ht input => ?_) hin value fun r hr =>
    h.alike.resolve (hreference r hr) value
  rw [h.prefs]
  exact h.near_passes ht input a.prefs

/-- That nothing matched is reported alike. -/
theorem unmatched_mirror (value : Value) (failures : List (List Report)) :
    unmatched b value failures = unmatched a value failures := by
  have hdepth : b.position.depth = a.position.depth := congrArg List.length h.agree.path
  unfold unmatched joined isTypeMismatch
  rw [h.alike.report, hdepth]

/-- Entries are tried in step, with the same failures so far. -/
theorem tryEntries_mirrors {form : AlternativesForm Schema}
    (hform : a.node.form = .alternatives form)
    {entries : List (Match Schema)}
    (hentries : ∀ entry ∈ entries, entry ∈ form.entries) (value : Value)
    (failures : List (List Report)) :
    Lockstep W Eq (form.tryEntries check a value failures entries)
      ((form.map f).tryEntries check b value failures (entries.map (Match.map f))) := by
  induction entries generalizing failures with
  | nil =>
    rw [List.map_nil]
    unfold tryEntries
    dsimp only [AlternativesForm.map]
    -- nothing matched: the base decides, if there is one
    cases hbase : form.base with
    | none => exact .pure (by rw [unmatched_mirror h])
    | some base =>
      dsimp only [Option.map]
      rw [h.prefs]
      exact h.near (visited_of_base hform hbase) value a.prefs
  | cons entry rest ih =>
    have ih := ih fun entry hentry => hentries entry (List.mem_cons_of_mem _ hentry)
    have hentry := hentries entry (List.mem_cons_self ..)
    have hin := visited_of_entry hform hentry
    rw [List.map_cons]
    cases entry with
    | attempt schema =>
      unfold tryEntries
      dsimp only [Match.map]
      rw [h.prefs]
      refine (h.near (hin schema (List.mem_singleton_self _)) value a.prefs).bind ?_
      rintro outcome _ rfl
      split
      · exact .pure rfl
      · exact ih _
    | conditional condition cases otherwise =>
      unfold tryEntries
      dsimp only [Match.map]
      refine (pick_mirrors h hin (resolved_of_entry hform hentry) value).bind ?_
      rintro picked _ ⟨rfl, hpicked⟩
      cases picked with
      | none => exact ih failures
      | some branch =>
        dsimp only [Option.map]
        rw [h.prefs]
        exact h.near (hpicked branch rfl) value a.prefs

/-- Alternatives come to the same in the mirror. -/
theorem check_mirrors {form : AlternativesForm Schema}
    (hform : a.node.form = .alternatives form) (value : Value) :
    Lockstep W Eq (form.check check a value) ((form.map f).check check b value) :=
  tryEntries_mirrors h hform (fun _ hentry => hentry) value []

end AlternativesForm

/-! ### Objects -/

/-- A loop is mirrored if its turns are. -/
theorem ObjectPass.forEach_mirrors {α β : Type} {step : ObjectPass → α → Run ObjectPass}
    {step' : ObjectPass → β → Run ObjectPass} {change : α → β} {items : List α}
    (hstep : ∀ p, ∀ item ∈ items, Lockstep W Eq (step p item) (step' p (change item)))
    (p : ObjectPass) :
    Lockstep W Eq (p.forEach step items) (p.forEach step' (items.map change)) := by
  induction items generalizing p with
  | nil => exact .pure rfl
  | cons item rest ih =>
    rw [List.map_cons]
    unfold forEach
    split
    · exact .pure rfl
    · refine (hstep p item (List.mem_cons_self ..)).bind ?_
      rintro next _ rfl
      exact ih (fun p item hitem => hstep p item (List.mem_cons_of_mem _ hitem)) next

namespace ObjectForm

/-- The order of children is one of keys, so the change keeps it. -/
theorem orderedChildren_map (f : Schema → Schema) (form : ObjectForm Schema) :
    (form.map f).orderedChildren = mapChildren f form.orderedChildren := by
  unfold orderedChildren
  rw [children_map]
  show form.order.filterMap _ = mapChildren f _
  unfold mapChildren
  rw [List.map_filterMap]
  congr 1
  funext key
  rw [show List.map (fun child : String × Schema => (child.1, f child.2)) form.children =
    mapChildren f form.children from rfl, get?_mapChildren, Option.map_map, Option.map_map]
  rfl

/-- Children in order are children. -/
theorem mem_of_mem_orderedChildren {form : ObjectForm Schema} {child : String × Schema}
    (h : child ∈ form.orderedChildren) : child ∈ form.children := by
  obtain ⟨key, -, hkey⟩ := List.mem_filterMap.mp h
  obtain ⟨schema, hget, rfl⟩ := Option.map_eq_some_iff.mp hkey
  exact Members.mem_of_get? hget

section

variable {s : Schema} {form : ObjectForm Schema} (hform : s.node.form = .object form)

include hform

/-- Objects hand their members on to what is inside. -/
theorem visited_of_schemas {t : Schema} (ht : t ∈ (Form.object form).schemas) :
    (1, t) ∈ s.visited := by
  unfold Schema.visited Node.visited
  refine List.mem_append_right _ ?_
  rw [hform]
  exact List.mem_map_of_mem ht

/-- A child is handed the member under its key. -/
theorem visited_of_child {child : String × Schema} (hchild : child ∈ form.orderedChildren) :
    (1, child.2) ∈ s.visited :=
  visited_of_schemas hform
    (List.mem_append_left _ (List.mem_map_of_mem (mem_of_mem_orderedChildren hchild)))

/-- The schemas of a key pattern are handed a key or the member under it. -/
theorem visited_of_pattern {pattern : KeyPattern Schema} (hpattern : pattern ∈ form.patterns) :
    ∀ t ∈ pattern.schemas, (1, t) ∈ s.visited := fun _ ht =>
  visited_of_schemas hform (List.mem_append_right _ (List.mem_flatMap.mpr ⟨pattern, hpattern, ht⟩))

end

variable (h : a.Mirror W check f b)

include h

/-! Steps that check nothing inside are the same in the mirror. -/

/-- A failure is taken up alike. -/
theorem fail_mirror (p : ObjectPass) (reports : List Report) :
    p.fail b reports = p.fail a reports := by
  unfold ObjectPass.fail
  rw [h.prefs]

theorem failEach_mirror (p : ObjectPass) (reports : List Report) :
    p.failEach b reports = p.failEach a reports := by
  unfold ObjectPass.failEach
  simp only [fail_mirror h]

/-- What comes of a child is taken over alike. -/
theorem takeChild_mirror : takeChild b = takeChild a := by
  funext p key outcome
  unfold takeChild
  rw [fail_mirror h]

/-- What comes of an undeclared key is taken over alike. -/
theorem takeMatched_mirror : takeMatched b = takeMatched a := by
  funext p key outcome
  unfold takeMatched
  rw [fail_mirror h]

/-- Renames look at keys alone. -/
theorem applyRenames_mirror (renames : List Rename) (taken : List String) (p : ObjectPass) :
    applyRenames b taken p renames = applyRenames a taken p renames := by
  induction renames generalizing taken p with
  | nil => rfl
  | cons rename rest ih =>
    unfold applyRenames
    simp only [ih, h.alike.report, fail_mirror h]

/-- Dependencies look at which keys are there. -/
theorem checkDependencies_mirror (form : ObjectForm Schema) (p : ObjectPass) :
    (form.map f).checkDependencies b p = form.checkDependencies a p := by
  unfold checkDependencies dependencyReports
  simp only [h.alike.report, failEach_mirror h]
  rfl

theorem unknownReport_mirror (p : ObjectPass) (key : String) :
    unknownReport b p key = unknownReport a p key := by
  unfold unknownReport
  rw [h.alike.path]
  exact congrFun
    (congrFun (congrFun (reportAt_congr (congrArg Flags.label h.alike.flags) rfl) _) _) _

/-- Keys that nothing is about are kept, taken away or reported alike. -/
theorem settleUnknown_mirror (form : ObjectForm Schema) (p : ObjectPass) (keys : List String) :
    (form.map f).settleUnknown b p keys = form.settleUnknown a p keys := by
  have hkeys : (form.map f).keys.isNone = form.keys.isNone := Option.isNone_map
  have hpatterns : (form.map f).patterns.isEmpty = form.patterns.isEmpty := List.isEmpty_map
  have hreports : keys.map (unknownReport b p) = keys.map (unknownReport a p) :=
    List.map_congr_left fun key _ => unknownReport_mirror h p key
  unfold settleUnknown
  rw [hreports, hkeys, hpatterns, failEach_mirror h, h.prefs]
  rfl

/-! Steps that check what is inside. -/

/-- Children are checked in step. -/
theorem checkChildren_mirrors {form : ObjectForm Schema}
    (hform : a.node.form = .object form) (p : ObjectPass) :
    Lockstep W Eq (form.checkChildren check a p) ((form.map f).checkChildren check b p) := by
  unfold checkChildren
  rw [orderedChildren_map]
  refine Lockstep.bind (ObjectPass.forEach_mirrors (fun p child hchild => ?_) p) ?_
  · unfold checkChild
    dsimp only
    rw [h.prefs, takeChild_mirror h]
    refine (h.below (visited_of_child hform hchild) (.key child.1) p.value _ a.prefs).bind ?_
    rintro outcome _ rfl
    exact .pure rfl
  · rintro p _ rfl
    exact .pure rfl

/-- A pattern is about a key in the mirror just if it is about it here. -/
theorem isAbout_mirrors {matcher : KeyMatcher Schema}
    (hin : ∀ t ∈ matcher.schema?, (1, t) ∈ a.schema.visited) (key : String) (parent : Value) :
    Lockstep W Eq (isAbout check a (a.position.nest (.key key) parent) key matcher)
      (isAbout check b (b.position.nest (.key key) parent) key (matcher.map f)) := by
  refine isAbout_lockstep fun t ht => ?_
  rw [h.prefs]
  exact h.below_passes (hin t ht) (.key key) parent _ a.prefs

/-- Patterns are tried on a key in step. -/
theorem checkPatterns_mirrors {patterns : List (KeyPattern Schema)}
    (hin : ∀ pattern ∈ patterns, ∀ t ∈ pattern.schemas, (1, t) ∈ a.schema.visited)
    (p : ObjectPass) (key : String) : Lockstep W Eq (checkPatterns check a p key patterns)
      (checkPatterns check b p key (patterns.map (KeyPattern.map f))) := by
  induction patterns with
  | nil => exact .pure rfl
  | cons pattern rest ih =>
    have ih := ih fun pattern hpattern => hin pattern (List.mem_cons_of_mem _ hpattern)
    have hhead := hin pattern (List.mem_cons_self ..)
    rw [List.map_cons]
    unfold checkPatterns
    refine (isAbout_mirrors h (fun t ht => hhead t (List.mem_append_left _
      (Option.mem_toList.mpr ht))) key p.value).bind ?_
    rintro about _ rfl
    cases about with
    | false => exact ih
    | true =>
      have hschema := hhead pattern.schema (List.mem_append_right _ (List.mem_singleton_self _))
      dsimp only [KeyPattern.map]
      rw [h.prefs, takeMatched_mirror h]
      refine (h.below hschema (.key key) p.value _ a.prefs).bind ?_
      rintro outcome _ rfl
      exact .pure rfl

variable {form : ObjectForm Schema} (hform : a.node.form = .object form)

include hform

/-- Undeclared keys are gone through in step. -/
theorem checkUndeclared_mirrors (p : ObjectPass) (left keys : List String) :
    Lockstep W Eq (form.checkUndeclared check a p left keys)
      ((form.map f).checkUndeclared check b p left keys) := by
  induction keys generalizing p left with
  | nil => exact .pure rfl
  | cons key rest ih =>
    unfold checkUndeclared
    split
    · exact .pure rfl
    · refine (checkPatterns_mirrors h
        (fun _ hpattern => visited_of_pattern hform hpattern) p key).bind ?_
      rintro matched _ rfl
      cases matched with
      | none => exact ih p _
      | some p => exact ih p left

theorem checkUnknown_mirrors (p : ObjectPass) (keys : List String) :
    Lockstep W Eq (form.checkUnknown check a p keys)
      ((form.map f).checkUnknown check b p keys) := by
  refine (checkUndeclared_mirrors h hform p [] keys).bind ?_
  rintro ⟨p, keys⟩ _ rfl
  refine .pure ?_
  rw [settleUnknown_mirror h]

/-- The phases follow each other in step. -/
theorem checkMembers_mirrors (members : List (String × Value)) :
    Lockstep W Eq (form.checkMembers check a members)
      ((form.map f).checkMembers check b members) := by
  have hdeclared : (form.map f).orderedChildren.map (·.1) = form.orderedChildren.map (·.1) := by
    rw [orderedChildren_map]
    exact keys_mapChildren _ _
  unfold checkMembers
  rw [hdeclared, show (form.map f).renames = form.renames from rfl, applyRenames_mirror h]
  dsimp only
  split
  · exact .pure rfl
  · refine (checkChildren_mirrors h hform _).bind ?_
    rintro p _ rfl
    split
    · exact .pure rfl
    · refine (checkUnknown_mirrors h hform p _).bind ?_
      rintro p _ rfl
      split
      · exact .pure rfl
      · exact .pure (checkDependencies_mirror h form p).symm

theorem base_mirrors (value : Value) :
    Lockstep W Eq (form.base check a value) ((form.map f).base check b value) := by
  have hplain : (form.map f).isPlain = form.isPlain := by
    have hkeys : (form.map f).keys.isNone = form.keys.isNone := Option.isNone_map
    have hpatterns : (form.map f).patterns.isEmpty = form.patterns.isEmpty := List.isEmpty_map
    unfold isPlain
    rw [hkeys, hpatterns]
    rfl
  unfold base
  rw [hplain, h.alike.report]
  cases value with
  | object members =>
    dsimp only
    split
    · exact .pure rfl
    · refine (checkMembers_mirrors h hform members).bind ?_
      rintro p _ rfl
      exact .pure rfl
  | _ => exact .pure rfl

end ObjectForm

end Conform
