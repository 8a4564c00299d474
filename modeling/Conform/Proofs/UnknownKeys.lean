import Conform.Proofs.Phase
import Conform.Proofs.Renames

/-!
# Keys that nothing is about

Every phase of the check of an object reads and writes under the keys that it is about: renames
under their source and target, children under their own key, patterns under the keys they match.
What stands under other keys stays there, entry by entry (`ObjectPass.Retains`). So a key that
nothing is about has its member still when the check is over, whether it passes or not, unless
unknown keys are stripped.

Which keys patterns are about is found out on the way. A `Sweep` is the record of the undeclared
keys as they are held against the patterns: those that match, and those left.

The invariant speaks of the entries under some set of keys, in the order in which they stand, and of
the keys that are marked to be dropped (`ObjectPass.Retains`). Each operation on a working copy
keeps it if its own key is not in the set: writing, erasing, reporting and marking. The phases are
built of these operations, so each of them keeps it for the keys that it is not about, and no phase
had to be looked at in detail twice.

The record of a sweep has the undeclared keys in their order, each held against the patterns. A
pattern is about a key by its text, or by a schema that is asked whether it accepts the key; so
which keys match is known only after the run, and the record says it. What is left after the
sweep are the unknown keys.

Main statement: `member_untouched`.
-/

namespace Conform

/-- A matcher that is not about a key. -/
def KeyMatcher.Ignores (check : Check) (site : Site) (key : String) : KeyMatcher Schema → Prop
  | .pattern p => p.isMatch key = false
  | .schema s =>
    ∀ position w w', (check.passes s (.string key) position site.prefs).run w ≠ some (true, w')

namespace ObjectForm

/-- Nothing in the form is about the key. -/
structure Ignores (form : ObjectForm Schema) (check : Check) (site : Site)
    (key : String) : Prop where
  renames : ∀ rename ∈ form.renames, rename.source ≠ key ∧ rename.target ≠ key
  children : key ∉ Members.keys form.children
  patterns : ∀ pattern ∈ form.patterns, pattern.matcher.Ignores check site key

/-- Unknown keys are not stripped. -/
def Spares (form : ObjectForm Schema) (site : Site) : Prop :=
  site.prefs.stripUnknown.objects = false ∨ form.unknown = some true

end ObjectForm

/-! ### What a working copy retains -/

namespace ObjectPass

/-- The working copy has these entries under the keys in question, and will drop none of them. -/
structure Retains (keep : String → Bool) (entries : List (String × Value))
    (p : ObjectPass) : Prop where
  entries : Members.among p.members keep = entries
  spared : ∀ key ∈ p.stripped, keep key = false

variable {keep : String → Bool} {other : String} {entries : List (String × Value)} {p : ObjectPass}

theorem Retains.fail (h : p.Retains keep entries) (site : Site) (reports : List Report) :
    (p.fail site reports).Retains keep entries := by
  unfold ObjectPass.fail
  split
  · exact h
  · exact ⟨h.entries, h.spared⟩

theorem Retains.failEach (h : p.Retains keep entries) (site : Site) (reports : List Report) :
    (p.failEach site reports).Retains keep entries :=
  forEach_keeps (Q := Retains keep entries) (fun _ report _ hp => hp.fail site [report]) h

theorem Retains.write (h : p.Retains keep entries) (hother : keep other = false) (value : Value) :
    (p.write other value).Retains keep entries :=
  ⟨(Members.among_insert hother value).trans h.entries, h.spared⟩

theorem Retains.erase (h : p.Retains keep entries) (hother : keep other = false) :
    (p.erase other).Retains keep entries :=
  ⟨(Members.among_erase hother).trans h.entries, h.spared⟩

theorem Retains.eraseAll {keys : List String} (h : p.Retains keep entries)
    (hkeys : ∀ key ∈ keys, keep key = false) : (p.eraseAll keys).Retains keep entries := by
  induction keys generalizing p with
  | nil => exact h
  | cons first rest ih =>
    obtain ⟨hfirst, hrest⟩ := List.forall_mem_cons.mp hkeys
    exact ih (h.erase hfirst) hrest

end ObjectPass

namespace ObjectForm

open ObjectPass

variable {keep : String → Bool} {key other : String} {entries : List (String × Value)}
  {p result : ObjectPass} {check : Check} {site : Site} {form : ObjectForm Schema} {w w' : Workshop}

theorem retains_applyRenames (taken : List String) {renames : List Rename}
    (h : p.Retains keep entries)
    (hrenames : ∀ rename ∈ renames, keep rename.source = false ∧ keep rename.target = false) :
    (applyRenames site taken p renames).Retains keep entries := by
  refine ⟨(among_applyRenames site renames taken p hrenames).trans h.entries, ?_⟩
  rw [stripped_applyRenames]
  exact h.spared

/-- A child is kept, taken away or marked to be dropped under its own key. -/
theorem retains_takeChild (h : p.Retains keep entries) (hother : keep other = false) (o : Outcome) :
    (takeChild site p other o).Retains keep entries := by
  have hspared : ∀ key ∈ p.stripped ++ [other], keep key = false :=
    List.forall_mem_append.mpr ⟨h.spared, List.forall_mem_singleton.mpr hother⟩
  unfold takeChild keepChild
  split
  · exact h.fail site _
  · split
    · dsimp only
      split
      · exact ⟨(Members.among_insert hother _).trans h.entries, hspared⟩
      · exact ⟨h.entries, hspared⟩
    · split
      · exact h.write hother _
      · split
        · exact h.erase hother
        · exact h

theorem Phase.retains {visits : List Visit} (hphase : Phase check site p w visits result w')
    (h : p.Retains keep entries) (hvisits : ∀ v ∈ visits, keep v.key = false) :
    result.Retains keep entries := by
  induction hphase with
  | done => exact h
  | visit _ _ _ ih =>
    obtain ⟨hfirst, hrest⟩ := List.forall_mem_cons.mp hvisits
    exact ih (retains_takeChild h hfirst _) hrest

theorem retains_checkChildren (h : p.Retains keep entries) (hp : p.stopped = false)
    (hkeep : ∀ child ∈ form.orderedChildren, keep child.1 = false)
    (hrun : (form.checkChildren check site p).run w = some (result, w')) :
    result.Retains keep entries := by
  obtain ⟨last, w₁, heach, hpure⟩ := Runs.bind_some hrun
  obtain ⟨rfl, rfl⟩ := Runs.pure_some hpure
  obtain ⟨visits, rest, hsplit, hphase, -, -⟩ := Phase.of_forEach hp heach
  have hlast : last.Retains keep entries := by
    refine Phase.retains hphase h fun v hv => hkeep v.child ?_
    rw [hsplit]
    exact List.mem_append_left _ (List.mem_map_of_mem hv)
  split
  · exact hlast
  · exact hlast.eraseAll hlast.spared

/-! ### Patterns -/

/-- A pattern writes under the key that it is about. -/
theorem checkPatterns_some {patterns : List (KeyPattern Schema)} {next : ObjectPass}
    (hrun : (checkPatterns check site p key patterns).run w = some (some next, w')) :
    (∃ pattern ∈ patterns, ∃ position w₁ w₂,
      (isAbout check site position key pattern.matcher).run w₁ = some (true, w₂)) ∧
    ∃ o, next = takeMatched site p key o := by
  induction patterns generalizing w with
  | nil => exact nomatch (Runs.pure_some hrun).1
  | cons pattern rest ih =>
    unfold checkPatterns at hrun
    obtain ⟨about, w₁, habout, hmore⟩ := Runs.bind_some hrun
    cases about with
    | false =>
      obtain ⟨⟨other, hin, hother⟩, hnext⟩ := ih hmore
      exact ⟨⟨other, List.mem_cons_of_mem _ hin, hother⟩, hnext⟩
    | true =>
      obtain ⟨o, w₂, -, hpure⟩ := Runs.bind_some hmore
      obtain ⟨hnext, -⟩ := Runs.pure_some hpure
      exact ⟨⟨pattern, List.mem_cons_self .., _, w, w₁, habout⟩, o, (Option.some.inj hnext).symm⟩

theorem retains_takeMatched (h : p.Retains keep entries)
    (hother : keep other = false) (o : Outcome) :
    (takeMatched site p other o).Retains keep entries := by
  unfold takeMatched keepMatched
  split
  · exact h.fail site _
  · split
    · exact h.erase hother
    · exact h.write hother _

end ObjectForm

/-- Undeclared keys held against the patterns one after another: those that a pattern is about, and
those that are left. It ends early only if the check does. -/
inductive Sweep (check : Check) (site : Site) (patterns : List (KeyPattern Schema)) :
    ObjectPass → Workshop → List String → List String → List String → ObjectPass → Workshop → Prop
  | done {p : ObjectPass} {w : Workshop} : Sweep check site patterns p w [] [] [] p w
  | ended {p : ObjectPass} {w : Workshop} {keys : List String} : p.stopped = true →
      Sweep check site patterns p w keys [] [] p w
  | matched {p next last : ObjectPass} {w w₁ w₂ : Workshop} {key : String}
      {keys matched left : List String} :
      p.stopped = false → (ObjectForm.checkPatterns check site p key patterns).run w =
      some (some next, w₁) → Sweep check site patterns next w₁ keys matched left last w₂ →
      Sweep check site patterns p w (key :: keys) (key :: matched) left last w₂
  | left {p last : ObjectPass} {w w₁ w₂ : Workshop} {key : String}
      {keys matched left : List String} :
      p.stopped = false →
      (ObjectForm.checkPatterns check site p key patterns).run w = some (none, w₁) →
      Sweep check site patterns p w₁ keys matched left last w₂ →
      Sweep check site patterns p w (key :: keys) matched (key :: left) last w₂

namespace Sweep

variable {check : Check} {site : Site} {patterns : List (KeyPattern Schema)} {p last : ObjectPass}
  {w w' : Workshop} {keys matched left : List String}

/-- The phase of undeclared keys has a record. -/
theorem of_checkUndeclared {form : ObjectForm Schema} {before : List String}
    {result : ObjectPass × List String}
    (hrun : (form.checkUndeclared check site p before keys).run w = some (result, w')) :
    ∃ matched left, result.2 = before ++ left ∧
      Sweep check site form.patterns p w keys matched left result.1 w' := by
  induction keys generalizing p before w with
  | nil =>
    obtain ⟨rfl, rfl⟩ := Runs.pure_some hrun
    exact ⟨[], [], (List.append_nil _).symm, .done⟩
  | cons key rest ih =>
    unfold ObjectForm.checkUndeclared at hrun
    -- each key finds the pass ended, a pattern about it, or none
    cases hp : p.stopped with
    | true =>
      rw [if_pos hp] at hrun
      obtain ⟨rfl, rfl⟩ := Runs.pure_some hrun
      exact ⟨[], [], (List.append_nil _).symm, .ended hp⟩
    | false =>
      rw [if_neg (by rw [hp]; exact Bool.false_ne_true)] at hrun
      obtain ⟨next, w₁, hfirst, hrest⟩ := Runs.bind_some hrun
      cases next with
      | some next =>
        obtain ⟨matched, left, hall, hsweep⟩ := ih hrest
        exact ⟨key :: matched, left, hall, .matched hp hfirst hsweep⟩
      | none =>
        obtain ⟨matched, left, hall, hsweep⟩ := ih hrest
        refine ⟨matched, key :: left, ?_, .left hp hfirst hsweep⟩
        rw [hall, List.append_assoc, List.singleton_append]

/-- Only keys that match are written under. -/
theorem retains (h : Sweep check site patterns p w keys matched left last w') {keep : String → Bool}
    {entries : List (String × Value)} (hp : p.Retains keep entries)
    (hkeep : ∀ key ∈ matched, keep key = false) : last.Retains keep entries := by
  induction h with
  | done => exact hp
  | ended => exact hp
  | matched _ hrun _ ih =>
    obtain ⟨hkey, hrest⟩ := List.forall_mem_cons.mp hkeep
    obtain ⟨-, o, rfl⟩ := ObjectForm.checkPatterns_some hrun
    exact ih (ObjectForm.retains_takeMatched hp hkey o) hrest
  | left _ _ _ ih => exact ih hp hkeep

/-- A key that matches is one that a pattern is about. -/
theorem about (h : Sweep check site patterns p w keys matched left last w') {key : String}
    (hkey : key ∈ matched) : ∃ pattern ∈ patterns, ∃ position w₁ w₂,
      (ObjectForm.isAbout check site position key pattern.matcher).run w₁ = some (true, w₂) := by
  induction h with
  | done => exact nomatch hkey
  | ended => exact nomatch hkey
  | matched _ hrun _ ih =>
    rcases List.mem_cons.mp hkey with rfl | hrest
    · exact (ObjectForm.checkPatterns_some hrun).1
    · exact ih hrest
  | left _ _ _ ih => exact ih hkey

end Sweep

/-- A matcher that ignores a key is not about it. -/
theorem KeyMatcher.Ignores.not_about {check : Check} {site : Site} {key : String}
    {matcher : KeyMatcher Schema}
    (h : matcher.Ignores check site key) {position : Position} {w w' : Workshop} :
    (ObjectForm.isAbout check site position key matcher).run w ≠ some (true, w') := by
  intro hrun
  cases matcher with
  | pattern regex =>
    obtain ⟨hmatch, -⟩ := Runs.pure_some hrun
    exact absurd (hmatch.symm.trans h) (by decide)
  | schema schema => exact h _ _ _ hrun

namespace ObjectForm

open ObjectPass

variable {keep : String → Bool} {key : String} {value : Value} {entries : List (String × Value)}
  {p result : ObjectPass} {check : Check} {site : Site} {form : ObjectForm Schema} {w w' : Workshop}

/-! ### The whole -/

/-- Unknown keys are dropped only if they are stripped. -/
theorem retains_settleUnknown {keys : List String} (h : p.Retains keep entries)
    (hkeep : form.Spares site ∨ ∀ key ∈ keys, keep key = false) :
    (form.settleUnknown site p keys).Retains keep entries := by
  unfold settleUnknown
  split
  · exact h
  · split
    next hstrips =>
      refine h.eraseAll (hkeep.resolve_left ?_)
      rintro (hstays | hallowed)
      · simp [hstays] at hstrips
      · simp [hallowed] at hstrips
    next =>
      split
      · exact h
      · exact h.failEach site _

theorem retains_checkDependencies (h : p.Retains keep entries) :
    (form.checkDependencies site p).Retains keep entries :=
  forEach_keeps (Q := Retains keep entries)
    (fun p d _ hp => hp.failEach site (dependencyReports site p.value d)) h

theorem Ignores.retains_checkUnknown {keys : List String} (hignores : form.Ignores check site key)
    (hspares : form.Spares site) (h : p.Retains (key == ·) entries)
    (hrun : (form.checkUnknown check site p keys).run w = some (result, w')) :
    result.Retains (key == ·) entries := by
  obtain ⟨⟨after, left⟩, w₁, hundeclared, hpure⟩ := Runs.bind_some hrun
  obtain ⟨rfl, rfl⟩ := Runs.pure_some hpure
  obtain ⟨matched, _, -, hsweep⟩ := Sweep.of_checkUndeclared hundeclared
  have hafter : after.Retains (key == ·) entries := by
    -- a key that matches is not this one, since no pattern is about this one
    refine hsweep.retains h fun other hother => beq_eq_false_iff_ne.mpr ?_
    rintro rfl
    obtain ⟨pattern, hin, _, _, _, habout⟩ := hsweep.about hother
    exact (hignores.patterns pattern hin).not_about habout
  split
  · exact hafter
  · exact retains_settleUnknown hafter (.inl hspares)

theorem Ignores.retains_checkMembers {members : List (String × Value)}
    (hignores : form.Ignores check site key)
    (hspares : form.Spares site)
    (hrun : (form.checkMembers check site members).run w = some (result, w')) :
    result.Retains (key == ·) (Members.among members (key == ·)) := by
  have hother {other : String} (h : other ≠ key) : (key == other) = false :=
    beq_eq_false_iff_ne.mpr h.symm
  have hrenamed : (applyRenames site [] { members } form.renames).Retains (key == ·)
      (Members.among members (key == ·)) :=
    retains_applyRenames [] ⟨rfl, List.forall_mem_nil _⟩ fun rename hrename =>
      ⟨hother (hignores.renames rename hrename).1, hother (hignores.renames rename hrename).2⟩
  unfold checkMembers at hrun
  dsimp only at hrun
  -- renames, then children, then undeclared keys, then dependencies: none is about the key
  generalize applyRenames site [] { members } form.renames = p at hrenamed hrun
  split at hrun
  · obtain ⟨rfl, rfl⟩ := Runs.pure_some hrun
    exact hrenamed
  next hgoes =>
    obtain ⟨checked, w₁, hchildren, hrun⟩ := Runs.bind_some hrun
    have hchecked := retains_checkChildren hrenamed (by simpa using hgoes)
      (fun child hchild => hother fun heq => hignores.children
        (heq ▸ List.mem_map_of_mem (f := Prod.fst) (mem_of_mem_orderedChildren hchild))) hchildren
    split at hrun
    · obtain ⟨rfl, rfl⟩ := Runs.pure_some hrun
      exact hchecked
    · obtain ⟨settled, w₂, hunknown, hrun⟩ := Runs.bind_some hrun
      have hsettled := hignores.retains_checkUnknown hspares hchecked hunknown
      split at hrun
      · obtain ⟨rfl, rfl⟩ := Runs.pure_some hrun
        exact hsettled
      · obtain ⟨rfl, rfl⟩ := Runs.pure_some hrun
        exact retains_checkDependencies hsettled

/-- A member under a key that nothing is about is the same after the check, unless unknown keys are
stripped. -/
theorem member_untouched {members : List (String × Value)} {o : Outcome}
    (hignores : form.Ignores check site key) (hspares : form.Spares site)
    (hmember : Members.get? members key = some value)
    (hrun : (form.base check site (.object members)).run w = some (o, w')) :
    o.value.get? key = some value := by
  unfold base at hrun
  dsimp only at hrun
  split at hrun
  · obtain ⟨rfl, rfl⟩ := Runs.pure_some hrun
    exact hmember
  · obtain ⟨last, w₁, hmembers, hpure⟩ := Runs.bind_some hrun
    obtain ⟨rfl, rfl⟩ := Runs.pure_some hpure
    have hsame : (key == key) = true := beq_self_eq_true key
    have hretains := (hignores.retains_checkMembers hspares hmembers).entries
    show Members.get? last.members key = some value
    have hlast : Members.get? (Members.among last.members (key == ·)) key =
        Members.get? last.members key :=
      Members.get?_among hsame
    rw [← hlast, hretains, Members.get?_among hsame]
    exact hmember

end ObjectForm

end Conform
