import Conform.Proofs.Keeping
import Conform.Proofs.Sets

/-!
# Checks that change nothing

A check that neither converts nor strips, by schemas that put nothing in, take nothing away and call
no function, gives back the value that it was given (`Outcome.Returns`). That a value passes
matters: what a failed check leaves of an array is unfinished. But the check of a missing value, by
which defaults are asked for, comes to no value even if it fails.

Here is what may not be asked of a schema (`Schema.IsReadOnly`), what is known of the checks inside
one (`Site.Strict`), and what follows for alternatives and for the phases of objects, in which the
working copy stays as it is (`ObjectPass.Still`).

What is asked of a schema is a list of absences: no default, no failover, no value that stands for
nothing, no stripping, no renaming, no array made of a single value, no function among the rules,
and of its preferences that they turn neither converting nor stripping on. None of this is assumed
of a whole tree at once. It is asked of one node, and of every schema that checks come across from
there, including those that generators make (`Leaves` carries it through runs).

For an object it is shown of each phase that the working copy holds the members it began with. A
phase may add reports, and mark keys as done; neither touches the copy. A phase over a list of keys
or patterns preserves this because each of its steps does (`forEach_leaves`).
-/

namespace Conform

/-! ### Values without holes -/

namespace Value

mutual
/-- Whether nothing inside the value is missing, at any depth. -/
def isWhole : Value → Bool
  | .array items => areWhole items
  | .object members => membersWhole members
  | _ => true

/-- No item has a hole in it. -/
def areWhole : List Value → Bool
  | [] => true
  | item :: rest => item.isDefined && isWhole item && areWhole rest

/-- No member has a hole in it. -/
def membersWhole : List (String × Value) → Bool
  | [] => true
  | (_, value) :: rest => value.isDefined && isWhole value && membersWhole rest
end

/-- An array has no holes if its items are there and have none. -/
theorem isWhole_array {items : List Value} :
    (Value.array items).isWhole = true ↔
    ∀ item ∈ items, item.isDefined = true ∧ item.isWhole = true := by
  rw [isWhole]
  induction items with
  | nil => simp [areWhole]
  | cons item rest ih =>
    rw [areWhole, Bool.and_eq_true, Bool.and_eq_true, ih, List.forall_mem_cons]

/-- An object has no holes if its members are there and have none. -/
theorem isWhole_object {members : List (String × Value)} :
    (Value.object members).isWhole = true ↔
      ∀ entry ∈ members, entry.2.isDefined = true ∧ entry.2.isWhole = true := by
  rw [isWhole]
  induction members with
  | nil => simp [membersWhole]
  | cons entry rest ih =>
    rw [membersWhole, Bool.and_eq_true, Bool.and_eq_true, ih, List.forall_mem_cons]

end Value

/-- Writing what is there changes nothing. -/
theorem Members.insert_of_get? {α : Type} {members : List (String × α)} {key : String} {value : α}
    (h : get? members key = some value) : insert members key value = members := by
  induction members with
  | nil => exact absurd h (by simp)
  | cons entry rest ih =>
    obtain ⟨k, v⟩ := entry
    rw [get?_cons] at h
    unfold insert
    by_cases hk : k = key
    · rw [if_pos hk] at h ⊢
      rw [Option.some.inj h, hk]
    · rw [if_neg hk] at h ⊢
      rw [ih h]

/-! ### Schemas that change nothing -/

/-- Nothing is converted, and no unknown member is stripped. -/
structure Preferences.IsStrict (p : Preferences) : Prop where
  convert : p.convert = false
  stripUnknown : p.stripUnknown = {}

/-- The form renames no member and makes no array of a single value. -/
def Form.IsReadOnly {σ : Type} : Form σ → Prop
  | .array form => form.single = false
  | .object form => form.renames = []
  | _ => True

/-- The node puts no value in, takes none away and calls no function, and its patch turns neither
converting nor stripping on. -/
structure Node.IsReadOnly {σ : Type} (n : Node σ) : Prop where
  default : n.flags.default = none
  failover : n.flags.failover = none
  strip : n.flags.strip = false
  empty : n.empty = none
  form : n.form.IsReadOnly
  rules : ∀ rule ∈ n.rules, rule.name ≠ "custom"
  convert : ∀ patch ∈ n.prefs, patch.convert ≠ some true
  stripUnknown : ∀ patch ∈ n.prefs, ∀ strip ∈ patch.stripUnknown, strip = {}

/-- Preferences of a node that changes nothing leave strict ones strict. -/
theorem Preferences.IsStrict.merged {σ : Type} {p : Preferences} (h : p.IsStrict) {n : Node σ}
    (hn : n.IsReadOnly) : (p.merged n.prefs).IsStrict := by
  have hconvert := hn.convert
  have hstrip := hn.stripUnknown
  cases hprefs : n.prefs with
  | none => exact h
  | some patch =>
    rw [hprefs] at hconvert hstrip
    have hconvert := hconvert patch rfl
    have hstrip := hstrip patch rfl
    rw [merged_some]
    refine ⟨?_, ?_⟩
    · show patch.convert.getD p.convert = false
      cases hpatch : patch.convert with
      | none => exact h.convert
      | some convert =>
        rw [hpatch] at hconvert
        cases convert with
        | false => rfl
        | true => exact absurd rfl hconvert
    · show patch.stripUnknown.getD p.stripUnknown = {}
      cases hpatch : patch.stripUnknown with
      | none => exact h.stripUnknown
      | some strip => exact hstrip strip hpatch

namespace Schema

/-- The node of the schema changes nothing. -/
def IsReadOnly (s : Schema) : Prop := s.node.IsReadOnly

/-- Marks do not matter. -/
theorem isReadOnly_erase {s : Schema} : (s.erase true).IsReadOnly ↔ s.IsReadOnly := by
  have hform : ((s.node.form.map (erase true)).withoutCell).IsReadOnly ↔
      s.node.form.IsReadOnly := by
    cases s.node.form <;> exact Iff.rfl
  unfold IsReadOnly
  rw [node_erase]
  constructor
  · intro h
    refine ⟨h.default, h.failover, h.strip, ?_, hform.mp h.form, ?_, h.convert, h.stripUnknown⟩
    · exact Option.map_eq_none_iff.mp h.empty
    · intro rule hrule
      have hmapped : rule.map (erase true) ∈ s.node.rules.map (Rule.map (erase true)) :=
        List.mem_map_of_mem hrule
      exact h.rules (rule.map (erase true)) hmapped
  · intro h
    refine ⟨h.default, h.failover, h.strip, ?_, hform.mpr h.form, ?_, h.convert, h.stripUnknown⟩
    · exact Option.map_eq_none_iff.mpr h.empty
    · intro rule hrule
      have hmapped : rule ∈ s.node.rules.map (Rule.map (erase true)) := hrule
      obtain ⟨source, hsource, rfl⟩ := List.mem_map.mp hmapped
      exact h.rules source hsource

/-- Marks do not bear on it. -/
theorem isReadOnly_congr (s t : Schema) (h : t.erase true = s.erase true) (hs : s.IsReadOnly) :
    t.IsReadOnly :=
  isReadOnly_erase.mp (h ▸ isReadOnly_erase.mpr hs)

/-- Setting the presence puts nothing in and takes nothing away. -/
theorem IsReadOnly.withPresence {s : Schema} (h : s.IsReadOnly) (presence : Presence) :
    (s.updateFlags ({ · with presence := some presence })).IsReadOnly :=
  ⟨h.default, h.failover, h.strip, h.empty, h.form, h.rules, h.convert, h.stripUnknown⟩

end Schema

/-! ### One node -/

/-- A value without holes that passes comes back as it is, and so does a missing one always. -/
def Outcome.Returns (value : Value) (o : Outcome) : Prop :=
  value.isWhole = true → o.isOk = true ∨ value = .undefined → o.value = value ∧ o.strip = false

/-- Whatever was reported, the value stays. -/
theorem Outcome.Returns.same (value : Value) (reports : List Report) :
    Outcome.Returns value { value, reports } :=
  fun _ _ => ⟨rfl, rfl⟩

namespace Site

/-- A site of a check that changes nothing, and what is known of the checks inside. -/
structure Strict (check : Check) (site : Site) : Prop where
  prefs : site.prefs.IsStrict
  throughout : site.schema.Throughout site.env Schema.IsReadOnly
  inner : ∀ t : Schema, t.Throughout site.env Schema.IsReadOnly →
    ∀ value position (prefs : Preferences), prefs.IsStrict →
      Leaves site.env Schema.IsReadOnly (Outcome.Returns value) (check t value position prefs)

namespace Strict

variable {check : Check} {site : Site} (h : site.Strict check)

include h

/-- The node at hand changes nothing. -/
theorem node : site.node.IsReadOnly := h.throughout.self

/-- A schema inside gives back what it is given. -/
theorem visited {levels : Nat} {t : Schema} (ht : (levels, t) ∈ site.schema.visited) (value : Value)
    (p : Position) :
    Leaves site.env Schema.IsReadOnly (Outcome.Returns value) (check t value p site.prefs) :=
  h.inner t (h.throughout.visited ht) value p site.prefs h.prefs

/-- To ask whether a value passes says nothing of the value, but makes no other schemas. -/
theorem passes {t : Schema} (ht : t.Throughout site.env Schema.IsReadOnly)
    (value : Value) (p : Position) {prefs : Preferences} (hprefs : prefs.IsStrict) :
    Leaves site.env Schema.IsReadOnly (fun _ => True) (check.passes t value p prefs) := by
  have hearly : ({ prefs with abortEarly := true } : Preferences).IsStrict :=
    ⟨hprefs.convert, hprefs.stripUnknown⟩
  exact (h.inner t ht value p _ hearly).bind fun _ _ => .pure trivial

/-- Whether a schema inside accepts a value can be asked, and what that
comes to is not looked at. -/
theorem visited_passes {levels : Nat} {t : Schema}
    (ht : (levels, t) ∈ site.schema.visited) (value : Value) (p : Position) :
    Leaves site.env Schema.IsReadOnly (fun _ => True) (check.passes t value p site.prefs) :=
  h.passes (h.throughout.visited ht) value p h.prefs

end Strict

end Site

/-! ### Alternatives -/

namespace AlternativesForm

variable {check : Check} {site : Site} (h : site.Strict check)

include h

/-- The schema that is picked by a case is one of those inside. -/
theorem pickCase_leaves {cases : List (Case Schema)} {test otherwise : Option Schema}
    (hcases : ∀ c ∈ cases, ∀ t ∈ c.schemas, (0, t) ∈ site.schema.visited)
    (htest : ∀ t ∈ test, (0, t) ∈ site.schema.visited)
    (hotherwise : ∀ t ∈ otherwise, (0, t) ∈ site.schema.visited) (input : Value) (held : Bool) :
    Leaves site.env Schema.IsReadOnly (fun picked => ∀ t ∈ picked, (0, t) ∈ site.schema.visited)
      (pickCase check site input test otherwise held cases) := by
  induction cases generalizing held with
  | nil =>
    refine .pure ?_
    cases held with
    | true => exact fun t ht => nomatch ht
    | false => exact hotherwise
  -- a case that holds hands its branch on, if it has one
  | cons c rest ih =>
    have ih (held : Bool) := ih (fun c hc => hcases c (List.mem_cons_of_mem _ hc)) held
    have hcase := hcases c (List.mem_cons_self ..)
    unfold pickCase
    cases hasked : c.test <|> test with
    | none => exact ih held
    | some schema =>
      have hschema := Case.forall_asked hcase htest schema hasked
      refine (h.visited_passes hschema input site.position).bind fun passed _ => ?_
      cases passed with
      | false => exact ih false
      | true =>
        cases hbranch : c.branch with
        | none => exact ih true
        | some branch =>
          exact .pure fun t ht => hcase t (Case.mem_branch (hbranch ▸ ht))

/-- The schema that is picked by a condition is one of those inside. -/
theorem pick_leaves {condition : Condition Schema} {cases : List (Case Schema)}
    {otherwise : Option Schema}
    (hin : ∀ t ∈ (Match.conditional condition cases otherwise).schemas,
      (0, t) ∈ site.schema.visited)
    (value : Value) :
    Leaves site.env Schema.IsReadOnly (fun picked => ∀ t ∈ picked, (0, t) ∈ site.schema.visited)
      (pick check site value condition cases otherwise) := by
  obtain ⟨hcondition, hcases, hotherwise⟩ := Match.forall_conditional hin
  cases condition with
  | reference r => exact pickCase_leaves h hcases hcondition hotherwise _ false
  | schema s => exact pickCase_leaves h hcases hcondition hotherwise value false

/-- The outcome is that of the entry that decides. -/
theorem tryEntries_leaves {form : AlternativesForm Schema}
    (hform : site.node.form = .alternatives form)
    {entries : List (Match Schema)}
    (hentries : ∀ entry ∈ entries, entry ∈ form.entries) (value : Value)
    (failures : List (List Report)) :
    Leaves site.env Schema.IsReadOnly (Outcome.Returns value)
      (form.tryEntries check site value failures entries) := by
  induction entries generalizing failures with
  | nil =>
    unfold tryEntries
    cases hbase : form.base with
    -- nothing matched: the base decides, if there is one
    | none => exact .pure (.same value _)
    | some base =>
      exact h.visited (visited_of_base hform hbase) value site.position
  | cons entry rest ih =>
    have ih := ih fun entry hentry => hentries entry (List.mem_cons_of_mem _ hentry)
    have hin := visited_of_entry hform (hentries entry (List.mem_cons_self ..))
    unfold tryEntries
    cases entry with
    | attempt schema =>
      refine (h.visited (hin schema (List.mem_singleton_self _)) value site.position).bind
        fun o ho => ?_
      split
      next => exact .pure ho
      next => exact ih _
    | conditional condition cases otherwise =>
      refine (pick_leaves h hin value).bind fun picked hpicked => ?_
      cases picked with
      | none => exact ih failures
      | some branch => exact h.visited (hpicked branch rfl) value site.position

end AlternativesForm

/-! ### Objects -/

namespace ObjectPass

/-- The working copy is what the check began with, and nothing is to be stripped, unless
something is missing inside. -/
def Still (members : List (String × Value)) (p : ObjectPass) : Prop :=
  (Value.object members).isWhole = true → p.members = members ∧ p.stripped = []

variable {members : List (String × Value)} {p : ObjectPass}

/-- A report leaves the working copy as it is. -/
theorem Still.fail (h : p.Still members) (site : Site) (reports : List Report) :
    (p.fail site reports).Still members := by
  unfold ObjectPass.fail
  split
  · exact h
  · exact h

/-- What every step keeps that is taken is kept by all of them. -/
theorem forEach_keeps {α : Type} {Q : ObjectPass → Prop} {step : ObjectPass → α → Id ObjectPass}
    (hstep : ∀ p item, p.stopped = false → Q p → Q (step p item)) {items : List α} (h : Q p) :
    Q (p.forEach step items) := by
  induction items generalizing p with
  | nil => exact h
  | cons item rest ih =>
    unfold forEach
    cases hstopped : p.stopped with
    | true => exact h
    | false => exact ih (hstep p item hstopped h)

/-- What each step preserves is preserved by all steps. -/
theorem forEach_leaves {α : Type} {env : Environment} {P : Schema → Prop} {Q : ObjectPass → Prop}
    {step : ObjectPass → α → Run ObjectPass} {items : List α}
    (hstep : ∀ p, p.stopped = false → Q p → ∀ item ∈ items, Leaves env P Q (step p item))
    (h : Q p) : Leaves env P Q (p.forEach step items) := by
  induction items generalizing p with
  | nil => exact .pure h
  | cons item rest ih =>
    unfold forEach
    cases hstopped : p.stopped with
    | true => exact .pure h
    | false =>
      refine (hstep p hstopped h item (List.mem_cons_self ..)).bind fun next hnext => ?_
      exact ih (fun p hgo hp item hitem => hstep p hgo hp item (List.mem_cons_of_mem _ hitem)) hnext

/-- Reports leave the working copy as it is. -/
theorem Still.failEach (h : p.Still members) (site : Site) (reports : List Report) :
    (p.failEach site reports).Still members :=
  forEach_keeps (Q := Still members) (fun _ report _ hp => hp.fail site [report]) h

/-- What a key has is whole, if the working copy is. -/
theorem isWhole_member (hwhole : p.value.isWhole = true) (key : String) :
    (p.member key).isWhole = true := by
  unfold member
  cases hget : Members.get? p.members key with
  | none => rfl
  | some value => exact (Value.isWhole_object.mp hwhole _ (Members.mem_of_get? hget)).2

/-- In a whole working copy a key has a value or does not occur. -/
theorem get?_member (hwhole : p.value.isWhole = true) (key : String) :
    (Members.get? p.members key = some (p.member key) ∧ (p.member key).isDefined = true) ∨
      (key ∉ Members.keys p.members ∧ (p.member key).isDefined = false) := by
  unfold member
  cases hget : Members.get? p.members key with
  | none => exact .inr ⟨(Members.get?_eq_none_iff _ _).mp hget, rfl⟩
  | some value => exact .inl ⟨rfl, (Value.isWhole_object.mp hwhole _ (Members.mem_of_get? hget)).1⟩

/-- What a check that passes makes of the member under a key, as long as
nothing is missing inside. -/
theorem Still.returned (h : p.Still members)
    (hmembers : (Value.object members).isWhole = true) {key : String}
    {o : Outcome} (ho : Outcome.Returns (p.member key) o) (hok : o.isOk = true) :
    p.value.isWhole = true ∧ o.value = p.member key ∧ o.strip = false := by
  have hwhole : p.value.isWhole = true := by
    rw [ObjectPass.value, (h hmembers).1]
    exact hmembers
  exact ⟨hwhole, ho (isWhole_member hwhole key) (.inl hok)⟩

end ObjectPass

namespace ObjectForm

variable {members : List (String × Value)} {p : ObjectPass}

/-- A child that passes is written back as it was read. -/
theorem takeChild_still (hp : p.Still members) {key : String} {o : Outcome}
    (ho : Outcome.Returns (p.member key) o) (site : Site) :
    (takeChild site p key o).Still members := by
  unfold takeChild
  split
  · exact hp.fail site _
  next hok =>
    intro hwhole
    obtain ⟨hmembers, hstripped⟩ := hp hwhole
    obtain ⟨hwhole, hvalue, hstrip⟩ := hp.returned hwhole ho (by simpa using hok)
    unfold keepChild
    rw [hstrip, hvalue, if_neg Bool.false_ne_true]
    rcases ObjectPass.get?_member hwhole key with ⟨hget, hdefined⟩ | ⟨hkey, hmissing⟩
    · rw [if_pos hdefined]
      exact ⟨(Members.insert_of_get? hget).trans hmembers, hstripped⟩
    · rw [hmissing]
      exact ⟨hmembers, hstripped⟩

/-- What a pattern gives back is what was there. -/
theorem takeMatched_still (hp : p.Still members) {key : String} {o : Outcome}
    (ho : Outcome.Returns (p.member key) o) (site : Site) :
    (takeMatched site p key o).Still members := by
  unfold takeMatched
  split
  · exact hp.fail site _
  next hok =>
    intro hwhole
    obtain ⟨hmembers, hstripped⟩ := hp hwhole
    obtain ⟨hwhole, hvalue, hstrip⟩ := hp.returned hwhole ho (by simpa using hok)
    unfold keepMatched
    rw [hstrip, hvalue, Bool.false_or]
    rcases ObjectPass.get?_member hwhole key with ⟨hget, hdefined⟩ | ⟨hkey, hmissing⟩
    · rw [hdefined]
      exact ⟨(Members.insert_of_get? hget).trans hmembers, hstripped⟩
    · rw [hmissing]
      exact ⟨(Members.erase_of_not_mem hkey).trans hmembers, hstripped⟩

variable {check : Check} {site : Site}

/-- Unknown keys are reported, and none is stripped, as the preferences are strict. -/
theorem settleUnknown_still (hprefs : site.prefs.IsStrict) (form : ObjectForm Schema)
    (hp : p.Still members) (keys : List String) :
    (form.settleUnknown site p keys).Still members := by
  unfold settleUnknown
  rw [hprefs.stripUnknown]
  split
  · exact hp
  · rw [if_neg (by simp)]
    split
    · exact hp
    · exact hp.failEach site _

/-- Dependencies are looked at only. -/
theorem checkDependencies_still (form : ObjectForm Schema) (hp : p.Still members) :
    (form.checkDependencies site p).Still members :=
  ObjectPass.forEach_keeps (Q := ObjectPass.Still members)
    (fun p d _ hp => hp.failEach site (dependencyReports site p.value d)) hp

variable {form : ObjectForm Schema} (h : site.Strict check) (hform : site.node.form = .object form)

include h

/-- A key that matches patterns is kept with its value. -/
theorem checkPatterns_leaves {patterns : List (KeyPattern Schema)}
    (hin : ∀ pattern ∈ patterns, ∀ t ∈ pattern.schemas, (1, t) ∈ site.schema.visited)
    (hp : p.Still members) (key : String) :
    Leaves site.env Schema.IsReadOnly (fun next => ∀ p' ∈ next, p'.Still members)
      (checkPatterns check site p key patterns) := by
  refine leaves_checkPatterns hin (fun _ ht => h.visited_passes ht) fun _ ht position => ?_
  exact (h.visited ht (p.member key) position).mono fun o ho => takeMatched_still hp ho site

include hform

/-- The declared keys are kept with their values. -/
theorem checkChildren_leaves (hp : p.Still members) :
    Leaves site.env Schema.IsReadOnly (ObjectPass.Still members)
      (form.checkChildren check site p) := by
  have hchild : ∀ p : ObjectPass, p.stopped = false → p.Still members →
      ∀ child ∈ form.orderedChildren,
      Leaves site.env Schema.IsReadOnly (ObjectPass.Still members)
      (checkChild check site p child) := by
    intro p _ hp child hchild
    refine (h.visited (visited_of_child hform hchild) (p.member child.1) _).bind fun o ho => ?_
    exact .pure (takeChild_still hp ho site)
  unfold checkChildren
  refine (ObjectPass.forEach_leaves hchild hp).bind fun p hp => .pure ?_
  split
  · exact hp
  · intro hwhole
    obtain ⟨hmembers, hstripped⟩ := hp hwhole
    rw [hstripped]
    exact ⟨hmembers, hstripped⟩

/-- The keys that are not declared are kept with their values. -/
theorem checkUndeclared_leaves (hp : p.Still members) (left keys : List String) :
    Leaves site.env Schema.IsReadOnly (fun r => r.1.Still members)
      (form.checkUndeclared check site p left keys) := by
  have hin : ∀ pattern ∈ form.patterns, ∀ t ∈ pattern.schemas, (1, t) ∈ site.schema.visited :=
    fun _ hpattern => visited_of_pattern hform hpattern
  induction keys generalizing p left with
  | nil => exact .pure hp
  | cons key rest ih =>
    unfold checkUndeclared
    split
    · exact .pure hp
    · refine (checkPatterns_leaves h hin hp key).bind fun next hnext => ?_
      cases next with
      | none => exact ih hp _
      | some p' => exact ih (hnext p' rfl) left

/-- Through all phases the working copy stays as it is. -/
theorem checkMembers_leaves (members : List (String × Value)) :
    Leaves site.env Schema.IsReadOnly (ObjectPass.Still members)
      (form.checkMembers check site members) := by
  have hrenames : form.renames = [] := by
    have hreadOnly := h.node.form
    rw [hform] at hreadOnly
    exact hreadOnly
  have hstart : ObjectPass.Still members { members } := fun _ => ⟨rfl, rfl⟩
  unfold checkMembers
  rw [hrenames]
  refine (checkChildren_leaves h hform hstart).bind fun p hp => ?_
  split
  · exact .pure hp
  · refine Leaves.bind (Q := ObjectPass.Still members) ?_ fun p hp => ?_
    · refine (checkUndeclared_leaves h hform hp [] _).bind fun r hr => .pure ?_
      split
      · exact hr
      · exact settleUnknown_still h.prefs form hr _
    · split
      · exact .pure hp
      · exact .pure (checkDependencies_still form hp)

/-- An object is given back as it was. -/
theorem base_leaves (value : Value) :
    Leaves site.env Schema.IsReadOnly (Outcome.Returns value) (form.base check site value) := by
  unfold base
  cases value with
  | object members =>
    dsimp only
    split
    · exact .pure (.same _ _)
    · refine (checkMembers_leaves h hform members).bind fun p hp => .pure fun hwhole _ => ?_
      refine ⟨?_, rfl⟩
      show Value.object p.members = .object members
      rw [(hp hwhole).1]
  | _ => exact .pure (.same _ _)

end ObjectForm

end Conform
