import Conform.Proofs.Accepted

/-!
# What descriptions leave open

Building passes arguments through the tables alone. A rule whose pattern, schema or function is not
named gets a literal in its place, and so may the subject of an assertion, which then points
nowhere; a subject may stay too near; an encoding may be unknown; a conditional may have no branch,
or tests where none belong. All of these are built. So a built node is one that calls accept exactly
if its sheet leaves nothing open (`Manifest.Sheet.Complete`). Of rules that replace each other only
the last one matters (`Manifest.Sheet.lasting`).

The proof compares a node with its sheet part by part, each an equivalence: an argument leaves its
parameter open if and only if its entry names nothing for it or something that does not serve, a
rule is accepted if and only if its entry leaves nothing open, and so for conditionals, for the
encoding and at last for the node. Where building a part succeeds, these are the only ways in which
it may fall short, since everything else is refused when it is built.

Rules that stand under one name replace one another, unless they add up, so of the entries of a
sheet only some have a rule in the node (`adds_foldlM`). A sheet may leave something open in an
entry whose rule is replaced, and the node is accepted all the same; that is why completeness is
asked of lasting entries only. Going down, a description is complete with all that is inside it, in
arguments too (`Within`).

Main statement: `Manifest.built_accepted_iff`.
-/

namespace Conform

namespace Manifest

variable {δ : Type}

/-- The entry writes a reference into the context, or at least two steps into a value. -/
def ReferenceEntry.Deep (entry : ReferenceEntry) : Prop :=
  (Reference.ofKey entry.key entry.separator).Deep

/-- The entry of a rule names what no literal can stand for. -/
def RuleEntry.Fills (entry : RuleEntry) (p : Parameter) : Prop :=
  match p.kind with
  | .pattern => Members.contains entry.args p.name = true
  | .schema => Members.contains entry.args p.name = true
  | .function => Members.contains entry.args p.name = true
  | .subject => ∃ json content r, Members.get? entry.args p.name = some json ∧
      Build.untagged? json "ref" = some content ∧
      ReferenceEntry.read? content.toSource = some r ∧ r.Deep
  | _ => True

/-- The entries whose rules are not replaced by later ones. -/
def Sheet.lasting (sheet : Sheet δ) (kind : Kind) : List RuleEntry :=
  sheet.rules.foldl (fun entries entry =>
    (if kind.repeats entry.name then entries else
      entries.filter fun e => e.name != entry.name) ++ [entry]) []

/-- A conditional entry has a branch, and tests if it is on a reference. -/
def MatchEntry.Complete (entry : MatchEntry δ) : Prop :=
  entry.schema = none →
    (entry.otherwise.isSome = true ∨ ∃ c ∈ entry.cases, c.branch.isSome = true) ∧
    ∀ c ∈ entry.cases, c.test.isSome = entry.reference.isSome

/-- The sheet of a schema of some type leaves nothing open. -/
structure Sheet.Complete (sheet : Sheet δ) (kind : Kind) : Prop where
  rules : ∀ entry ∈ sheet.lasting kind, ∀ spec ∈ kind.rule? entry.name,
    ∀ p ∈ spec.parameters, entry.Fills p
  entries : kind = .alternatives → ∀ entry ∈ sheet.entries, entry.Complete
  encoding : kind = .binary →
    ∀ name, (Members.get? sheet.flags "encoding").bind Build.text? = some name →
    name ∈ Schema.encodings

/-- The second description is the first or stands inside it, maybe in the arguments of a rule. -/
inductive Within (m : Manifest) : Manifest → Prop
  | self : Within m m
  | inner {d child : Manifest} : Within m d → child ∈ Build.descriptions d.sheet → Within m child

end Manifest

namespace Build

open Manifest Schema

variable {registry : Registry} {make : Manifest → Attempt Schema} {sheet : Sheet Manifest}

/-! ### Arguments -/

theorem deep_reference {entry : ReferenceEntry} {r : Reference}
    (h : reference registry entry = .ok r) : r.Deep ↔ entry.Deep := by
  obtain ⟨table, -, h⟩ := Attempt.bind_ok h
  obtain ⟨adjuster, -, h⟩ := Attempt.bind_ok h
  obtain rfl := Except.ok.inj h
  -- a level is set apart from the path, and never for the context
  have hlevel (s : Reference) (levels : Nat) : (s.withLevel levels).Deep ↔ s.Deep := by
    unfold Reference.withLevel
    split
    next htarget =>
      unfold Reference.Deep Reference.isContext
      rw [htarget]
      simp
    next => rfl
  unfold ReferenceEntry.Deep
  cases entry.ancestor with
  | none => rfl
  | some levels => exact hlevel _ levels

/-- Nothing leaves a parameter open that takes values. -/
theorem not_leftOpen_of_isLiteral {kind : ArgumentKind} (h : kind.isLiteral = true)
    (arg : Argument Schema) : ¬kind.LeftOpen arg := by
  cases arg with
  | literal v => exact fun hopen => absurd (h.symm.trans hopen) (by simp)
  | reference r => exact fun hopen => absurd h (by rw [hopen.1]; decide)
  | _ => exact not_false

theorem fills_of_isLiteral {p : Parameter} (h : p.kind.isLiteral = true) (rule : RuleEntry) :
    rule.Fills p := by
  unfold RuleEntry.Fills
  cases hkind : p.kind with
  | pattern | schema | function | subject => exact absurd h (by rw [hkind]; decide)
  | _ => trivial

/-- What is named for a pattern, a schema or a function is read as such or refused. -/
theorem not_leftOpen_argument {p : Parameter} {json : Json} {arg : Argument Schema}
    (hkind : p.kind ∈ [ArgumentKind.pattern, .schema, .function])
    (h : argument registry make p json = .ok arg) : ¬p.kind.LeftOpen arg := by
  cases argument_ok h with
  | reference => exact fun hopen => absurd (hopen.1 ▸ hkind) (by decide)
  | pattern | schema | function => exact not_false
  | literal _ hother => exact absurd hkind hother

/-- What is named for a subject leaves it open unless it is a reference that goes deep enough. -/
theorem not_leftOpen_subject {p : Parameter} {json : Json} {arg : Argument Schema}
    (hkind : p.kind = .subject) (h : argument registry make p json = .ok arg) :
    ¬p.kind.LeftOpen arg ↔ ∃ content r, untagged? json "ref" = some content ∧
      ReferenceEntry.read? content.toSource = some r ∧ r.Deep := by
  cases argument_ok h with
  | pattern hother | schema hother | function hother =>
    exact absurd (hkind.symm.trans hother) (by decide)
  -- what is no reference is never deep
  | literal huntagged =>
    refine iff_of_false (fun hfilled => hfilled (by rw [hkind]; rfl)) ?_
    rintro ⟨content, r, hcontent, -⟩
    rcases taggedReference?_ok huntagged with ⟨-, hnone⟩ | ⟨_, _, _, -, -, -, hsome⟩
    · exact absurd (hnone.symm.trans hcontent) (by simp)
    · exact absurd hsome (by simp)
  | @reference r htagged =>
    rcases taggedReference?_ok htagged with
        ⟨hnone, -⟩ | ⟨content, entry, found, hcontent, hentry, hr, hsome⟩
    · exact absurd hnone (by simp)
    obtain rfl := Option.some.inj hsome
    have hopen : p.kind.LeftOpen (.reference r : Argument Schema) ↔ ¬r.Deep :=
      -- a reference leaves the subject open exactly if it is not deep
      and_iff_right hkind
    rw [hopen, Classical.not_not, deep_reference hr]
    constructor
    · exact fun hdeep => ⟨content, entry, hcontent, hentry, hdeep⟩
    · rintro ⟨content', entry', hcontent', hentry', hdeep⟩
      obtain rfl := Option.some.inj (hcontent.symm.trans hcontent')
      obtain rfl := Option.some.inj (hentry.symm.trans hentry')
      exact hdeep

/-- An argument that is built leaves its parameter open if the entry does. -/
theorem leftOpen_argumentOf {rule : RuleEntry} {p : Parameter} {arg : Argument Schema}
    (h : argumentOf registry make rule p = .ok arg) : ¬p.kind.LeftOpen arg ↔ rule.Fills p := by
  -- without an entry, what has no literals gets one
  have hnone (hget : Members.get? rule.args p.name = none) (hliteral : p.kind.isLiteral = false) :
      p.kind.LeftOpen arg := by
    unfold argumentOf at h
    rw [hget] at h
    split at h
    next heq => exact absurd heq (by simp)
    all_goals exact Except.ok.inj h ▸ hliteral
  have hsome {json : Json} (hget : Members.get? rule.args p.name = some json) :
      argument registry make p json = .ok arg := by
    unfold argumentOf at h
    rw [hget] at h
    exact h
  -- a pattern, a schema or a function is filled by being named
  have hnamed (hkind : p.kind ∈ [ArgumentKind.pattern, .schema, .function]) :
      ¬p.kind.LeftOpen arg ↔ Members.contains rule.args p.name = true := by
    unfold Members.contains
    cases hget : Members.get? rule.args p.name with
    | none =>
      have hall : ∀ k ∈ [ArgumentKind.pattern, .schema, .function], k.isLiteral = false := by decide
      exact iff_of_false (fun hfilled => hfilled (hnone hget (hall _ hkind))) (by simp)
    | some json => exact iff_of_true (not_leftOpen_argument hkind (hsome hget)) rfl
  by_cases hliteral : p.kind.isLiteral = true
  · exact iff_of_true (not_leftOpen_of_isLiteral hliteral arg) (fills_of_isLiteral hliteral rule)
  unfold RuleEntry.Fills
  cases hkind : p.kind with
  | pattern | schema | function =>
    have hfilled := hnamed (by rw [hkind]; decide)
    rw [hkind] at hfilled
    exact hfilled
  | subject =>
    dsimp only
    rw [← hkind]
    cases hget : Members.get? rule.args p.name with
    | none =>
      refine iff_of_false (fun hfilled => hfilled (hnone hget (by rw [hkind]; rfl))) ?_
      rintro ⟨json, content, r, hjson, -⟩
      exact absurd hjson (by simp)
    | some json =>
      rw [not_leftOpen_subject hkind (hsome hget)]
      simp
  | _ => exact absurd (by rw [hkind]; rfl) hliteral

/-! ### Rules -/

/-- The rule of an entry is one that calls accept if the entry leaves nothing open. -/
theorem Adds.accepted_iff {kind : Kind} {entry : RuleEntry} {rule : Rule Schema}
    (h : Adds registry make kind entry rule) : rule.Accepted kind ↔
      ∀ spec ∈ kind.rule? entry.name, ∀ p ∈ spec.parameters, entry.Fills p := by
  have hname := h.name
  obtain ⟨spec, hspec, -, hcheck, hargs⟩ := h
  have haccepted : rule.Accepted kind ↔
      List.Forall₂ Parameter.Filled spec.parameters rule.args := by
    unfold Rule.Accepted
    rw [hname, hspec]
    simp
  have hfills : (∀ spec ∈ kind.rule? entry.name, ∀ p ∈ spec.parameters, entry.Fills p) ↔
      ∀ p ∈ spec.parameters, entry.Fills p := by
    rw [hspec]
    simp
  rw [haccepted, RuleSpec.filled_of_check hcheck, hfills]
  unfold RuleSpec.kinds
  rw [List.forall₂_map_left_iff]
  generalize spec.parameters = parameters at hargs
  generalize rule.args = args at hargs
  induction hargs with
  | nil => simp
  | cons hfirst _ ih =>
    rw [List.forall₂_cons, List.forall_mem_cons, leftOpen_argumentOf hfirst]
    exact and_congr_right fun _ => ih

/-- The rules that stay are those of the entries that last. -/
theorem adds_foldlM {kind : Kind} {entries before : List RuleEntry} {n m : Node Schema}
    (hkind : n.kind = kind) (hbefore : List.Forall₂ (Adds registry make kind) before n.rules)
    (h : entries.foldlM (addRule registry make) n = .ok m) :
    m.form = n.form ∧ List.Forall₂ (Adds registry make kind)
      (entries.foldl (fun entries entry =>
        (if kind.repeats entry.name then entries
          else entries.filter fun e => e.name != entry.name) ++ [entry]) before)
      m.rules := by
  induction entries generalizing before n with
  | nil =>
    obtain rfl := Except.ok.inj h
    exact ⟨rfl, hbefore⟩
  | cons entry rest ih =>
    rw [List.foldlM_cons] at h
    obtain ⟨next, hnext, h⟩ := Attempt.bind_ok h
    obtain ⟨rule, hadds, rfl⟩ := adds_addRule hnext
    rw [hkind] at hadds
    -- an entry takes the place of those of its name, unless the rule repeats
    have hafter : List.Forall₂ (Adds registry make kind)
        ((if kind.repeats entry.name then before else
          before.filter fun e => e.name != entry.name) ++ [entry])
        (Node.appendRule n.rules rule (n.kind.repeats entry.name)) := by
      unfold Node.appendRule
      refine List.rel_append ?_ (.cons hadds .nil)
      rw [hkind]
      split
      next => exact hbefore
      next =>
        refine List.rel_filter (fun {e r} hstands => ?_) hbefore
        show (e.name != entry.name) = true ↔ (r.name != rule.name) = true
        rw [hadds.name, hstands.name]
    exact @ih _ { n with rules := Node.appendRule n.rules rule (n.kind.repeats entry.name) }
      hkind hafter h

/-- What holds of the one if and only if it holds of the other, member by member. -/
theorem forall_mem_iff_of_forall₂ {α β : Type} {R : α → β → Prop} {P : α → Prop} {Q : β → Prop}
    {as : List α} {bs : List β} (h : List.Forall₂ R as bs) (hiff : ∀ a b, R a b → (P a ↔ Q b)) :
    (∀ a ∈ as, P a) ↔ ∀ b ∈ bs, Q b := by
  induction h with
  | nil => simp
  | cons hfirst _ ih =>
    rw [List.forall_mem_cons, List.forall_mem_cons, hiff _ _ hfirst]
    exact and_congr_right fun _ => ih

/-! ### Forms -/

theorem decides_matchEntry {entry : MatchEntry Manifest} {m : Match Schema}
    (h : BuildsMatch registry make entry m) : m.Decides ↔ entry.Complete := by
  cases h with
  | attempt hschema =>
    exact iff_of_true trivial fun hnone => absurd (hnone.symm.trans hschema) (by simp)
  | @conditional condition cases otherwise hnone hcondition hcases hotherwise =>
    -- a condition asks for tests or has its own, as its entry says
    have htested : condition.isTested = entry.reference.isSome := by
      cases hcondition with
      | reference hr | schema hr =>
        rw [hr]
        rfl
    have hcase : List.Forall₂ (fun (given : Case Manifest) (c : Case Schema) =>
        given.test.isSome = c.test.isSome ∧
          given.branch.isSome = c.branch.isSome) entry.cases cases := by
      refine hcases.imp fun given c hstep => ?_
      exact ⟨(Attempt.option_mapM_isSome hstep.1).symm, (Attempt.option_mapM_isSome hstep.2).symm⟩
    have hbranches : (∃ c ∈ entry.cases, c.branch.isSome = true) ↔
        ∃ c ∈ cases, c.branch.isSome = true := by
      have hnone := forall_mem_iff_of_forall₂ (P := fun c => ¬c.branch.isSome = true)
        (Q := fun c => ¬c.branch.isSome = true) hcase fun a b hab => by rw [hab.2]
      exact not_iff_not.mp (by simpa using hnone)
    have htests : (∀ c ∈ entry.cases, c.test.isSome = entry.reference.isSome) ↔
        ∀ c ∈ cases, c.test.isSome = condition.isTested :=
      forall_mem_iff_of_forall₂ hcase fun a b hab => by rw [hab.1, htested]
    unfold MatchEntry.Complete
    rw [imp_iff_right hnone, hbranches, htests, ← Attempt.option_mapM_isSome hotherwise]
    rfl

/-- A form is one that calls accept if the sheet leaves nothing of it open. -/
theorem accepted_form {kind : Kind} {form : Form Schema}
    (h : BuildsForm registry make sheet kind form) : form.kind = kind ∧ (form.Accepted ↔
      (kind = .alternatives → ∀ entry ∈ sheet.entries, entry.Complete) ∧
      (kind = .binary → ∀ name, (Members.get? sheet.flags "encoding").bind text? = some name →
        name ∈ Schema.encodings)) := by
  cases h with
  | @alternatives entries base hentries =>
    have hdecides : (∀ entry ∈ sheet.entries, entry.Complete) ↔ ∀ m ∈ entries, m.Decides :=
      forall_mem_iff_of_forall₂ hentries fun _ _ hmatch => (decides_matchEntry hmatch).symm
    refine ⟨rfl, ?_⟩
    rw [hdecides]
    simp [Form.Accepted]
  | binary => simp [Form.Accepted, Form.kind]
  -- calls accept any other form, and no sheet leaves any of it open
  | any | array | boolean | date | lazy | number | object | string =>
    simp [Form.Accepted, Form.kind]

/-! ### Sheets -/

/-- A built node is one that calls accept if and only if its sheet leaves nothing open. -/
theorem accepted_schema {s : Schema} (h : schema registry make sheet = .ok s) :
    Kind.ofName? sheet.kind = some s.kind ∧ (s.Accepted ↔ sheet.Complete s.kind) := by
  obtain ⟨kind, form, n, allowed, denied, m, notes, hname, hform, hn, -, -, hm, -, -, rfl⟩ :=
    schema_ok h
  obtain ⟨flags, empty, description, unit, -, -, -, rfl⟩ := setFlags_ok hn
  obtain ⟨hkind, haccepted⟩ := accepted_form (form_ok hform)
  have hallow := Schema.Node.foldl_same (f := Node.allow) (fun _ _ => ⟨rfl, rfl⟩) allowed
    { form, flags, empty, notes := { description, unit } }
  have hdeny := Schema.Node.foldl_same (f := Node.deny) (fun _ _ => ⟨rfl, rfl⟩) denied
    (allowed.foldl Node.allow { form, flags, empty, notes := { description, unit } })
  have hstart := hdeny.1.trans hallow.1
  have hnorules := hdeny.2.trans hallow.2
  -- flags and sets add no rules, so all rules come of the entries
  have hnone {n : Node Schema} (hnorules : n.rules = []) :
      List.Forall₂ (Adds registry make form.kind) [] n.rules := hnorules ▸ .nil
  obtain ⟨hkept, hadds⟩ := adds_foldlM (congrArg Form.kind hstart) (hnone hnorules) hm
  have hmform : m.form = form := hkept.trans hstart
  have hskind : Schema.kind { node := { m with prefs := sheet.preferences, notes } } = kind :=
    (congrArg Form.kind hmform).trans hkind
  have hrules := forall_mem_iff_of_forall₂ hadds fun _ _ hadd => hadd.accepted_iff.symm
  rw [hkind] at hrules
  rw [hskind]
  refine ⟨hname, ?_⟩
  have hleft : Schema.Accepted { node := { m with prefs := sheet.preferences, notes } } ↔
      (∀ rule ∈ m.rules, rule.Accepted kind) ∧ form.Accepted := by
    constructor
    · intro h
      exact ⟨hskind ▸ h.rules, hmform ▸ h.form⟩
    · rintro ⟨hrules, hform⟩
      exact ⟨hskind.symm ▸ hrules, (show m.form.Accepted from hmform.symm ▸ hform)⟩
  rw [hleft, ← hrules, haccepted]
  constructor
  · rintro ⟨hentries, hmatches, hencoding⟩
    exact ⟨hentries, hmatches, hencoding⟩
  · exact fun h => ⟨h.rules, h.entries, h.encoding⟩

end Build

namespace Manifest

/-- What every built node gives its rules: arguments that fill their parameters, or that were left
out where no literal can serve, or anything for a subject. -/
def Passed (s : Schema) : Prop :=
  ∀ rule ∈ s.node.rules, ∃ spec, s.kind.rule? rule.name = some spec ∧
    List.Forall₂ (fun p arg => Parameter.Filled p arg ∨ p.kind.LeftOpen arg ∧
      (p.kind ≠ .subject → arg = .literal .undefined)) spec.parameters rule.args

theorem passed_of_regular {s : Schema} (h : s.Regular) : Passed s := by
  intro rule hrule
  obtain ⟨spec, hspec, hcheck, htakes⟩ := h.rules.fit rule hrule
  refine ⟨spec, hspec, ?_⟩
  have hpasses := RuleSpec.passes_of_check hcheck
  unfold RuleSpec.kinds at htakes
  rw [List.forall₂_map_left_iff] at htakes
  rw [List.forall₂_iff_zip] at hpasses htakes ⊢
  refine ⟨hpasses.1, fun {p arg} hpair => ?_⟩
  by_cases hopen : p.kind.LeftOpen arg
  · refine .inr ⟨hopen, fun hsubject => ?_⟩
    have htakes := htakes.2 hpair
    cases arg with
    | literal v =>
      have hnamed : ∀ k : ArgumentKind, k.isLiteral = false → k ≠ .subject →
          k ∈ [ArgumentKind.pattern, .schema, .function] := by
        intro k
        cases k <;> decide
      rw [htakes.1 (hnamed p.kind hopen hsubject)]
    | reference r => exact absurd hopen.1 hsubject
    | _ => exact hopen.elim
  · exact .inl ((p.filled_iff arg).mpr ⟨hpasses.2 hpair, hopen⟩)

/-- Calls make accepted nodes only. Building makes an accepted node if and only if the sheet it is
built from leaves nothing open; where that fails, a rule has all its arguments still, but for those
that were left out and subjects that are no references or not deep enough. -/
theorem built_accepted_iff {m : Manifest} {registry : Registry} {s : Schema}
    (h : m.build registry = .ok s) :
    (∀ t, Schema.Made (fun _ => False) t → t.Everywhere Schema.Accepted) ∧
    s.Everywhere Passed ∧
    (∀ t, s.Within t → ∃ d fuel, m.Within d ∧ Build.schemaWithin registry fuel d = .ok t ∧
      Kind.ofName? d.sheet.kind = some t.kind ∧ (t.Accepted ↔ d.sheet.Complete t.kind)) ∧
    ((∀ d, m.Within d → ∀ kind, Kind.ofName? d.sheet.kind = some kind → d.sheet.Complete kind) →
      s.Everywhere Schema.Accepted) := by
  -- what stands inside a built schema was built from something inside the description
  have hnodes : ∀ t, s.Within t → ∃ d fuel, m.Within d ∧
      Build.schemaWithin registry fuel d = .ok t := by
    intro t ht
    induction ht with
    | self => exact ⟨m, m.height, .self, h⟩
    | inner _ hchild ih =>
      obtain ⟨d, fuel, hd, hmade⟩ := ih
      cases fuel with
      | zero => exact absurd hmade (by simp [Build.schemaWithin])
      | succ fuel =>
        obtain ⟨child, hin, hmake⟩ := Build.inner_schema hmade _ hchild
        exact ⟨child, fuel, .inner hd hin, hmake⟩
  have hnode {fuel : Nat} {d : Manifest} {t : Schema}
      (hmade : Build.schemaWithin registry fuel d = .ok t) :
      Kind.ofName? d.sheet.kind = some t.kind ∧ (t.Accepted ↔ d.sheet.Complete t.kind) := by
    cases fuel with
    | zero => exact absurd hmade (by simp [Build.schemaWithin])
    | succ fuel => exact Build.accepted_schema hmade
  refine ⟨fun _ ht => Schema.accepted_of_made ht,
    (build_regular h).mono fun _ ht => passed_of_regular ht, fun t ht =>
    ?_, fun hcomplete t ht => ?_⟩
  · obtain ⟨d, fuel, hd, hmade⟩ := hnodes t ht
    exact ⟨d, fuel, hd, hmade, hnode hmade⟩
  · obtain ⟨d, fuel, hd, hmade⟩ := hnodes t ht
    obtain ⟨hkind, haccepted⟩ := hnode hmade
    exact haccepted.mpr (hcomplete d hd t.kind hkind)

/-- Texts under a rule that names no pattern. -/
def namesNoPattern : Manifest := ⟨{ kind := "string", rules := [{ name := "pattern" }] }⟩

/-- The rule is built all the same, with nothing to match. -/
theorem built_accepted_iff_unnamed : ∃ s, namesNoPattern.build = .ok s ∧ ¬s.Accepted ∧
    s.Everywhere Passed := by
  have hbuilds : namesNoPattern.build.isOk = true := by decide +kernel
  cases hbuild : namesNoPattern.build with
  | error reason => exact absurd (hbuild ▸ hbuilds) (by simp [Except.isOk, Except.toBool])
  | ok s =>
    obtain ⟨-, hpassed, hnodes, -⟩ := built_accepted_iff hbuild
    refine ⟨s, rfl, fun haccepted => ?_, hpassed⟩
    obtain ⟨d, fuel, hd, hmade, hname, hiff⟩ := hnodes s .self
    -- nothing stands inside the description
    have hself : d = namesNoPattern := by
      clear hmade hname hiff
      induction hd with
      | self => rfl
      | inner _ hchild ih =>
        subst ih
        exact absurd hchild List.not_mem_nil
    subst hself
    have hkind : Kind.string = s.kind :=
      Option.some.inj ((Kind.ofName?_name .string).symm.trans hname)
    have hcomplete := hiff.mp haccepted
    rw [← hkind] at hcomplete
    have hfills := hcomplete.rules { name := "pattern" } (List.mem_singleton_self _) _ rfl
      { name := "regex", kind := .pattern } (List.mem_cons_self ..)
    exact Bool.false_ne_true hfills

end Manifest

end Conform
