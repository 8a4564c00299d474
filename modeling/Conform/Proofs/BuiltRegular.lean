import Conform.Proofs.Phase
import Conform.Proofs.Regular

/-!
# Building makes regular schemas

What a description says may be odd: arguments are missing, rules and members are repeated, what is
allowed is denied too. What is built from it is regular all the same, node by node, since building
goes through the same checks as calls do. References are put together from what an entry says, so
that an entry can say them again.

The proof goes through the cases by which building is told, part by part. Each part has one thing to
it. A set is canonical since its members are added one by one; a reference can be restored since it
was put together from the fields of an entry; an argument is of the kind that its parameter takes,
since the check of the rule has passed. Two facts about the tables of rules are needed and decided
by going through these, that no boolean is optional, and which parameters take what.

Nodes are regular then by the steps of building in their order: a form of the kind that was asked
for, flags, sets, rules and what is said in passing. From single nodes it goes to all depths by
what building does with what is inside, and together with what calls keep it holds of every schema
that anyone can come by.

Main statements: `Manifest.build_regular` and `Schema.Made.regular`.
-/

namespace Conform.Build

open Manifest Schema

variable {registry : Registry} {make : Manifest → Attempt Schema} {sheet : Sheet Manifest}

/-! ### References and literals -/

theorem restorable_reference {entry : ReferenceEntry} {r : Reference}
    (h : reference registry entry = .ok r) : r.Restorable := by
  obtain ⟨table, -, h⟩ := Attempt.bind_ok h
  obtain ⟨adjuster, -, h⟩ := Attempt.bind_ok h
  obtain rfl := Except.ok.inj h
  have hr := Reference.restorable_atLevel entry.key entry.separator entry.ancestor
    entry.inValues table adjuster
  cases hlevel : entry.ancestor with
  | none => exact hlevel ▸ hr
  | some levels => exact hlevel ▸ hr

theorem restorable_tagged {json : Json} {r : Reference}
    (h : taggedReference? registry json = .ok (some r)) : r.Restorable := by
  rcases taggedReference?_ok h with ⟨hnone, -⟩ | ⟨content, entry, found, -, -, hr, hsome⟩
  · exact absurd hnone (by simp)
  · obtain rfl := Option.some.inj hsome
    exact restorable_reference hr

theorem restorable_item {json : Json} {i : SetItem} (h : item registry json = .ok i) :
    ∀ r ∈ i.reference?, r.Restorable := by
  intro r hr
  rcases item_ok h with ⟨found, hfound, rfl⟩ | ⟨v, -, rfl⟩
  · obtain rfl := Option.some.inj hr
    exact restorable_tagged hfound
  · exact nomatch hr

theorem restorable_items {items : List Json} {found : List SetItem}
    (h : items.mapM (item registry) = .ok found) :
    ∀ i ∈ found, ∀ r ∈ i.reference?, r.Restorable := by
  intro i hi
  obtain ⟨json, -, hjson⟩ := Attempt.mem_of_mapM h hi
  exact restorable_item hjson

theorem canonical_set {items : List Json} {s : ValueSet}
    (h : set registry items = .ok s) : s.Canonical := by
  obtain ⟨found, hfound, h⟩ := Attempt.bind_ok h
  obtain rfl := Except.ok.inj h
  exact ValueSet.canonical_empty.addAll (restorable_items hfound)

theorem restorable_default {json : Json} {d : Default} (h : default registry json = .ok d) :
    ∀ r ∈ d.reference?, r.Restorable := by
  intro r hr
  cases default_ok h with
  | reference htagged =>
    obtain rfl := Option.some.inj hr
    exact restorable_tagged htagged
  | function | deep | value => exact nomatch hr

/-! ### Rules -/

/-- What an argument is built to be, its parameter takes, provided that a
boolean is none but one. -/
theorem takes_argument {p : Parameter} {json : Json} {arg : Argument Schema}
    (h : argument registry make p json = .ok arg)
    (hbool : ∀ v, arg = .literal v → p.kind = .bool → v.isDefined = true) : p.kind.Takes arg := by
  cases argument_ok h with
  | reference htagged => exact restorable_tagged htagged
  | pattern hkind | schema hkind | function hkind => exact hkind
  | literal _ hkind => exact ⟨fun hin => absurd hin hkind, hbool _ rfl⟩

theorem takes_argumentOf {rule : RuleEntry} {p : Parameter} {arg : Argument Schema}
    (h : argumentOf registry make rule p = .ok arg)
    (hbool : ∀ v, arg = .literal v → p.kind = .bool → v.isDefined = true) : p.kind.Takes arg := by
  unfold argumentOf at h
  split at h
  next => exact takes_argument h hbool
  next hkind =>
    obtain rfl := Except.ok.inj h
    exact ⟨fun hin => absurd (hkind ▸ hin) (by decide), fun _ => rfl⟩
  next hkind =>
    obtain rfl := Except.ok.inj h
    exact ⟨fun _ => rfl, hbool .undefined rfl⟩

/-- Arguments that pass the check pass one by one. -/
theorem rejection?_of_check {rule : String} {parameters : List Parameter}
    {args : List (Argument Schema)}
    (h : checkArguments rule parameters args = .ok ()) {p : Parameter} {arg : Argument Schema}
    (hpair : (p, arg) ∈ parameters.zip args) : p.rejection? arg = none := by
  induction parameters generalizing args with
  | nil => exact absurd hpair (by simp)
  | cons q rest ih =>
    cases args with
    | nil => exact absurd hpair (by simp)
    | cons first others =>
      unfold checkArguments at h
      split at h
      next => exact absurd h (by simp)
      next hnone =>
        rcases List.mem_cons.mp hpair with heq | hin
        · obtain ⟨rfl, rfl⟩ := Prod.mk.inj heq
          exact hnone
        · exact ih h hin

/-- The tables: no boolean is optional. -/
theorem bool_needed {kind : Kind} {name : String} {spec : RuleSpec}
    (h : kind.rule? name = some spec) :
    ∀ p ∈ spec.parameters, p.kind = .bool → p.optional = false := by
  have hall : ∀ kind ∈ Kind.all, ∀ spec ∈ kind.ownRules ++ [Kind.customRule],
      ∀ p ∈ spec.parameters, p.kind = .bool → p.optional = false := by decide
  have hkind : kind ∈ Kind.all := by cases kind <;> decide
  exact hall kind hkind spec (List.mem_of_find?_eq_some h)

/-- A described rule that is added fits. -/
theorem Adds.fits {kind : Kind} {entry : RuleEntry} {rule : Rule Schema}
    (h : Adds registry make kind entry rule) : rule.Fits kind := by
  have hname := h.name
  obtain ⟨spec, hspec, -, hcheck, hargs⟩ := h
  refine ⟨spec, hname ▸ hspec, hcheck, ?_⟩
  have hpassed : ∀ p arg, (p, arg) ∈ spec.parameters.zip rule.args → p.rejection? arg = none := by
    unfold RuleSpec.check at hcheck
    split at hcheck
    next => exact absurd hcheck (by simp)
    next => exact fun p arg hpair => rejection?_of_check hcheck hpair
  unfold RuleSpec.kinds
  rw [List.forall₂_map_left_iff, List.forall₂_iff_zip]
  refine ⟨hargs.length_eq, fun {p arg} hpair => ?_⟩
  refine takes_argumentOf ((List.forall₂_iff_zip.mp hargs).2 hpair) ?_
  -- a boolean is needed, so the check has refused anything else in its place
  rintro v rfl hkind
  have hneeded := bool_needed hspec p (List.of_mem_zip hpair).1 hkind
  have hnone := hpassed p _ hpair
  unfold Parameter.rejection? at hnone
  dsimp only at hnone
  rw [hneeded, if_neg (by simp), hkind] at hnone
  cases v with
  | bool on => rfl
  | _ => exact nomatch hnone

/-! ### Forms -/

theorem regular_object {form : ObjectForm Schema}
    (h : object make sheet = .ok form) : form.Regular := by
  obtain ⟨unknown, base, renamed, patterns, hbase, hrenamed, -, rfl⟩ := object_ok h
  have hregular : base.Regular := by
    have hnew : ObjectForm.Regular { unknown } := ⟨.nil, Members.distinct_nil, rfl⟩
    rcases hbase with rfl | ⟨described, children, -, -, hset⟩
    · exact hnew
    · exact hnew.setChildren hset
  have hrenamed : renamed.Regular :=
    Attempt.foldlM_ok
      (fun o rename o' _ ho hstep => ObjectForm.Regular.addRename ho hstep) hregular hrenamed
  exact ⟨hrenamed.renames, hrenamed.distinct, hrenamed.order⟩

theorem restorable_matchEntry {entry : MatchEntry Manifest} {m : Match Schema}
    (h : BuildsMatch registry make entry m) : ∀ r ∈ m.reference?, r.Restorable := by
  intro r hr
  cases h with
  | attempt => exact nomatch hr
  | conditional _ hcondition =>
    cases hcondition with
    | reference _ hfound =>
      obtain rfl := Option.some.inj hr
      exact restorable_reference hfound
    | schema => exact nomatch hr

theorem regular_form {kind : Kind} {form : Form Schema}
    (h : BuildsForm registry make sheet kind form) : form.Regular := by
  cases h with
  | alternatives hentries =>
    intro r hr
    obtain ⟨m, hm, hmr⟩ := List.mem_filterMap.mp hr
    obtain ⟨entry, -, hmatch⟩ := Attempt.exists_of_mem_forall₂ hentries hm
    exact restorable_matchEntry hmatch r hmr
  | boolean htruthy hfalsy => exact ⟨canonical_set htruthy, canonical_set hfalsy⟩
  | object hf => exact regular_object hf
  | any | array | binary | date | lazy | number | string => trivial

/-! ### Nodes -/

/-- A built node is regular. -/
theorem regular_schema {s : Schema} (h : schema registry make sheet = .ok s) : s.Regular := by
  obtain ⟨kind, form, n, allowed, denied, m, notes, -, hform, hn, hallowed, hdenied, hm, -,
      -, rfl⟩ := schema_ok h
  obtain ⟨flags, empty, description, unit, -, hinitial, hfailover, rfl⟩ := setFlags_ok hn
  -- defaults and failovers are restorable, as they were read back
  have hdefault {name : String} {o : Option Default}
      (ho : (Members.get? sheet.flags name).mapM (default registry) = .ok o) :
      ∀ d ∈ o.toList, ∀ r ∈ d.reference?, r.Restorable := by
    intro d hd
    obtain ⟨json, -, hjson⟩ := Attempt.option_mapM_ok ho (Option.mem_toList.mp hd)
    exact restorable_default hjson
  have hflags : flags.Regular := List.forall_mem_append.mpr ⟨hdefault hinitial, hdefault hfailover⟩
  have hstart : Schema.Regular { node := { form, flags, empty, notes := { description, unit } } } :=
    ⟨.empty, hflags, Kind.admits_nil _, regular_form (form_ok hform)⟩
  -- so are the references in the sets
  have hcalls {items : List SetItem} (hitems : ∀ i ∈ items, ∀ r ∈ i.reference?, r.Restorable) :
      ∀ r ∈ items.filterMap SetItem.reference?, r.Restorable := by
    intro r hr
    obtain ⟨i, hi, hir⟩ := List.mem_filterMap.mp hr
    exact hitems i hi r hir
  have hsets :=
    (hstart.allow (hcalls (restorable_items hallowed))).deny (hcalls (restorable_items hdenied))
  -- rules are added one by one, each fitting what is there
  have hrules : Schema.Regular { node := m } := by
    refine Attempt.foldlM_ok (P := fun m => Schema.Regular { node := m }) ?_ hsets hm
    intro n entry m _ hn hstep
    obtain ⟨rule, hadds, rfl⟩ := adds_addRule hstep
    exact ⟨hn.sets, hn.flags, hadds.name ▸ hn.rules.append hadds.fits, hn.form⟩
  exact ⟨hrules.sets, hrules.flags, hrules.rules, hrules.form⟩

end Conform.Build

namespace Conform

/-- Every node of a built schema is regular. -/
theorem Manifest.build_regular {m : Manifest} {registry : Registry} {s : Schema}
    (h : m.build registry = .ok s) : s.Everywhere Schema.Regular :=
  Build.everywhere_schemaWithin (fun _ _ _ _ => trivial)
    (fun _ _ _ _ hmade => Build.regular_schema hmade) trivial h

/-- Every node is regular of what calls make of built schemas. -/
theorem Schema.Made.regular {s : Schema} (h : Made Built s) : s.Everywhere Regular :=
  h.everywhere regular_kept fun _ ⟨_, _, hbuild⟩ => Manifest.build_regular hbuild

end Conform
