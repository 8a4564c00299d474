import Conform.Proofs.Builds

/-!
# Schemas that are built from descriptions

What stands inside a built schema was built as well, from what stands inside the description
or inside its rule arguments (`Build.inner_schema`). So what building establishes for one
node holds at every depth.

Descriptions stand in two places. Most of them are parts of a sheet, under its items, children,
cases and so on. Those that are arguments of rules are data in the sheet, and become descriptions
only when the rule is added. `Build.Comes` says of a schema that it was made of one of some
descriptions; each step of building has a lemma that names the descriptions that the schemas in its
result come from, and at the end all of them are inside the sheet in the one sense or the other.

The induction on descriptions is then one for all uses (`Build.everywhere_schemaWithin`): given
what one step of building establishes, provided that it was established of what is inside, it
holds of the whole built schema.

Main statement: `Manifest.build_hasOrder`, by which the children of every object are in order.
-/

namespace Conform.Manifest

variable {δ : Type}

/-- Where something stands inside an entry. -/
inductive MatchEntry.Holds (entry : MatchEntry δ) (d : δ) : Prop
  | schema : d ∈ entry.schema.toList → entry.Holds d
  | condition : d ∈ entry.condition.toList → entry.Holds d
  | case {c : Case δ} : c ∈ entry.cases → d ∈ c.schemas → entry.Holds d
  | otherwise : d ∈ entry.otherwise.toList → entry.Holds d

/-- A description that an entry holds is inside it. -/
theorem MatchEntry.mem_inner (entry : MatchEntry δ) {d : δ} (h : entry.Holds d) :
    d ∈ entry.inner := by
  simp only [MatchEntry.inner, List.mem_append, List.mem_flatMap]
  cases h with
  | schema h => exact .inl (.inl (.inl h))
  | condition h => exact .inl (.inl (.inr h))
  | case hc h => exact .inl (.inr ⟨_, hc, h⟩)
  | otherwise h => exact .inr h

/-- Where something stands inside a sheet. -/
inductive Sheet.Holds (sheet : Sheet δ) (d : δ) : Prop
  | empty : d ∈ sheet.empty.toList → sheet.Holds d
  | child {children : List (String × δ)} {key : String} : sheet.keys = some children →
      (key, d) ∈ children → sheet.Holds d
  | pattern {p : PatternEntry δ} : p ∈ sheet.patterns → d ∈ p.inner → sheet.Holds d
  | item : d ∈ sheet.items → sheet.Holds d
  | ordered : d ∈ sheet.ordered → sheet.Holds d
  | entry {m : MatchEntry δ} : m ∈ sheet.entries → d ∈ m.inner → sheet.Holds d
  | base : d ∈ sheet.base.toList → sheet.Holds d

/-- A description that a sheet holds is inside it. -/
theorem Sheet.mem_inner (sheet : Sheet δ) {d : δ} (h : sheet.Holds d) : d ∈ sheet.inner := by
  simp only [Sheet.inner, List.mem_append, List.mem_flatMap]
  cases h with
  | empty h => exact .inl (.inl (.inl (.inl (.inl (.inl h)))))
  | child hkeys h =>
    rw [hkeys]
    exact .inl (.inl (.inl (.inl (.inl (.inr (List.mem_map_of_mem (f := (·.2)) h))))))
  | pattern hp h => exact .inl (.inl (.inl (.inl (.inr ⟨_, hp, h⟩))))
  | item h => exact .inl (.inl (.inl (.inr h)))
  | ordered h => exact .inl (.inl (.inr h))
  | entry hm h => exact .inl (.inr ⟨_, hm, h⟩)
  | base h => exact .inr h

end Conform.Manifest

namespace Conform.Build

open Manifest Schema

variable {registry : Registry} {make : Manifest → Attempt Schema} {sheet : Sheet Manifest}

/-- The schema was built from one of these descriptions. -/
def Comes (make : Manifest → Attempt Schema) (descriptions : List Manifest) (s : Schema) : Prop :=
  ∃ m ∈ descriptions, make m = .ok s

/-- What was built of some descriptions was built of more. -/
theorem Comes.mono {descriptions others : List Manifest} {s : Schema}
    (h : Comes make descriptions s)
    (hsub : ∀ m ∈ descriptions, m ∈ others) : Comes make others s := by
  obtain ⟨m, hm, hmake⟩ := h
  exact ⟨m, hsub m hm, hmake⟩

/-- What was built of a description that need not be there was built of it. -/
theorem comes_option {o : Option Manifest} {o' : Option Schema} (h : o.mapM make = .ok o') :
    ∀ s ∈ o'.toList, Comes make o.toList s := by
  intro s hs
  obtain ⟨m, hin, hm⟩ := Attempt.option_mapM_ok h (Option.mem_toList.mp hs)
  exact ⟨m, Option.mem_toList.mpr hin, hm⟩

/-- What was built of a list of descriptions was built of one of them. -/
theorem comes_list {inner : List Manifest} {inner' : List Schema}
    (h : inner.mapM make = .ok inner') : ∀ s ∈ inner', Comes make inner s := by
  intro s hs
  obtain ⟨m, hin, hm⟩ := Attempt.mem_of_mapM h hs
  exact ⟨m, hin, hm⟩

/-- The descriptions that the arguments of a rule hold. -/
def entryDescriptions (rule : RuleEntry) : List Manifest :=
    rule.args.filterMap fun arg => described? arg.2

/-- The descriptions that a sheet holds: the inner ones, and those among the
arguments of its rules. -/
def descriptions (sheet : Sheet Manifest) : List Manifest :=
  sheet.inner ++ sheet.rules.flatMap entryDescriptions

/-- The schema of an argument was built of the description in the argument. -/
theorem comes_argument {p : Parameter} {json : Json} {arg : Argument Schema}
    (h : argument registry make p json = .ok arg) :
    ∀ s ∈ arg.schema?, Comes make (described? json).toList s := by
  intro s hs
  cases argument_ok h with
  | schema _ hm hmake =>
    obtain rfl := Option.some.inj hs
    exact ⟨_, Option.mem_toList.mpr hm, hmake⟩
  | reference | pattern | function | literal => exact absurd hs (by simp [Argument.schema?])

/-- The schema of a parameter's argument was built of a description in the rule. -/
theorem comes_argumentOf {rule : RuleEntry} {p : Parameter} {arg : Argument Schema}
    (h : argumentOf registry make rule p = .ok arg) :
    ∀ s ∈ arg.schema?, Comes make (entryDescriptions rule) s := by
  unfold argumentOf at h
  split at h
  next json hget =>
    refine fun s hs => (comes_argument h s hs).mono fun m hm => ?_
    exact List.mem_filterMap.mpr ⟨_, Members.mem_of_get? hget, Option.mem_toList.mp hm⟩
  all_goals
    obtain rfl := Except.ok.inj h
    exact fun s hs => absurd hs (by simp [Argument.schema?])

/-- The schemas of a rule that is added were built of descriptions in the rule. -/
theorem Adds.comes {kind : Kind} {entry : RuleEntry} {rule : Rule Schema}
    (h : Adds registry make kind entry rule) :
    ∀ s ∈ rule.schemas, Comes make (entryDescriptions entry) s := by
  obtain ⟨spec, -, -, -, hargs⟩ := h
  intro s hs
  obtain ⟨arg, harg, hs⟩ := List.mem_filterMap.mp hs
  obtain ⟨p, -, hp⟩ := Attempt.exists_of_mem_forall₂ hargs harg
  exact comes_argumentOf hp s hs

/-- The schemas of a pattern were built of the descriptions in it. -/
theorem comes_keyPattern {entry : PatternEntry Manifest} {p : KeyPattern Schema}
    (h : keyPattern make entry = .ok p) : ∀ s ∈ p.schemas, Comes make entry.inner s := by
  have hrule : entry.rule ∈ entry.inner := List.mem_append_right _ (List.mem_singleton_self _)
  unfold keyPattern at h
  dsimp only at h
  split at h
  -- keys by an expression have one schema, keys by a schema have two
  next =>
    obtain ⟨pattern, -, h⟩ := Attempt.bind_ok h
    obtain ⟨matcher, hmatcher, h⟩ := Attempt.bind_ok h
    obtain rfl := Except.ok.inj hmatcher
    obtain ⟨inner, hinner, h⟩ := Attempt.bind_ok h
    obtain rfl := Except.ok.inj h
    intro s hs
    obtain rfl := List.mem_singleton.mp hs
    exact ⟨_, hrule, hinner⟩
  next manifest _ hschema =>
    have hkeyed : manifest ∈ entry.inner := List.mem_append_left _ (Option.mem_toList.mpr hschema)
    obtain ⟨key, hkey, h⟩ := Attempt.bind_ok h
    obtain ⟨matcher, hmatcher, h⟩ := Attempt.bind_ok h
    obtain rfl := Except.ok.inj hmatcher
    obtain ⟨inner, hinner, h⟩ := Attempt.bind_ok h
    obtain rfl := Except.ok.inj h
    intro s hs
    rcases List.mem_cons.mp hs with rfl | hs
    · exact ⟨_, hkeyed, hkey⟩
    · obtain rfl := List.mem_singleton.mp hs
      exact ⟨_, hrule, hinner⟩
  next => exact absurd h (by simp [throw, throwThe, MonadExceptOf.throw, bind, Except.bind])

/-- The schemas of an object were built of descriptions in the sheet. -/
theorem comes_object {form : ObjectForm Schema} (h : object make sheet = .ok form) :
    ∀ s ∈ (Form.object form).schemas, Comes make sheet.inner s := by
  obtain ⟨unknown, base, renamed, patterns, hbase, hrenamed, hpatterns, rfl⟩ := object_ok h
  intro s hs
  rcases List.mem_append.mp hs with hin | hpattern
  · have hin : s ∈ (Form.object renamed).schemas := List.mem_append_left _ hin
    rw [schemas_foldlM_addRename sheet.renames hrenamed] at hin
    rcases hbase with rfl | ⟨described, children, hkeys, hchildren, hset⟩
    · exact absurd hin List.not_mem_nil
    · rcases schemas_setChildren hset hin with hin | hin
      · exact absurd hin List.not_mem_nil
      · obtain ⟨child, hchild, rfl⟩ := List.mem_map.mp hin
        obtain ⟨d, hdescribed, hd⟩ := Attempt.mem_of_mapM hchildren hchild
        obtain ⟨inner, hinner, hd⟩ := Attempt.bind_ok hd
        obtain rfl := Except.ok.inj hd
        exact ⟨d.2, sheet.mem_inner (.child hkeys hdescribed), hinner⟩
  · obtain ⟨p, hp, hin⟩ := List.mem_flatMap.mp hpattern
    obtain ⟨entry, hin', hentry⟩ := Attempt.mem_of_mapM hpatterns hp
    exact (comes_keyPattern hentry s hin).mono fun m hm => sheet.mem_inner (.pattern hin' hm)

/-- The children of a built object are in order. -/
theorem ordered_object {form : ObjectForm Schema} (h : object make sheet = .ok form) :
    form.Ordered := by
  obtain ⟨unknown, base, renamed, patterns, hbase, hrenamed, hpatterns, rfl⟩ := object_ok h
  have hordered : base.Ordered := by
    rcases hbase with rfl | ⟨described, children, -, -, hset⟩
    · exact ObjectForm.ordered_empty.of_same rfl rfl
    · exact ObjectForm.setChildren_ordered (f := { unknown }) Members.distinct_nil hset
  obtain ⟨hkeys, horder⟩ := ObjectForm.foldlM_addRename_same sheet.renames hrenamed
  exact hordered.of_same hkeys horder

/-- The schemas of an entry were built of the descriptions in it. -/
theorem comes_matchEntry {entry : MatchEntry Manifest} {m : Match Schema}
    (h : BuildsMatch registry make entry m) : ∀ s ∈ m.schemas, Comes make entry.inner s := by
  intro s hs
  cases h with
  | attempt hd hmake =>
    obtain rfl := List.mem_singleton.mp hs
    exact ⟨_, entry.mem_inner (.schema (Option.mem_toList.mpr hd)), hmake⟩
  | conditional _ hcondition hcases hotherwise =>
    rcases List.mem_append.mp hs with hs | hs
    · rcases List.mem_append.mp hs with hs | hs
      · cases hcondition with
        | reference => exact absurd hs List.not_mem_nil
        | schema _ hd hmake =>
          obtain rfl := List.mem_singleton.mp hs
          exact ⟨_, entry.mem_inner (.condition (Option.mem_toList.mpr hd)), hmake⟩
      · obtain ⟨c, hc, hin⟩ := List.mem_flatMap.mp hs
        obtain ⟨d, hd, htest, hbranch⟩ := Attempt.exists_of_mem_forall₂ hcases hc
        have hcase {m : Manifest} (hm : m ∈ d.schemas) : m ∈ entry.inner :=
          entry.mem_inner (.case hd hm)
        rcases List.mem_append.mp hin with hin | hin
        · exact (comes_option htest s hin).mono fun m hm => hcase (List.mem_append_left _ hm)
        · exact (comes_option hbranch s hin).mono fun m hm => hcase (List.mem_append_right _ hm)
    · exact (comes_option hotherwise s hs).mono fun m hm => entry.mem_inner (.otherwise hm)

/-- The schemas of a form were built of descriptions in the sheet. -/
theorem comes_form {kind : Kind} {form : Form Schema}
    (h : BuildsForm registry make sheet kind form) :
    ∀ s ∈ form.schemas, Comes make sheet.inner s := by
  intro s hs
  cases h with
  | alternatives hentries hbase =>
    rcases List.mem_append.mp hs with hs | hs
    · obtain ⟨m, hm, hin⟩ := List.mem_flatMap.mp hs
      obtain ⟨entry, hentry, hmatch⟩ := Attempt.exists_of_mem_forall₂ hentries hm
      exact (comes_matchEntry hmatch s hin).mono fun d hd => sheet.mem_inner (.entry hentry hd)
    · exact (comes_option hbase s hs).mono fun d hd => sheet.mem_inner (.base hd)
  | array hitems hordered =>
    rcases List.mem_append.mp hs with hs | hs
    · exact (comes_list hitems s hs).mono fun d hd => sheet.mem_inner (.item hd)
    · exact (comes_list hordered s hs).mono fun d hd => sheet.mem_inner (.ordered hd)
  | object hf => exact comes_object hf s hs
  | any | binary | boolean | date | lazy | number | string => exact absurd hs List.not_mem_nil

/-- What has the form of an object was built as one. -/
theorem object_of_form {kind : Kind} {f : ObjectForm Schema}
    (h : BuildsForm registry make sheet kind (.object f)) : object make sheet = .ok f := by
  cases h with
  | object hf => exact hf

/-- What stands inside a built schema was built, from what the sheet holds. -/
theorem inner_schema {s : Schema} (h : schema registry make sheet = .ok s) :
    ∀ child ∈ s.inner, Comes make (descriptions sheet) child := by
  obtain ⟨kind, form, n, allowed, denied, m, notes, -, hform, hn, -, -, hm, -, -, rfl⟩ :=
    schema_ok h
  obtain ⟨flags, empty, description, unit, hempty, -, -, rfl⟩ := setFlags_ok hn
  have hstart : ∀ child ∈ Node.inner { form, flags, empty, notes := { description, unit } },
      Comes make (descriptions sheet) child := by
    intro child hchild
    rcases List.mem_append.mp hchild with hbefore | hin
    · rcases List.mem_append.mp hbefore with hin | hrules
      · refine (comes_option hempty child hin).mono fun d hd => ?_
        exact List.mem_append_left _ (sheet.mem_inner (.empty hd))
      · exact absurd hrules List.not_mem_nil
    · exact (comes_form (form_ok hform) child hin).mono fun d hd => List.mem_append_left _ hd
  -- the sets hold no schemas, and what a rule adds was built from its arguments
  refine Attempt.foldlM_ok (P :=
    fun m => ∀ child ∈ m.inner, Comes make (descriptions sheet) child) ?_ ?_ hm
  · intro n entry m hentry hn hstep child hchild
    obtain ⟨rule, hadds, rfl⟩ := adds_addRule hstep
    rcases inner_appendRule hchild with hold | hnew
    · exact hn child hold
    · refine (hadds.comes child hnew).mono fun d hd => List.mem_append_right _ ?_
      exact List.mem_flatMap.mpr ⟨entry, hentry, hd⟩
  · rw [foldl_keeps Node.inner Node.deny (fun _ _ => rfl),
      foldl_keeps Node.inner Node.allow (fun _ _ => rfl)]
    exact hstart

/-- The schemas among the arguments of a built schema were built from those among
the arguments described. -/
theorem comes_rules {s : Schema} (h : schema registry make sheet = .ok s) :
    ∀ child ∈ s.node.rules.flatMap Rule.schemas,
      Comes make (sheet.rules.flatMap entryDescriptions) child := by
  obtain ⟨kind, form, n, allowed, denied, m, notes, -, -, hn, -, -, hm, -, -, rfl⟩ := schema_ok h
  obtain ⟨flags, empty, description, unit, -, -, -, rfl⟩ := setFlags_ok hn
  show ∀ child ∈ m.rules.flatMap Rule.schemas,
    Comes make (sheet.rules.flatMap entryDescriptions) child
  refine Attempt.foldlM_ok (P := fun m : Node Schema => ∀ child ∈ m.rules.flatMap Rule.schemas,
    Comes make (sheet.rules.flatMap entryDescriptions) child) ?_ ?_ hm
  · intro n entry m hentry hn hstep child hchild
    obtain ⟨added, hadds, rfl⟩ := adds_addRule hstep
    obtain ⟨rule, hrule, hin⟩ := List.mem_flatMap.mp hchild
    rcases mem_appendRule hrule with hold | rfl
    · exact hn child (List.mem_flatMap.mpr ⟨rule, hold, hin⟩)
    · exact (hadds.comes child hin).mono fun d hd => List.mem_flatMap.mpr ⟨entry, hentry, hd⟩
  · rw [foldl_keeps Node.rules Node.deny (fun _ _ => rfl),
      foldl_keeps Node.rules Node.allow (fun _ _ => rfl)]
    exact List.forall_mem_nil _

/-- The form is built first and stays. -/
theorem form_of_schema {s : Schema} (h : schema registry make sheet = .ok s) :
    ∃ kind, BuildsForm registry make sheet kind s.node.form := by
  obtain ⟨kind, form, n, allowed, denied, m, notes, -, hform, hn, -, -, hm, -, -, rfl⟩ :=
    schema_ok h
  obtain ⟨flags, empty, description, unit, -, -, -, rfl⟩ := setFlags_ok hn
  have hkeeps : m.form = form := by
    refine Attempt.foldlM_ok (P := fun m : Node Schema => m.form = form) ?_ ?_ hm
    · intro n rule m _ hn hstep
      obtain ⟨added, -, rfl⟩ := adds_addRule hstep
      exact hn
    · rw [foldl_keeps Node.form Node.deny (fun _ _ => rfl),
        foldl_keeps Node.form Node.allow (fun _ _ => rfl)]
  exact ⟨kind, hkeeps.symm ▸ form_ok hform⟩

/-- A built schema has the preferences of its sheet. -/
theorem prefs_schema {s : Schema} (h : schema registry make sheet = .ok s) :
    s.node.prefs = sheet.preferences := by
  obtain ⟨kind, form, n, allowed, denied, m, notes, -, -, -, -, -, -, -, -, rfl⟩ := schema_ok h
  rfl

/-- A built object has its children in order. -/
theorem hasOrder_schema {s : Schema} (h : schema registry make sheet = .ok s) : HasOrder s := by
  intro f hf
  obtain ⟨kind, hform⟩ := form_of_schema h
  rw [hf] at hform
  exact ordered_object (object_of_form hform)

/-- What building establishes node by node, for descriptions that hand down what it
takes, holds everywhere. -/
theorem everywhere_schemaWithin {Q : Manifest → Prop} {P : Schema → Prop}
    (hQ : ∀ m, Q m → ∀ d ∈ descriptions m.sheet, Q d)
    (hP : ∀ fuel m s, Q m → schema registry (schemaWithin registry fuel) m.sheet = .ok s → P s)
    {fuel : Nat} {m : Manifest} {s : Schema} (hm : Q m) (h : schemaWithin registry fuel m = .ok s) :
    s.Everywhere P := by
  induction fuel generalizing m s with
  | zero => exact absurd h (by simp [schemaWithin])
  | succ fuel ih =>
    refine everywhere_iff.mpr ⟨hP fuel m s hm h, fun child hchild => ?_⟩
    obtain ⟨d, hd, hmade⟩ := inner_schema h child hchild
    exact ih (hQ m hm d hd) hmade

end Conform.Build

namespace Conform.Manifest

/-- In a built schema the children of every object are in order. -/
theorem build_hasOrder {m : Manifest} {registry : Registry} {s : Schema}
    (h : m.build registry = .ok s) : s.Everywhere Schema.HasOrder :=
  Build.everywhere_schemaWithin (fun _ _ _ _ => trivial)
    (fun _ _ _ _ hmade => Build.hasOrder_schema hmade) trivial h

end Conform.Manifest
