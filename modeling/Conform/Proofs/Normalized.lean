import Conform.Proofs.BuiltKnown
import Conform.Proofs.FiniteNumbers
import Conform.Proofs.Redescribed

/-!
# Normal descriptions

What a description says of a schema that was built from a description that was read is normal: it is
built again, and described again to the letter. The oddities that building lets pass are settled
once, when the schema is built: what is missing gets its place, what is repeated is replaced, what
is unknown is left out. A description inside an argument of a rule was sorted when it was read, so
writing it and reading it once more changes nothing.

Three things are put together. What was read from a source is proper, at every depth and also in the
arguments of rules (`CameFrom`). What is built of proper descriptions is regular, known and, inside
arguments, neat, by what is known of building. And a schema of which all this is known is described
and built again to one that says the same, so that the description of that one is the description of
the first, to the letter.

What a text can say is limited by the reader: its numbers are finite, so that the theorem for texts
is a case of that for finite numbers. The one assumption left is that dates are read back to the
millisecond, which is asked of the dates that occur. The sample has the two values that do not come
back as they were, and a flag that is dropped.

Main statement: `Manifest.normal_of_finite`.
-/

namespace Conform

open Json Manifest

/-! ### Descriptions that were read -/

namespace Manifest

variable {P : Source → Prop} {m : Manifest}

/-- The description was read from a source with the property. -/
def CameFrom (P : Source → Prop) (m : Manifest) : Prop := ∃ source, P source ∧ read? source = some m

theorem CameFrom.reads (h : m.CameFrom P) : ∃ source fields, P source ∧
    source.record? sheetFields = some fields ∧ m.sheet.Reads read? fields := by
  obtain ⟨source, hsource, hread⟩ := h
  rw [read?_eq] at hread
  obtain ⟨sheet, hsheet, rfl⟩ := Option.map_eq_some_iff.mp hread
  obtain ⟨fields, hfields, hreads⟩ := Sheet.read?_iff.mp hsheet
  exact ⟨source, fields, hsource, hfields, hreads⟩

theorem CameFrom.proper (hfinite : ∀ s, P s → s.isFinite = true) (h : m.CameFrom P) :
    m.sheet.Proper := by
  obtain ⟨source, fields, hsource, hfields, hreads⟩ := h.reads
  exact hreads.proper (hfinite source hsource) hfields

/-- A description among the arguments of rules was read from proper data. -/
theorem Sheet.Proper.arguments {sheet : Sheet Manifest} (h : sheet.Proper) :
    ∀ d ∈ sheet.rules.flatMap Build.entryDescriptions, d.CameFrom Source.IsProper := by
  intro d hd
  obtain ⟨rule, hrule, hd⟩ := List.mem_flatMap.mp hd
  obtain ⟨arg, harg, hd⟩ := List.mem_filterMap.mp hd
  obtain ⟨content, hcontent, hread⟩ := Option.bind_eq_some_iff.mp hd
  have hproper : content.Proper := Build.proper_untagged (h.args rule hrule arg harg) hcontent
  exact ⟨content.toSource, ⟨content, hproper, rfl⟩, hread⟩

/-- The descriptions inside were read from sources of the same kind, be they finite or proper. -/
theorem CameFrom.descriptions (hP : Source.Inherited P) (hfinite : ∀ s, P s → s.isFinite = true)
    (hproper : ∀ s : Source, s.IsProper → P s) (h : m.CameFrom P) :
    ∀ d ∈ Build.descriptions m.sheet, d.CameFrom P := by
  intro d hd
  -- what is read from an argument was sorted with it, whatever the source of
  -- the description is like
  rcases List.mem_append.mp hd with hin | harg
  · obtain ⟨source, fields, hsource, hfields, hreads⟩ := h.reads
    exact hreads.readFrom hP (hP source hsource) hfields d hin
  · obtain ⟨source, hsource, hread⟩ := (h.proper hfinite).arguments d harg
    exact ⟨source, hproper source hsource, hread⟩

end Manifest

/-! ### Neat nodes -/

namespace Build

variable {registry : Registry} {make : Manifest → Attempt Schema} {sheet : Sheet Manifest}

theorem keys_of_mapM {described : List (String × Manifest)} {children : List (String × Schema)}
    (h : (described.mapM fun child => do return (child.1, ← make child.2)) = .ok children) :
    Members.keys children = Members.keys described := by
  have hkeys : List.Forall₂ (· = ·) (described.map (·.1)) (children.map (·.1)) := by
    rw [List.forall₂_map_left_iff, List.forall₂_map_right_iff]
    refine (Attempt.mapM_ok_iff.mp h).imp fun d child hstep => ?_
    obtain ⟨made, -, hstep⟩ := Attempt.bind_ok hstep
    obtain rfl := Except.ok.inj hstep
    rfl
  rw [List.forall₂_eq_eq_eq] at hkeys
  exact hkeys.symm

/-- The children of an object are declared in the order of their descriptions. -/
theorem ascending_object {f : ObjectForm Schema}
    (hkeys : ∀ children ∈ sheet.keys, (Members.keys children).Pairwise (· < ·))
    (h : object make sheet = .ok f) : (Members.keys f.children).Pairwise (· < ·) := by
  obtain ⟨unknown, base, renamed, patterns, hbase, hrenamed, -, rfl⟩ := object_ok h
  obtain ⟨hsame, -⟩ := ObjectForm.foldlM_addRename_same sheet.renames hrenamed
  show (Members.keys (renamed.keys.getD [])).Pairwise (· < ·)
  rw [hsame]
  rcases hbase with rfl | ⟨described, children, hdescribed, hmade, hset⟩
  · exact List.Pairwise.nil
  · obtain ⟨order, -, rfl⟩ := ObjectForm.setChildren_eq_ok.mp hset
    have hascend : (Members.keys children).Pairwise (· < ·) :=
      keys_of_mapM hmade ▸ hkeys described hdescribed
    have hall : Members.insertAll [] children = children :=
      Members.insertAll_of_distinct (hascend.imp ne_of_lt)
    exact hall.symm ▸ hascend

/-- A node is neat if its sheet was read from proper data. -/
theorem neat_schema {m : Manifest} (hm : m.CameFrom Source.IsProper) {s : Schema}
    (h : schema registry make m.sheet = .ok s) : s.Neat := by
  obtain ⟨source, fields, hsource, hfields, hreads⟩ := hm.reads
  refine ⟨fun f hf => ?_, fun p hp => ?_⟩
  · obtain ⟨kind, hform⟩ := form_of_schema h
    rw [hf] at hform
    exact ascending_object (hreads.keys_ascend hsource hfields) (object_of_form hform)
  · rw [prefs_schema h] at hp
    rcases Source.Fields.withDefault?_some hreads.preferences with ⟨t, ht, hread⟩ | ⟨-, hnone⟩
    · exact PreferencesPatch.neat_of_read?
        (field_of (Source.inherited_isProper source hsource) hfields ht)
        (Source.nullable?_some hread hp).2
    · rw [hnone] at hp
      exact absurd hp (by simp)

end Build

/-! ### Normal descriptions -/

namespace Manifest

variable {registry : Registry} {m : Manifest} {s : Schema}

/-- What a built schema mentions is known everywhere, if the description was
read from finite numbers. -/
theorem built_known (hm : m.CameFrom fun source => source.isFinite = true)
    (h : m.build registry = .ok s) : s.Everywhere (Schema.Known registry) :=
  Build.everywhere_schemaWithin
    (fun _ hd => hd.descriptions Source.inherited_isFinite (fun _ hs => hs) fun _ hs => hs.isFinite)
    (fun _ _ _ hd hmade => Build.known_schema (hd.proper fun _ hs => hs) hmade) hm h

/-- Schemas inside arguments of rules are neat everywhere. -/
theorem built_neat (hm : m.CameFrom fun source => source.isFinite = true)
    (h : m.build registry = .ok s) :
    s.Everywhere fun t =>
    ∀ child ∈ t.node.rules.flatMap Rule.schemas, child.Everywhere Schema.Neat := by
  refine Build.everywhere_schemaWithin
    (fun _ hd => hd.descriptions Source.inherited_isFinite (fun _ hs => hs) fun _ hs => hs.isFinite)
    (fun fuel d t hd hmade child hchild => ?_) hm h
  -- below an argument all sources are proper, so the nodes there are neat
  obtain ⟨inner, hinner, hbuilt⟩ := Build.comes_rules hmade child hchild
  have hproper : inner.CameFrom Source.IsProper := (hd.proper fun _ hs => hs).arguments inner hinner
  exact Build.everywhere_schemaWithin
    (fun _ hd => hd.descriptions Source.inherited_isProper (fun _ hs => hs.isFinite) fun _ hs => hs)
    (fun _ _ _ hd hmade => Build.neat_schema hd hmade) hproper hbuilt

/-- What describes a schema that was built from finite numbers is built again,
and is described alike. -/
theorem normal_of_finite (hm : m.CameFrom fun source => source.isFinite = true)
    (h : m.build registry = .ok s) (hdates : s.Everywhere Schema.KeepsMilliseconds) :
    ∃ t, s.describe.build registry = .ok t ∧ t.describe = s.describe := by
  have htell : s.Everywhere (Schema.Tellable registry) := fun t ht =>
    ⟨build_regular h t ht, built_known hm h t ht, hdates t ht⟩
  exact Schema.redescribed htell (built_neat hm h)

/-- Normalizing a second time changes nothing: what describes a schema that was built from a JSON
text is built again, and is described alike, if dates are read back to the millisecond. -/
theorem normal_of_text {text : String} {source : Source} (htext : Json.read? text = some source)
    (hread : read? source = some m) (h : m.build registry = .ok s)
    (hdates : s.Everywhere Schema.KeepsMilliseconds) :
    ∃ t, s.describe.build registry = .ok t ∧ t.describe = s.describe :=
  normal_of_finite ⟨source, Json.finite_read? htext, hread⟩ h hdates

/-- Arrays that have a date between two milliseconds, or an item that is no negative zero. The
description of these items has a flag that no schema has. -/
def oddText : String :=
  "\x7b\"type\":\"array\",\"allow\":[\x7b\"date\":\"2020-05-01T00:00:00.0005Z\"\x7d]," ++
  "\"rules\":[\x7b\"name\":\"has\",\"args\":\x7b\"schema\":\x7b\"schema\":\x7b" ++
  "\"type\":\"any\",\"flags\":\x7b\"odd\":1\x7d,\"invalid\":[-0.0]\x7d\x7d\x7d\x7d]\x7d"

def oddSchema? : Option Schema :=
  ((Json.read? oddText).bind read?).bind fun m => m.build.toOption

theorem normal_of_text_odd :
    ∃ source m s t, Json.read? oddText = some source ∧ read? source = some m ∧
    m.build = .ok s ∧ s.describe.build = .ok t ∧ t.describe = s.describe := by
  have hchecks : oddSchema?.any (fun s => decide s.KeepsMilliseconds &&
      s.inner.all fun child => decide child.KeepsMilliseconds && child.inner.isEmpty) = true := by
      decide +kernel
  cases hodd : oddSchema? with
  | none =>
    rw [hodd] at hchecks
    exact absurd hchecks (by simp)
  | some s =>
    rw [hodd] at hchecks
    obtain ⟨hself, hinner⟩ := Bool.and_eq_true_iff.mp hchecks
    -- nothing stands inside what the items are held against
    have hdates : s.Everywhere Schema.KeepsMilliseconds := by
      refine Schema.everywhere_iff.mpr ⟨of_decide_eq_true hself, fun child hchild => ?_⟩
      obtain ⟨hkeeps, hleaf⟩ := Bool.and_eq_true_iff.mp (List.all_eq_true.mp hinner child hchild)
      refine Schema.everywhere_iff.mpr ⟨of_decide_eq_true hkeeps, ?_⟩
      rw [List.isEmpty_iff.mp hleaf]
      exact List.forall_mem_nil _
    obtain ⟨m, hm, hmade⟩ := Option.bind_eq_some_iff.mp hodd
    obtain ⟨source, htext, hread⟩ := Option.bind_eq_some_iff.mp hm
    have hbuild : m.build = .ok s := by
      cases hb : m.build with
      | error reason =>
        rw [hb] at hmade
        exact absurd hmade (by simp [Except.toOption])
      | ok t =>
        rw [hb] at hmade
        exact congrArg Except.ok (Option.some.inj hmade)
    obtain ⟨t, ht, hsame⟩ := normal_of_text htext hread hbuild hdates
    exact ⟨source, m, s, t, htext, hread, hbuild, ht, hsame⟩

end Manifest

end Conform
