import Conform.Manifest.Basic
import Conform.Proofs.JsonSource

/-!
# What a description was read from

A sheet is read field by field from the members of a source (`Sheet.Reads`), its inner descriptions
from parts of the source, which nest less deep. The depth of a source is therefore enough to read it
by, and how much more is allowed does not matter (`Manifest.read?_eq`).

The reader of descriptions takes a reader of inner descriptions as a parameter and a number that
bounds how often it calls itself. Two things have to be known of it. First, that readers which agree
on all sources up to some depth (`AgreeBelow`) make readers of sheets which agree a level further
out; the lemmas that end in `_congr` say so for each part of a sheet, and the equation of the reader
follows by induction on the depth. Secondly, what a description that was read was read from: every
inner description comes of a source inside (`ReadFrom`), so whatever is inherited by what is inside
of sources (`Inherited`) is known of all inner descriptions. Bounds on depth and height are of that
kind, and so is that members are sorted.

Data that is read from a source is sorted at every depth (`Source.sorted_of_toJson?`), because the
maps that hold members of data keep their keys in order.
-/

namespace Conform

namespace Json

/-- The depth of members is within a bound just if that of each is. -/
theorem depthMembers_le {members : List (String × Json)} {bound : Nat} :
    depthMembers members ≤ bound ↔ ∀ member ∈ members, member.2.depth ≤ bound := by
  induction members with
  | nil => simp [depthMembers]
  | cons member rest ih => rw [depthMembers, Nat.max_le, ih, List.forall_mem_cons]

/-- Sorting members makes nothing deeper. -/
theorem depth_sortMembers (members : List (String × Json)) :
    depthMembers (sortMembers members) ≤ depthMembers members :=
  depthMembers_le.mpr fun member hmember =>
    depthMembers_le.mp (Nat.le_refl _) member (mem_sortMembers hmember)

end Json

namespace Source

/-! ### Parts -/

/-- The sources directly inside. -/
def inner : Source → List Source
  | .array items => items
  | .object members => Members.values members
  | _ => []

/-- An item is not deeper than all items together. -/
theorem depthItems_lt {items : List Source} {s : Source} (h : s ∈ items) :
    s.depth ≤ depthItems items := by
  induction items with
  | nil => exact absurd h List.not_mem_nil
  | cons item rest ih =>
    unfold depthItems
    rcases List.mem_cons.mp h with rfl | h
    · exact Nat.le_max_left _ _
    · exact Nat.le_trans (ih h) (Nat.le_max_right _ _)

/-- A member is not deeper than all members together. -/
theorem depthMembers_lt {members : List (String × Source)} {s : Source}
    (h : s ∈ Members.values members) : s.depth ≤ depthMembers members := by
  induction members with
  | nil => exact absurd h List.not_mem_nil
  | cons member rest ih =>
    unfold depthMembers
    rcases List.mem_cons.mp h with rfl | h
    · exact Nat.le_max_left _ _
    · exact Nat.le_trans (ih h) (Nat.le_max_right _ _)

/-- What is inside a source nests less deep than the source. -/
theorem depth_inner {source s : Source} (h : s ∈ source.inner) : s.depth < source.depth := by
  cases source with
  | array items => exact Nat.lt_succ_of_le (depthItems_lt h)
  | object members => exact Nat.lt_succ_of_le (depthMembers_lt h)
  | _ => exact absurd h List.not_mem_nil

/-- A field of a record is a part of the source. -/
theorem mem_inner_of_record? {names : List String} {source : Source} {fields : Fields}
    (h : source.record? names = some fields) {name : String} {s : Source}
    (hs : fields.get? name = some s) : s ∈ source.inner := by
  cases source with
  | object members =>
    unfold record? at h
    dsimp only at h
    split at h
    next =>
      obtain rfl := Option.some.inj h
      have hmem := (List.mem_filter.mp (Members.mem_of_get? hs)).1
      exact List.mem_map_of_mem (f := (·.2)) hmem
    next => exact nomatch h
  | array items =>
    unfold record? at h
    dsimp only at h
    split at h
    next =>
      obtain rfl := Option.some.inj h
      exact (List.of_mem_zip (Members.mem_of_get? hs)).2
    next => exact nomatch h
  | _ => exact nomatch h

/-! ### Readers that agree -/

/-- Readers that agree on all items read a list alike. -/
theorem mapM_congr {α β : Type} {f g : α → Option β} {items : List α} (h : ∀ a ∈ items, f a = g a) :
    items.mapM f = items.mapM g := by
  induction items with
  | nil => rfl
  | cons a rest ih =>
    rw [List.mapM_cons, List.mapM_cons, h a (List.mem_cons_self ..),
      ih fun b hb => h b (List.mem_cons_of_mem _ hb)]

section Agree

variable {α : Type} {r r' : Source → Option α} {source : Source}

/-- Readers that agree on a source agree on it where it may be `null`. -/
theorem nullable?_congr (h : r source = r' source) : nullable? r source = nullable? r' source := by
  unfold nullable?
  rw [h]

/-- Readers that agree on what is inside a source read a list from it alike. -/
theorem list?_congr (h : ∀ s ∈ source.inner, r s = r' s) : list? r source = list? r' source := by
  cases source with
  | array items =>
    have hitems : ∀ s ∈ items, r s = r' s := h
    exact mapM_congr hitems
  | _ => rfl

/-- Readers that agree on what is inside a source read a table from it alike. -/
theorem table?_congr (h : ∀ s ∈ source.inner, r s = r' s) : table? r source = table? r' source := by
  cases source with
  | object members =>
    exact congrArg (Option.map Members.ofList) (mapM_congr fun member hmember => by
      rw [h member.2 (List.mem_map_of_mem hmember)])
  | _ => rfl

variable {fields : Fields} {name : String}

/-- A field is read alike by readers that agree on its source, and a missing one is the default. -/
theorem Fields.withDefault?_congr {default : α} (h : ∀ s, fields.get? name = some s → r s = r' s) :
    fields.withDefault? name default r = fields.withDefault? name default r' := by
  unfold Fields.withDefault?
  cases hget : fields.get? name with
  | none => rfl
  | some s => exact h s hget

/-- A field that may not be missing is read alike by readers that agree on its source. -/
theorem Fields.required?_congr (h : ∀ s, fields.get? name = some s → r s = r' s) :
    fields.required? name r = fields.required? name r' := by
  unfold Fields.required?
  cases hget : fields.get? name with
  | none => rfl
  | some s => exact h s hget

end Agree

end Source

namespace Manifest

variable {δ : Type}

/-! ### Fields of a sheet -/

/-- Field by field, the sheet is what the fields of a record say, its inner
descriptions read by `r`. -/
structure Sheet.Reads (r : Source → Option δ) (fields : Source.Fields)
    (sheet : Sheet δ) : Prop where
  kind : fields.withDefault? "type" "" Source.string? = some sheet.kind
  flags : fields.withDefault? "flags" [] (Source.table? Source.toJson?) = some sheet.flags
  empty : fields.withDefault? "empty" none (Source.nullable? r) = some sheet.empty
  preferences : fields.withDefault? "preferences" none (Source.nullable? PreferencesPatch.read?) =
    some sheet.preferences
  allow : fields.withDefault? "allow" [] (Source.list? Source.toJson?) = some sheet.allow
  invalid : fields.withDefault? "invalid" [] (Source.list? Source.toJson?) = some sheet.invalid
  rules : fields.withDefault? "rules" [] (Source.list? RuleEntry.read?) = some sheet.rules
  keys : fields.withDefault? "keys" none (Source.nullable? (Source.table? r)) = some sheet.keys
  renames : fields.withDefault? "renames" [] (Source.list? rename?) = some sheet.renames
  dependencies : fields.withDefault? "dependencies" [] (Source.list? dependency?) =
    some sheet.dependencies
  patterns : fields.withDefault? "patterns" [] (Source.list? (PatternEntry.read? r)) =
    some sheet.patterns
  items : fields.withDefault? "items" [] (Source.list? r) = some sheet.items
  ordered : fields.withDefault? "ordered" [] (Source.list? r) = some sheet.ordered
  entries : fields.withDefault? "matches" [] (Source.list? (MatchEntry.read? r)) =
    some sheet.entries
  base : fields.withDefault? "base" none (Source.nullable? r) = some sheet.base
  truthy : fields.withDefault? "truthy" [] (Source.list? Source.toJson?) = some sheet.truthy
  falsy : fields.withDefault? "falsy" [] (Source.list? Source.toJson?) = some sheet.falsy
  replacements : fields.withDefault? "replacements" [] (Source.list? replacement?) =
    some sheet.replacements
  generator : fields.withDefault? "generator" none (Source.nullable? Source.string?) =
    some sheet.generator
  notes : fields.withDefault? "notes" [] (Source.list? Source.string?) = some sheet.notes
  tags : fields.withDefault? "tags" [] (Source.list? Source.string?) = some sheet.tags
  examples : fields.withDefault? "examples" [] (Source.list? Source.toJson?) = some sheet.examples
  metas : fields.withDefault? "metas" [] (Source.list? Source.toJson?) = some sheet.metas

variable {r r' : Source → Option δ} {source : Source}

/-- A sheet is read just if the record is one and each field is read. -/
theorem Sheet.read?_iff {sheet : Sheet δ} : Sheet.read? r source = some sheet ↔
    ∃ fields, source.record? sheetFields = some fields ∧ sheet.Reads r fields := by
  constructor
  · intro h
    unfold Sheet.read? at h
    obtain ⟨fields, hfields, h⟩ := Option.bind_eq_some_iff.mp h
    obtain ⟨kind, hkind, h⟩ := Option.bind_eq_some_iff.mp h
    obtain ⟨flags, hflags, h⟩ := Option.bind_eq_some_iff.mp h
    obtain ⟨empty, hempty, h⟩ := Option.bind_eq_some_iff.mp h
    obtain ⟨preferences, hpreferences, h⟩ := Option.bind_eq_some_iff.mp h
    obtain ⟨allow, hallow, h⟩ := Option.bind_eq_some_iff.mp h
    obtain ⟨invalid, hinvalid, h⟩ := Option.bind_eq_some_iff.mp h
    obtain ⟨rules, hrules, h⟩ := Option.bind_eq_some_iff.mp h
    obtain ⟨keys, hkeys, h⟩ := Option.bind_eq_some_iff.mp h
    obtain ⟨renames, hrenames, h⟩ := Option.bind_eq_some_iff.mp h
    obtain ⟨dependencies, hdependencies, h⟩ := Option.bind_eq_some_iff.mp h
    obtain ⟨patterns, hpatterns, h⟩ := Option.bind_eq_some_iff.mp h
    obtain ⟨items, hitems, h⟩ := Option.bind_eq_some_iff.mp h
    obtain ⟨ordered, hordered, h⟩ := Option.bind_eq_some_iff.mp h
    obtain ⟨entries, hentries, h⟩ := Option.bind_eq_some_iff.mp h
    obtain ⟨base, hbase, h⟩ := Option.bind_eq_some_iff.mp h
    obtain ⟨truthy, htruthy, h⟩ := Option.bind_eq_some_iff.mp h
    obtain ⟨falsy, hfalsy, h⟩ := Option.bind_eq_some_iff.mp h
    obtain ⟨replacements, hreplacements, h⟩ := Option.bind_eq_some_iff.mp h
    obtain ⟨generator, hgenerator, h⟩ := Option.bind_eq_some_iff.mp h
    obtain ⟨notes, hnotes, h⟩ := Option.bind_eq_some_iff.mp h
    obtain ⟨tags, htags, h⟩ := Option.bind_eq_some_iff.mp h
    obtain ⟨examples, hexamples, h⟩ := Option.bind_eq_some_iff.mp h
    obtain ⟨metas, hmetas, h⟩ := Option.bind_eq_some_iff.mp h
    obtain rfl := Option.some.inj h
    exact ⟨fields, hfields,
      ⟨hkind, hflags, hempty, hpreferences, hallow, hinvalid, hrules, hkeys, hrenames,
      hdependencies, hpatterns, hitems, hordered, hentries, hbase, htruthy, hfalsy,
      hreplacements, hgenerator, hnotes, htags, hexamples, hmetas⟩⟩
  · rintro ⟨fields, hfields, h⟩
    unfold Sheet.read?
    rw [hfields]
    dsimp only [Option.bind_eq_bind, Option.bind_some]
    rw [h.kind, h.flags, h.empty, h.preferences, h.allow, h.invalid, h.rules, h.keys,
      h.renames, h.dependencies,
      h.patterns, h.items, h.ordered, h.entries, h.base, h.truthy, h.falsy, h.replacements,
      h.generator, h.notes, h.tags, h.examples, h.metas]
    rfl

/-! ### Depth is enough to read by -/

section Depth

/-- The readers agree on what nests less deep than the source. -/
def AgreeBelow (r r' : Source → Option δ) (source : Source) : Prop :=
    ∀ s, s.depth < source.depth → r s = r' s

/-- Readers that agree up to some depth agree up to a smaller one. -/
theorem AgreeBelow.below {s : Source} (h : AgreeBelow r r' source) (hs : s.depth ≤ source.depth) :
    AgreeBelow r r' s :=
  fun t ht => h t (Nat.lt_of_lt_of_le ht hs)

/-- Readers that agree below a source agree on what is inside. -/
theorem AgreeBelow.inner (h : AgreeBelow r r' source) : ∀ s ∈ source.inner, r s = r' s :=
  fun s hs => h s (Source.depth_inner hs)

variable {fields : Source.Fields} {names : List String}

/-- A field with a reader that only looks at less deep sources. -/
theorem AgreeBelow.field (h : AgreeBelow r r' source) (hfields : source.record? names = some fields)
    {name : String} {s : Source} (hs : fields.get? name = some s) :
    AgreeBelow r r' s ∧ r s = r' s := by
  have hlt := Source.depth_inner (Source.mem_inner_of_record? hfields hs)
  exact ⟨h.below (Nat.le_of_lt hlt), h s hlt⟩

/-- A key pattern is read alike by readers that agree below its source. -/
theorem PatternEntry.read?_congr (h : AgreeBelow r r' source) :
    PatternEntry.read? r source = PatternEntry.read? r' source := by
  unfold PatternEntry.read?
  cases hfields : source.record? ["regex", "schema", "rule"] with
  | none => rfl
  | some fields =>
    have hschema : fields.withDefault? "schema" none (Source.nullable? r) =
        fields.withDefault? "schema" none (Source.nullable? r') :=
      Source.Fields.withDefault?_congr fun s hs => Source.nullable?_congr (h.field hfields hs).2
    have hrule : fields.required? "rule" r = fields.required? "rule" r' :=
      Source.Fields.required?_congr fun s hs => (h.field hfields hs).2
    dsimp only [Option.bind_eq_bind, Option.bind_some]
    rw [hschema, hrule]

/-- A case is read alike by readers that agree below its source. -/
theorem case?_congr (h : AgreeBelow r r' source) : case? r source = case? r' source := by
  unfold case?
  cases hfields : source.record? ["is", "then"] with
  | none => rfl
  | some fields =>
    have hfield (name : String) : fields.withDefault? name none (Source.nullable? r) =
        fields.withDefault? name none (Source.nullable? r') :=
      Source.Fields.withDefault?_congr fun s hs => Source.nullable?_congr (h.field hfields hs).2
    dsimp only [Option.bind_eq_bind, Option.bind_some]
    rw [hfield, hfield]

/-- An entry of alternatives is read alike by readers that agree below its source. -/
theorem MatchEntry.read?_congr (h : AgreeBelow r r' source) :
    MatchEntry.read? r source = MatchEntry.read? r' source := by
  unfold MatchEntry.read?
  cases hfields : source.record? ["schema", "ref", "condition", "switch", "otherwise"] with
  | none => rfl
  | some fields =>
    have hfield (name : String) : fields.withDefault? name none (Source.nullable? r) =
        fields.withDefault? name none (Source.nullable? r') :=
      Source.Fields.withDefault?_congr fun s hs => Source.nullable?_congr (h.field hfields hs).2
    have hcases : fields.withDefault? "switch" [] (Source.list? (case? r)) =
        fields.withDefault? "switch" [] (Source.list? (case? r')) :=
      Source.Fields.withDefault?_congr fun s hs => Source.list?_congr fun t ht =>
        case?_congr ((h.field hfields hs).1.below (Nat.le_of_lt (Source.depth_inner ht)))
    dsimp only [Option.bind_eq_bind, Option.bind_some]
    rw [hfield, hfield, hfield, hcases]

/-- What a sheet's reader says of deeper sources does not matter. -/
theorem Sheet.reads_congr (h : AgreeBelow r r' source)
    (hfields : source.record? sheetFields = some fields)
    {sheet : Sheet δ} (hreads : sheet.Reads r fields) : sheet.Reads r' fields := by
  have hone (name : String) : fields.withDefault? name none (Source.nullable? r) =
      fields.withDefault? name none (Source.nullable? r') :=
    Source.Fields.withDefault?_congr fun s hs => Source.nullable?_congr (h.field hfields hs).2
  have hmany (name : String) : fields.withDefault? name [] (Source.list? r) =
      fields.withDefault? name [] (Source.list? r') :=
    Source.Fields.withDefault?_congr fun s hs => Source.list?_congr (h.field hfields hs).1.inner
  have hkeys : fields.withDefault? "keys" none (Source.nullable? (Source.table? r)) =
      fields.withDefault? "keys" none (Source.nullable? (Source.table? r')) :=
    Source.Fields.withDefault?_congr fun s hs =>
      Source.nullable?_congr (Source.table?_congr (h.field hfields hs).1.inner)
  have hpatterns : fields.withDefault? "patterns" [] (Source.list? (PatternEntry.read? r)) =
      fields.withDefault? "patterns" [] (Source.list? (PatternEntry.read? r')) :=
    Source.Fields.withDefault?_congr fun s hs => Source.list?_congr fun t ht =>
      PatternEntry.read?_congr ((h.field hfields hs).1.below (Nat.le_of_lt (Source.depth_inner ht)))
  have hentries : fields.withDefault? "matches" [] (Source.list? (MatchEntry.read? r)) =
      fields.withDefault? "matches" [] (Source.list? (MatchEntry.read? r')) :=
    Source.Fields.withDefault?_congr fun s hs => Source.list?_congr fun t ht =>
      MatchEntry.read?_congr ((h.field hfields hs).1.below (Nat.le_of_lt (Source.depth_inner ht)))
  exact { hreads with
    empty := hone "empty" ▸ hreads.empty
    keys := hkeys ▸ hreads.keys
    patterns := hpatterns ▸ hreads.patterns
    items := hmany "items" ▸ hreads.items
    ordered := hmany "ordered" ▸ hreads.ordered
    entries := hentries ▸ hreads.entries
    base := hone "base" ▸ hreads.base }

/-- A sheet is read alike by readers that agree below its source. -/
theorem Sheet.read?_congr (h : AgreeBelow r r' source) :
    Sheet.read? r source = Sheet.read? r' source := by
  ext sheet
  rw [Sheet.read?_iff, Sheet.read?_iff]
  constructor
  · rintro ⟨fields, hfields, hreads⟩
    exact ⟨fields, hfields, Sheet.reads_congr h hfields hreads⟩
  · rintro ⟨fields, hfields, hreads⟩
    exact ⟨fields, hfields, Sheet.reads_congr (fun s hs => (h s hs).symm) hfields hreads⟩

end Depth

/-- Whatever is allowed beyond the depth of the source, the same is read. -/
theorem readWithin_of_lt {fuel : Nat} {source : Source} (h : source.depth < fuel) :
    readWithin fuel source = read? source := by
  have hsame (depth : Nat) : ∀ (source : Source) (a b : Nat), source.depth < depth →
      source.depth < a → source.depth < b → readWithin a source = readWithin b source := by
    induction depth with
    | zero => exact fun source a b hdepth => absurd hdepth (Nat.not_lt_zero _)
    | succ depth ih =>
      intro source a b hdepth ha hb
      obtain ⟨a, rfl⟩ : ∃ k, a = k + 1 := ⟨a - 1, by omega⟩
      obtain ⟨b, rfl⟩ : ∃ k, b = k + 1 := ⟨b - 1, by omega⟩
      exact congrArg (Option.map Manifest.mk) (Sheet.read?_congr fun s hs =>
        ih s a b (by omega) (by omega) (by omega))
  exact hsame (source.depth + 1) source fuel (source.depth + 1) (Nat.lt_succ_self _) h
    (Nat.lt_succ_self _)

/-- A description is a sheet of descriptions read likewise. -/
theorem read?_eq (source : Source) : read? source = (Sheet.read? read? source).map Manifest.mk :=
  congrArg (Option.map Manifest.mk) (Sheet.read?_congr fun _ hs => readWithin_of_lt hs)

end Manifest

/-! ### What was read -/

namespace Source

section Read

variable {α : Type} {r : Source → Option α} {source : Source} {fields : Fields} {name : String}

/-- What was read of a field comes of its source, or is the default of a missing one. -/
theorem Fields.withDefault?_some {default a : α} (h : fields.withDefault? name default r = some a) :
    (∃ s, fields.get? name = some s ∧ r s = some a) ∨ (fields.get? name = none ∧ a = default) := by
  unfold Fields.withDefault? at h
  cases hget : fields.get? name with
  | none =>
    rw [hget] at h
    exact .inr ⟨rfl, (Option.some.inj h).symm⟩
  | some s =>
    rw [hget] at h
    exact .inl ⟨s, rfl, h⟩

/-- What was read of a source that may be `null` comes of one that is not. -/
theorem nullable?_some {o : Option α} (h : nullable? r source = some o) {a : α} (ha : a ∈ o) :
    source.isNull = false ∧ r source = some a := by
  unfold nullable? at h
  split at h
  next =>
    obtain rfl := Option.some.inj h
    exact nomatch ha
  next hnull =>
    obtain ⟨b, hb, rfl⟩ := Option.map_eq_some_iff.mp h
    obtain rfl := Option.some.inj ha
    exact ⟨Bool.eq_false_iff.mpr hnull, hb⟩

/-- Each result comes of an item. -/
theorem mem_of_mapM {β : Type} {f : β → Option α} {items : List β} {results : List α}
    (h : items.mapM f = some results) {a : α} (ha : a ∈ results) : ∃ b ∈ items, f b = some a := by
  induction items generalizing results with
  | nil =>
    obtain rfl := Option.some.inj h
    exact absurd ha List.not_mem_nil
  | cons b rest ih =>
    rw [List.mapM_cons] at h
    obtain ⟨first, hfirst, h⟩ := Option.bind_eq_some_iff.mp h
    obtain ⟨others, hothers, h⟩ := Option.bind_eq_some_iff.mp h
    obtain rfl := Option.some.inj h
    rcases List.mem_cons.mp ha with rfl | ha
    · exact ⟨b, List.mem_cons_self .., hfirst⟩
    · obtain ⟨c, hc, hfc⟩ := ih hothers ha
      exact ⟨c, List.mem_cons_of_mem _ hc, hfc⟩

/-- Each item that was read comes of something inside. -/
theorem list?_some {items : List α} (h : list? r source = some items) {a : α} (ha : a ∈ items) :
    ∃ s ∈ source.inner, r s = some a := by
  cases source with
  | array sources => exact mem_of_mapM h ha
  | _ => exact nomatch h

/-- Each value that was read of a table comes of something inside. -/
theorem table?_some {members : List (String × α)} (h : table? r source = some members)
    {entry : String × α} (hentry : entry ∈ members) : ∃ s ∈ source.inner, r s = some entry.2 := by
  cases source with
  | object sources =>
    obtain ⟨read, hread, rfl⟩ := Option.map_eq_some_iff.mp h
    rcases Members.mem_of_mem_insertAll hentry with hnone | hin
    · exact absurd hnone List.not_mem_nil
    · obtain ⟨member, hmember, hvalue⟩ := mem_of_mapM hread hin
      obtain ⟨value, hfound, rfl⟩ := Option.map_eq_some_iff.mp hvalue
      exact ⟨member.2, List.mem_map_of_mem hmember, hfound⟩
  | _ => exact nomatch h

end Read

mutual
/-- Data is no deeper than the source it was read from. -/
theorem depth_toJson? {source : Source} {json : Json} (h : source.toJson? = some json) :
    json.depth ≤ source.depth := by
  cases source with
  | array items =>
    rw [toJson?] at h
    obtain ⟨read, hread, rfl⟩ := Option.map_eq_some_iff.mp h
    exact Nat.succ_le_succ (depth_toItems? hread)
  | object members =>
    rw [toJson?] at h
    obtain ⟨read, hread, rfl⟩ := Option.map_eq_some_iff.mp h
    exact Nat.succ_le_succ (Nat.le_trans (Json.depth_sortMembers read) (depth_toMembers? hread))
  | unreadable => exact nomatch h
  | _ =>
    rw [toJson?] at h
    obtain rfl := Option.some.inj h
    exact Nat.le_refl _

theorem depth_toItems? {items : List Source} {read : List Json} (h : toItems? items = some read) :
    Json.depthItems read ≤ depthItems items := by
  cases items with
  | nil =>
    obtain rfl := Option.some.inj h
    exact Nat.le_refl _
  | cons item rest =>
    rw [toItems?] at h
    obtain ⟨json, hjson, h⟩ := Option.bind_eq_some_iff.mp h
    obtain ⟨others, hothers, h⟩ := Option.bind_eq_some_iff.mp h
    obtain rfl := Option.some.inj h
    have hfirst := depth_toJson? hjson
    have hrest := depth_toItems? hothers
    unfold Json.depthItems depthItems
    omega

theorem depth_toMembers? {members : List (String × Source)} {read : List (String × Json)}
    (h : toMembers? members = some read) : Json.depthMembers read ≤ depthMembers members := by
  cases members with
  | nil =>
    obtain rfl := Option.some.inj h
    exact Nat.le_refl _
  | cons member rest =>
    obtain ⟨key, value⟩ := member
    rw [toMembers?] at h
    obtain ⟨json, hjson, h⟩ := Option.bind_eq_some_iff.mp h
    obtain ⟨others, hothers, h⟩ := Option.bind_eq_some_iff.mp h
    obtain rfl := Option.some.inj h
    have hfirst := depth_toJson? hjson
    have hrest := depth_toMembers? hothers
    unfold Json.depthMembers depthMembers
    omega
end

/-- The property goes from a source to its parts. -/
def Inherited (P : Source → Prop) : Prop := ∀ s, P s → ∀ t ∈ s.inner, P t

end Source

namespace Manifest

variable {δ : Type} {r : Source → Option δ} {source : Source}
  {fields : Source.Fields} {P : Source → Prop}

open Source

/-- The descriptions were read from sources with the property. -/
def ReadFrom (r : Source → Option δ) (P : Source → Prop) (inner : List δ) : Prop :=
  ∀ d ∈ inner, ∃ s, P s ∧ r s = some d

/-- What two lists were read from, both were read from together. -/
theorem ReadFrom.append {a b : List δ} (ha : ReadFrom r P a) (hb : ReadFrom r P b) :
    ReadFrom r P (a ++ b) :=
  fun d hd => (List.mem_append.mp hd).elim (ha d) (hb d)

section Parts

variable (hsource : ∀ t ∈ source.inner, P t) {names : List String}
  (hfields : source.record? names = some fields) {name : String}
include hsource hfields

/-- The source of a field is inside the source of the record. -/
theorem field_of {s : Source} (hs : fields.get? name = some s) : P s :=
  hsource s (mem_inner_of_record? hfields hs)

/-- A schema that may be missing was read from inside. -/
theorem one_of {o : Option δ} (h : fields.withDefault? name none (nullable? r) = some o) :
    ReadFrom r P o.toList := by
  intro d hd
  rcases Fields.withDefault?_some h with ⟨s, hs, hread⟩ | ⟨-, rfl⟩
  · exact ⟨s, field_of hsource hfields hs, (nullable?_some hread (Option.mem_toList.mp hd)).2⟩
  · exact absurd hd List.not_mem_nil

/-- Schemas of a list were read from inside. -/
theorem many_of (hP : Inherited P) {items : List δ}
    (h : fields.withDefault? name [] (list? r) = some items) : ReadFrom r P items := by
  intro d hd
  rcases Fields.withDefault?_some h with ⟨s, hs, hread⟩ | ⟨-, rfl⟩
  · obtain ⟨t, ht, hd⟩ := list?_some hread hd
    exact ⟨t, hP s (field_of hsource hfields hs) t ht, hd⟩
  · exact absurd hd List.not_mem_nil

end Parts

/-- The schemas of a key pattern were read from inside. -/
theorem PatternEntry.readFrom (hsource : ∀ t ∈ source.inner, P t) {p : PatternEntry δ}
    (h : PatternEntry.read? r source = some p) : ReadFrom r P p.inner := by
  unfold PatternEntry.read? at h
  obtain ⟨fields, hfields, h⟩ := Option.bind_eq_some_iff.mp h
  obtain ⟨regex, -, h⟩ := Option.bind_eq_some_iff.mp h
  obtain ⟨schema, hschema, h⟩ := Option.bind_eq_some_iff.mp h
  obtain ⟨rule, hrule, h⟩ := Option.bind_eq_some_iff.mp h
  obtain rfl := Option.some.inj h
  refine (one_of hsource hfields hschema).append fun d hd => ?_
  obtain rfl := List.mem_singleton.mp hd
  obtain ⟨s, hs, hread⟩ := Option.bind_eq_some_iff.mp hrule
  exact ⟨s, field_of hsource hfields hs, hread⟩

/-- The schemas of a case were read from inside. -/
theorem case_readFrom (hsource : ∀ t ∈ source.inner, P t) {c : Case δ}
    (h : case? r source = some c) : ReadFrom r P c.schemas := by
  unfold case? at h
  obtain ⟨fields, hfields, h⟩ := Option.bind_eq_some_iff.mp h
  obtain ⟨test, htest, h⟩ := Option.bind_eq_some_iff.mp h
  obtain ⟨branch, hbranch, h⟩ := Option.bind_eq_some_iff.mp h
  obtain rfl := Option.some.inj h
  exact (one_of hsource hfields htest).append (one_of hsource hfields hbranch)

/-- The schemas of an entry of alternatives were read from inside. -/
theorem MatchEntry.readFrom (hP : Inherited P)
    (hsource : ∀ t ∈ source.inner, P t) {m : MatchEntry δ}
    (h : MatchEntry.read? r source = some m) : ReadFrom r P m.inner := by
  unfold MatchEntry.read? at h
  obtain ⟨fields, hfields, h⟩ := Option.bind_eq_some_iff.mp h
  obtain ⟨schema, hschema, h⟩ := Option.bind_eq_some_iff.mp h
  obtain ⟨reference, -, h⟩ := Option.bind_eq_some_iff.mp h
  obtain ⟨condition, hcondition, h⟩ := Option.bind_eq_some_iff.mp h
  obtain ⟨cases, hcases, h⟩ := Option.bind_eq_some_iff.mp h
  obtain ⟨otherwise, hotherwise, h⟩ := Option.bind_eq_some_iff.mp h
  obtain rfl := Option.some.inj h
  have hone {name : String} {o : Option δ}
      (h : fields.withDefault? name none (nullable? r) = some o) :=
    one_of hsource hfields h
  refine (((hone hschema).append (hone hcondition)).append fun d hd => ?_).append (hone hotherwise)
  obtain ⟨c, hc, hd⟩ := List.mem_flatMap.mp hd
  rcases Fields.withDefault?_some hcases with ⟨s, hs, hread⟩ | ⟨-, rfl⟩
  · obtain ⟨t, ht, hcase⟩ := list?_some hread hc
    exact case_readFrom (hP t (hP s (field_of hsource hfields hs) t ht)) hcase d hd
  · exact absurd hc List.not_mem_nil

/-- What stands inside a sheet was read from parts of its source, which have whatever property the
parts directly inside have and hand down. -/
theorem Sheet.Reads.readFrom (hP : Inherited P) (hsource : ∀ t ∈ source.inner, P t)
    (hfields : source.record? sheetFields = some fields) {sheet : Sheet δ}
    (h : sheet.Reads r fields) : ReadFrom r P sheet.inner := by
  have hone {name : String} {o : Option δ}
      (h : fields.withDefault? name none (nullable? r) = some o) :=
    one_of hsource hfields h
  have hmany {name : String} {items : List δ}
      (h : fields.withDefault? name [] (list? r) = some items) :=
    many_of hsource hfields hP h
  have hpart {name : String} {s : Source} (hs : fields.get? name = some s) {t : Source}
      (ht : t ∈ s.inner) : P t :=
    hP s (field_of hsource hfields hs) t ht
  refine ((((((hone h.empty).append ?_).append ?_).append (hmany h.items)).append
    (hmany h.ordered)).append ?_).append (hone h.base)
  · intro d hd
    -- declared children come from a table
    obtain ⟨entry, hentry, rfl⟩ := List.mem_map.mp hd
    cases hkeys : sheet.keys with
    | none =>
      rw [hkeys] at hentry
      exact absurd hentry List.not_mem_nil
    | some children =>
      rw [hkeys] at hentry
      rcases Fields.withDefault?_some h.keys with ⟨s, hs, hread⟩ | ⟨-, hnone⟩
      · obtain ⟨t, ht, hd⟩ := table?_some (nullable?_some hread hkeys).2 hentry
        exact ⟨t, hpart hs ht, hd⟩
      · rw [hkeys] at hnone
        exact nomatch hnone
  · -- patterns and entries hold theirs one step further in
    intro d hd
    obtain ⟨p, hp, hd⟩ := List.mem_flatMap.mp hd
    rcases Fields.withDefault?_some h.patterns with ⟨s, hs, hread⟩ | ⟨-, hnil⟩
    · obtain ⟨t, ht, hpattern⟩ := list?_some hread hp
      exact PatternEntry.readFrom (hP t (hpart hs ht)) hpattern d hd
    · rw [hnil] at hp
      exact absurd hp List.not_mem_nil
  · intro d hd
    obtain ⟨m, hm, hd⟩ := List.mem_flatMap.mp hd
    rcases Fields.withDefault?_some h.entries with ⟨s, hs, hread⟩ | ⟨-, hnil⟩
    · obtain ⟨t, ht, hentry⟩ := list?_some hread hm
      exact MatchEntry.readFrom hP (hP t (hpart hs ht)) hentry d hd
    · rw [hnil] at hm
      exact absurd hm List.not_mem_nil

/-! ### How high what was read is -/

theorem greatest_le {numbers : List Nat} {bound : Nat} (h : ∀ n ∈ numbers, n ≤ bound) :
    greatest numbers ≤ bound := by
  have hfold (start : Nat) (hstart : start ≤ bound) : numbers.foldl max start ≤ bound := by
    induction numbers generalizing start with
    | nil => exact hstart
    | cons n rest ih =>
      obtain ⟨hn, hrest⟩ := List.forall_mem_cons.mp h
      exact ih hrest _ (Nat.max_le.mpr ⟨hstart, hn⟩)
  exact hfold 0 (Nat.zero_le _)

/-- The arguments of a rule are less deep than the rule's source. -/
theorem RuleEntry.depth_of_read? {rule : RuleEntry} (h : RuleEntry.read? source = some rule) :
    ∀ arg ∈ rule.args, arg.2.depth < source.depth := by
  unfold RuleEntry.read? at h
  obtain ⟨fields, hfields, h⟩ := Option.bind_eq_some_iff.mp h
  obtain ⟨name, -, h⟩ := Option.bind_eq_some_iff.mp h
  obtain ⟨args, hargs, h⟩ := Option.bind_eq_some_iff.mp h
  obtain rfl := Option.some.inj h
  intro arg harg
  rcases Fields.withDefault?_some hargs with ⟨s, hs, hread⟩ | ⟨-, hnil⟩
  · obtain ⟨t, ht, hjson⟩ := table?_some hread harg
    have hfield := depth_inner (mem_inner_of_record? hfields hs)
    have hpart := depth_inner ht
    have hdepth := depth_toJson? hjson
    omega
  · obtain rfl : args = [] := hnil
    exact absurd harg List.not_mem_nil

/-- A description is no higher than its source is deep. -/
theorem height_of_read? {m : Manifest} (h : read? source = some m) :
    m.height ≤ source.depth + 1 := by
  generalize hdepth : source.depth = depth
  induction depth using Nat.strong_induction_on generalizing source m with
  | h depth ih =>
    rw [read?_eq] at h
    obtain ⟨sheet, hsheet, rfl⟩ := Option.map_eq_some_iff.mp h
    obtain ⟨fields, hfields, hreads⟩ := Sheet.read?_iff.mp hsheet
    -- arguments are read from the rules, two steps below
    have hargs : argumentDepth ⟨sheet⟩ ≤ depth := by
      refine greatest_le fun n hn => ?_
      obtain ⟨rule, hrule, hn⟩ := List.mem_flatMap.mp hn
      obtain ⟨arg, harg, rfl⟩ := List.mem_map.mp hn
      rcases Fields.withDefault?_some hreads.rules with ⟨s, hs, hread⟩ | ⟨-, hnil⟩
      · obtain ⟨t, ht, hrule⟩ := list?_some hread hrule
        have hfield := depth_inner (mem_inner_of_record? hfields hs)
        have hpart := depth_inner ht
        have harg := RuleEntry.depth_of_read? hrule arg harg
        omega
      · rw [show sheet.rules = [] from hnil] at hrule
        exact absurd hrule List.not_mem_nil
    have hinner : ∀ child ∈ sheet.inner, child.height ≤ depth := by
      -- what is inside is less deep than the source
      have hbelow : Inherited fun s => s.depth < source.depth := fun s hs t ht =>
        Nat.lt_trans (depth_inner ht) hs
      intro child hchild
      obtain ⟨s, hs, hread⟩ :=
        hreads.readFrom hbelow (fun t ht => depth_inner ht) hfields child hchild
      have hheight := ih s.depth (hdepth ▸ hs) hread rfl
      omega
    rw [height.eq_def]
    refine Nat.succ_le_succ (Nat.max_le.mpr ⟨hargs, greatest_le fun n hn => ?_⟩)
    obtain ⟨child, -, rfl⟩ := List.mem_map.mp hn
    exact hinner child.1 child.2

end Manifest

end Conform
