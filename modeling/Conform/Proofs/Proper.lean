import Conform.Proofs.Sets
import Conform.Proofs.Sources

/-!
# Data that was read

Data taken from a source is sorted at every depth, and its numbers are finite if those of the source
are (`Json.Proper`). A description inside another one, as an argument of a rule, is read from such
data, so that the keys it declares and the codes of its messages ascend as well
(`Sheet.Reads.keys_ascend`).

Being finite is a property of a source that goes to its parts (`Source.Inherited`). That is all that
is needed to follow the reader down: whatever field it looks at is a part of the source, and what it
makes of the field is data made of parts of it. So there is one lemma for each shape that a field
can have, a list or a table of data, and one for each kind of entry of a sheet in which data occurs.

What is proper can be asked of data that no reader made as well. Arrays and objects of proper
parts are proper, objects once their members are sorted, and the parts of what is proper are
proper; by these the arguments of rules, which are data until a schema is made of them, are known
to be what a reader would have made.
-/

namespace Conform

namespace Source

open Json

/-! ### Finite numbers -/

mutual
/-- Every number in the source is finite, integers as doubles too. -/
def isFinite : Source → Bool
  | .int i => (Number.ofInt i).isFinite
  | .float n => n.isFinite
  | .array items => finiteItems items
  | .object members => finiteMembers members
  | _ => true

/-- Every number in the items is finite. -/
def finiteItems : List Source → Bool
  | [] => true
  | item :: rest => isFinite item && finiteItems rest

/-- Every number in the members is finite. -/
def finiteMembers : List (String × Source) → Bool
  | [] => true
  | (_, value) :: rest => isFinite value && finiteMembers rest
end

/-- Items have finite numbers if each of them has. -/
theorem finiteItems_iff {items : List Source} :
    finiteItems items = true ↔ ∀ item ∈ items, item.isFinite = true := by
  induction items with
  | nil => simp [finiteItems]
  | cons item rest ih => rw [finiteItems, Bool.and_eq_true, ih, List.forall_mem_cons]

/-- Members have finite numbers if each of them has. -/
theorem finiteMembers_iff {members : List (String × Source)} :
    finiteMembers members = true ↔ ∀ member ∈ members, member.2.isFinite = true := by
  induction members with
  | nil => simp [finiteMembers]
  | cons member rest ih => rw [finiteMembers, Bool.and_eq_true, ih, List.forall_mem_cons]

/-- The parts of a source with finite numbers have finite numbers. -/
theorem inherited_isFinite : Inherited fun s => s.isFinite = true := by
  intro s hs t ht
  cases s with
  | array items =>
    rw [isFinite, finiteItems_iff] at hs
    exact hs t ht
  | object members =>
    rw [isFinite, finiteMembers_iff] at hs
    obtain ⟨member, hmember, rfl⟩ := List.mem_map.mp ht
    exact hs member hmember
  | _ => exact absurd ht List.not_mem_nil

end Source

/-! ### Proper data -/

/-- Sorted at every depth, every number finite. -/
structure Json.Proper (json : Json) : Prop where
  sorted : json.sorted = json
  finite : json.toSource.isFinite = true

namespace Json

/-- The members of a source that stands for data are those of the data. -/
theorem mem_toMembers {members : List (String × Json)} {entry : String × Source}
    (h : entry ∈ toMembers members) :
    ∃ member ∈ members, entry = (member.1, member.2.toSource) := by
  induction members with
  | nil => exact absurd h List.not_mem_nil
  | cons member rest ih =>
    rw [toMembers] at h
    rcases List.mem_cons.mp h with rfl | h
    · exact ⟨member, List.mem_cons_self .., rfl⟩
    · obtain ⟨m, hm, heq⟩ := ih h
      exact ⟨m, List.mem_cons_of_mem _ hm, heq⟩

/-- An array of proper items is proper. -/
theorem Proper.array {items : List Json} (h : ∀ item ∈ items, item.Proper) :
    (Json.array items).Proper where
  sorted := by
    rw [Json.sorted, sortedItems_eq,
      List.map_congr_left fun item hitem => (h item hitem).sorted, List.map_id']
  finite := by
    rw [toSource, toSources_eq, Source.isFinite, Source.finiteItems_iff]
    intro s hs
    obtain ⟨item, hitem, rfl⟩ := List.mem_map.mp hs
    exact (h item hitem).finite

/-- An object of proper members is proper once it is sorted. -/
theorem Proper.object {members : List (String × Json)} (h : ∀ member ∈ members, member.2.Proper) :
    (Json.object (sortMembers members)).Proper where
  sorted := by
    have hsame : sortedMembers members = members := by
      rw [sortedMembers_eq]
      refine Eq.trans (List.map_congr_left (g := id) fun member hmember => ?_) (List.map_id _)
      exact Prod.ext rfl (h member hmember).sorted
    rw [Json.sorted, sortedMembers_sortMembers, hsame, sortMembers_sortMembers]
  finite := by
    rw [toSource, Source.isFinite, Source.finiteMembers_iff]
    intro entry hentry
    obtain ⟨member, hmember, rfl⟩ := mem_toMembers hentry
    exact (h member (mem_sortMembers hmember)).finite

/-- The items of a proper array are proper. -/
theorem Proper.item {items : List Json} (h : (Json.array items).Proper) {item : Json}
    (hitem : item ∈ items) : item.Proper where
  sorted := by
    have hsorted := h.sorted
    rw [Json.sorted, sortedItems_eq] at hsorted
    exact List.map_inj_left.mp ((Json.array.inj hsorted).trans (List.map_id _).symm) item hitem
  finite := by
    refine Source.inherited_isFinite _ h.finite _ ?_
    rw [toSource, toSources_eq]
    exact List.mem_map_of_mem hitem

/-- Sorted members ascend and are sorted themselves. -/
theorem Proper.members {members : List (String × Json)} (h : (Json.object members).Proper) :
    Ascending members ∧ ∀ member ∈ members, member.2.Proper := by
  have hsorted := h.sorted
  rw [Json.sorted] at hsorted
  have hsorted : sortMembers (sortedMembers members) = members := Json.object.inj hsorted
  have hascending : Ascending members := hsorted ▸ ascending_sortMembers _
  have hkeys : Ascending (sortedMembers members) := by
    unfold Ascending
    rw [keys_sortedMembers]
    exact hascending
  rw [sortMembers_of_ascending hkeys, sortedMembers_eq] at hsorted
  refine ⟨hascending, fun member hmember => ⟨?_, ?_⟩⟩
  · exact congrArg Prod.snd
      (List.map_inj_left.mp (hsorted.trans (List.map_id _).symm) member hmember)
  · refine Source.inherited_isFinite _ h.finite _ ?_
    rw [toSource, toMembers_eq]
    exact List.mem_map_of_mem (List.mem_map_of_mem (f := fun m => (m.1, m.2.toSource)) hmember)

end Json

namespace Source

open Json

mutual
/-- What is read from a source with finite numbers is proper. -/
theorem proper_of_toJson? {source : Source} {json : Json} (h : source.toJson? = some json)
    (hfinite : source.isFinite = true) : json.Proper := by
  cases source with
  | array items =>
    rw [toJson?] at h
    obtain ⟨read, hread, rfl⟩ := Option.map_eq_some_iff.mp h
    exact .array (proper_of_toItems? hread hfinite)
  | object members =>
    rw [toJson?] at h
    obtain ⟨read, hread, rfl⟩ := Option.map_eq_some_iff.mp h
    exact .object (proper_of_toMembers? hread hfinite)
  | unreadable => exact nomatch h
  | _ =>
    rw [toJson?] at h
    obtain rfl := Option.some.inj h
    exact ⟨rfl, hfinite⟩

/-- Items that are read from sources with finite numbers are proper. -/
theorem proper_of_toItems? {items : List Source} {read : List Json} (h : toItems? items = some read)
    (hfinite : finiteItems items = true) : ∀ json ∈ read, json.Proper := by
  cases items with
  | nil =>
    obtain rfl := Option.some.inj h
    exact List.forall_mem_nil _
  | cons item rest =>
    obtain ⟨hfirst, hrest⟩ := Bool.and_eq_true_iff.mp hfinite
    rw [toItems?] at h
    obtain ⟨json, hjson, h⟩ := Option.bind_eq_some_iff.mp h
    obtain ⟨others, hothers, h⟩ := Option.bind_eq_some_iff.mp h
    obtain rfl := Option.some.inj h
    exact List.forall_mem_cons.mpr
      ⟨proper_of_toJson? hjson hfirst, proper_of_toItems? hothers hrest⟩

/-- Members that are read from sources with finite numbers are proper. -/
theorem proper_of_toMembers? {members : List (String × Source)} {read : List (String × Json)}
    (h : toMembers? members = some read) (hfinite : finiteMembers members = true) :
    ∀ member ∈ read, member.2.Proper := by
  cases members with
  | nil =>
    obtain rfl := Option.some.inj h
    exact List.forall_mem_nil _
  | cons member rest =>
    obtain ⟨key, value⟩ := member
    obtain ⟨hfirst, hrest⟩ := Bool.and_eq_true_iff.mp hfinite
    rw [toMembers?] at h
    obtain ⟨json, hjson, h⟩ := Option.bind_eq_some_iff.mp h
    obtain ⟨others, hothers, h⟩ := Option.bind_eq_some_iff.mp h
    obtain rfl := Option.some.inj h
    exact List.forall_mem_cons.mpr
      ⟨proper_of_toJson? hjson hfirst, proper_of_toMembers? hothers hrest⟩
end

/-- The source is proper data. -/
def IsProper (source : Source) : Prop := ∃ json : Json, json.Proper ∧ source = json.toSource

/-- A source of which only proper data is read has finite numbers. -/
theorem IsProper.isFinite {source : Source} (h : source.IsProper) : source.isFinite = true := by
  obtain ⟨json, hjson, rfl⟩ := h
  exact hjson.finite

/-- The parts of a proper source are proper. -/
theorem inherited_isProper : Inherited IsProper := by
  rintro _ ⟨json, hjson, rfl⟩ t ht
  cases json with
  | array items =>
    rw [toSource, inner, toSources_eq] at ht
    obtain ⟨item, hitem, rfl⟩ := List.mem_map.mp ht
    exact ⟨item, hjson.item hitem, rfl⟩
  | object members =>
    rw [toSource, inner, toMembers_eq, Members.values, List.map_map] at ht
    obtain ⟨member, hmember, rfl⟩ := List.mem_map.mp ht
    exact ⟨member.2, hjson.members.2 member hmember, rfl⟩
  | _ => exact absurd ht List.not_mem_nil

/-- A table in proper data has keys that ascend. -/
theorem IsProper.table {α : Type} {r : Source → Option α} {source : Source} (h : source.IsProper)
    {members : List (String × α)} (hread : source.table? r = some members) :
    (Members.keys members).Pairwise (· < ·) := by
  obtain ⟨json, hjson, rfl⟩ := h
  cases json with
  | object given =>
    rw [toSource] at hread
    obtain ⟨read, hmapped, rfl⟩ := Option.map_eq_some_iff.mp hread
    -- reading changes the values of the members alone
    have hkeys : Members.keys read = Members.keys given := by
      rw [← keys_toMembers given]
      generalize toMembers given = sources at hmapped
      clear hread
      induction sources generalizing read with
      | nil =>
        obtain rfl := Option.some.inj hmapped
        rfl
      | cons first rest ih =>
        rw [List.mapM_cons] at hmapped
        obtain ⟨entry, hentry, hmapped⟩ := Option.bind_eq_some_iff.mp hmapped
        obtain ⟨others, hothers, hmapped⟩ := Option.bind_eq_some_iff.mp hmapped
        obtain rfl := Option.some.inj hmapped
        obtain ⟨value, -, rfl⟩ := Option.map_eq_some_iff.mp hentry
        exact congrArg (first.1 :: ·) (ih _ hothers)
    have hascending : (Members.keys read).Pairwise (· < ·) := hkeys ▸ hjson.members.1
    have hdistinct : Members.Distinct read := hascending.imp fun hlt => ne_of_lt hlt
    have hall : Members.ofList read = read := Members.insertAll_of_distinct hdistinct
    rw [hall]
    exact hascending
  | _ => exact nomatch hread

end Source

/-! ### Sheets -/

namespace Manifest

variable {δ : Type} {r : Source → Option δ} {source : Source} {fields : Source.Fields}

open Source

/-- The rows of the table are proper. -/
def ReferenceEntry.Proper (r : ReferenceEntry) : Prop :=
    ∀ row ∈ r.table, row.1.Proper ∧ row.2.Proper

/-- The data of a sheet that stays data until a schema is built from it. -/
structure Sheet.Proper (sheet : Sheet δ) : Prop where
  flags : ∀ flag ∈ sheet.flags, flag.2.Proper
  allow : ∀ json ∈ sheet.allow, json.Proper
  invalid : ∀ json ∈ sheet.invalid, json.Proper
  args : ∀ rule ∈ sheet.rules, ∀ arg ∈ rule.args, arg.2.Proper
  references : ∀ entry ∈ sheet.entries, ∀ r ∈ entry.reference, r.Proper
  truthy : ∀ json ∈ sheet.truthy, json.Proper
  falsy : ∀ json ∈ sheet.falsy, json.Proper
  examples : ∀ json ∈ sheet.examples, json.Proper
  metas : ∀ json ∈ sheet.metas, json.Proper

section Field

variable (hfinite : source.isFinite = true) {names : List String}
  (hfields : source.record? names = some fields) {name : String}
include hfinite hfields

/-- A field of a source with finite numbers has finite numbers. -/
theorem finite_field {s : Source} (hs : fields.get? name = some s) : s.isFinite = true :=
  field_of (inherited_isFinite source hfinite) hfields hs

/-- The items of a list among the fields are read from finite sources. -/
theorem mem_list {α : Type} {read : Source → Option α} {items : List α}
    (h : fields.withDefault? name [] (list? read) = some items) {a : α} (ha : a ∈ items) :
    ∃ s, s.isFinite = true ∧ read s = some a := by
  rcases Fields.withDefault?_some h with ⟨s, hs, hread⟩ | ⟨-, rfl⟩
  · obtain ⟨t, ht, hta⟩ := list?_some hread ha
    exact ⟨t, inherited_isFinite s (finite_field hfinite hfields hs) t ht, hta⟩
  · exact absurd ha List.not_mem_nil

/-- A list of data that is read from a field is proper, item by item. -/
theorem proper_list {items : List Json}
    (h : fields.withDefault? name [] (list? toJson?) = some items) :
    ∀ json ∈ items, json.Proper := by
  intro json hjson
  obtain ⟨s, hs, hread⟩ := mem_list hfinite hfields h hjson
  exact proper_of_toJson? hread hs

/-- A table of data that is read from a field is proper, member by member. -/
theorem proper_table {members : List (String × Json)}
    (h : fields.withDefault? name [] (table? toJson?) = some members) :
    ∀ member ∈ members, member.2.Proper := by
  intro member hmember
  rcases Fields.withDefault?_some h with ⟨s, hs, hread⟩ | ⟨-, rfl⟩
  · obtain ⟨t, ht, hta⟩ := table?_some hread hmember
    exact proper_of_toJson? hta (inherited_isFinite s (finite_field hfinite hfields hs) t ht)
  · exact absurd hmember List.not_mem_nil

end Field

/-- The arguments of a rule that was read are proper. -/
theorem RuleEntry.proper (hfinite : source.isFinite = true) {rule : RuleEntry}
    (h : RuleEntry.read? source = some rule) : ∀ arg ∈ rule.args, arg.2.Proper := by
  unfold RuleEntry.read? at h
  obtain ⟨fields, hfields, h⟩ := Option.bind_eq_some_iff.mp h
  obtain ⟨name, -, h⟩ := Option.bind_eq_some_iff.mp h
  obtain ⟨args, hargs, h⟩ := Option.bind_eq_some_iff.mp h
  obtain rfl := Option.some.inj h
  exact proper_table hfinite hfields hargs

/-- The table of a reference that was read is proper. -/
theorem ReferenceEntry.proper (hfinite : source.isFinite = true) {entry : ReferenceEntry}
    (h : ReferenceEntry.read? source = some entry) : entry.Proper := by
  unfold ReferenceEntry.read? at h
  obtain ⟨fields, hfields, h⟩ := Option.bind_eq_some_iff.mp h
  obtain ⟨key, -, h⟩ := Option.bind_eq_some_iff.mp h
  obtain ⟨separator, -, h⟩ := Option.bind_eq_some_iff.mp h
  obtain ⟨ancestor, -, h⟩ := Option.bind_eq_some_iff.mp h
  obtain ⟨inValues, -, h⟩ := Option.bind_eq_some_iff.mp h
  obtain ⟨table, htable, h⟩ := Option.bind_eq_some_iff.mp h
  obtain ⟨adjuster, -, h⟩ := Option.bind_eq_some_iff.mp h
  obtain rfl := Option.some.inj h
  intro row hrow
  obtain ⟨s, hs, hpair⟩ := mem_list hfinite hfields htable hrow
  unfold pair? at hpair
  split at hpair
  next first second =>
    obtain ⟨a, ha, hpair⟩ := Option.bind_eq_some_iff.mp hpair
    obtain ⟨b, hb, hpair⟩ := Option.bind_eq_some_iff.mp hpair
    obtain rfl := Option.some.inj hpair
    rw [isFinite, finiteItems_iff] at hs
    exact ⟨proper_of_toJson? ha (hs first (List.mem_cons_self ..)),
      proper_of_toJson? hb (hs second (List.mem_cons_of_mem _ (List.mem_cons_self ..)))⟩
  next => exact nomatch hpair

/-- The reference of an entry that was read is proper. -/
theorem MatchEntry.proper (hfinite : source.isFinite = true) {entry : MatchEntry δ}
    (h : MatchEntry.read? r source = some entry) : ∀ ref ∈ entry.reference, ref.Proper := by
  unfold MatchEntry.read? at h
  obtain ⟨fields, hfields, h⟩ := Option.bind_eq_some_iff.mp h
  obtain ⟨schema, -, h⟩ := Option.bind_eq_some_iff.mp h
  obtain ⟨reference, hreference, h⟩ := Option.bind_eq_some_iff.mp h
  obtain ⟨condition, -, h⟩ := Option.bind_eq_some_iff.mp h
  obtain ⟨cases, -, h⟩ := Option.bind_eq_some_iff.mp h
  obtain ⟨otherwise, -, h⟩ := Option.bind_eq_some_iff.mp h
  obtain rfl := Option.some.inj h
  intro ref href
  rcases Fields.withDefault?_some hreference with ⟨s, hs, hread⟩ | ⟨-, hnone⟩
  · exact ReferenceEntry.proper (finite_field hfinite hfields hs) (nullable?_some hread href).2
  · obtain rfl : reference = none := hnone
    exact nomatch href

/-- A sheet that was read from a source with finite numbers is proper. -/
theorem Sheet.Reads.proper (hfinite : source.isFinite = true)
    (hfields : source.record? sheetFields = some fields) {sheet : Sheet δ}
    (h : sheet.Reads r fields) : sheet.Proper where
  flags := proper_table hfinite hfields h.flags
  allow := proper_list hfinite hfields h.allow
  invalid := proper_list hfinite hfields h.invalid
  args := by
    intro rule hrule
    obtain ⟨s, hs, hread⟩ := mem_list hfinite hfields h.rules hrule
    exact RuleEntry.proper hs hread
  references := by
    intro entry hentry
    obtain ⟨s, hs, hread⟩ := mem_list hfinite hfields h.entries hentry
    exact MatchEntry.proper hs hread
  truthy := proper_list hfinite hfields h.truthy
  falsy := proper_list hfinite hfields h.falsy
  examples := proper_list hfinite hfields h.examples
  metas := proper_list hfinite hfields h.metas

/-- The keys of a description that was read from proper data ascend. -/
theorem Sheet.Reads.keys_ascend (hproper : source.IsProper)
    (hfields : source.record? sheetFields = some fields) {sheet : Sheet δ}
    (h : sheet.Reads r fields) :
    ∀ children ∈ sheet.keys, (Members.keys children).Pairwise (· < ·) := by
  intro children hchildren
  rcases Fields.withDefault?_some h.keys with ⟨s, hs, hread⟩ | ⟨-, hnone⟩
  · exact (field_of (inherited_isProper source hproper) hfields hs).table
      (nullable?_some hread hchildren).2
  · rw [hnone] at hchildren
    exact nomatch hchildren

end Manifest

end Conform
