import Mathlib.Data.List.Sort
import Conform.Proofs.Attempt
import Conform.Proofs.JsonSource

/-!
# In which order members are found

What is written is read again from a text, where members stand in the order in which they were
written, or from data, where they ascend by their keys (`Json.Order`). Records do not mind: their
fields are looked up by name. Tables do, and come back in the order in which they are found.

So that the theorems about reading back need not be proved twice, both orders are one parameter.
What is known of it is little: entries are permuted (`Json.Order.perm_arrange`), look-ups by
distinct keys find what they found before (`Json.Order.get?_arrange`), and a change of the values
commutes with it (`Json.Order.arrange_map`). The modules that follow use only these facts, and
`order` stands for either of the two in them.

A record is written with its fields in a fixed order and those that say nothing left out. That its
reader accepts it in either order is shown once (`Json.Order.record?_source`); then come the shapes
of field that occur everywhere, texts, switches, lists and tables, each with a lemma that gives what
the reader finds in the field from what the writer put there.

Main statements: `Json.Order.record?_source` and `Source.table_back`.
-/

namespace Conform

namespace Members

variable {α β : Type}

/-- A look-up among changed values finds the changed value. -/
theorem get?_map_values (f : α → β) (entries : List (String × α)) (key : String) :
    get? (entries.map fun entry => (entry.1, f entry.2)) key = (get? entries key).map f := by
  induction entries with
  | nil => rfl
  | cons entry rest ih =>
    obtain ⟨k, v⟩ := entry
    rw [List.map_cons, get?_cons, get?_cons, ih]
    split <;> rfl

/-- Changing values keeps the keys. -/
theorem keys_map_values (f : α → β) (entries : List (String × α)) :
    keys (entries.map fun entry => (entry.1, f entry.2)) = keys entries := by
  unfold keys
  rw [List.map_map]
  rfl

/-- Distinct members are found under their keys, in whatever order they stand. -/
theorem get?_perm {a b : List (String × α)} (ha : Distinct a) (h : a.Perm b) (key : String) :
    get? a key = get? b key := by
  have hb : Distinct b := (h.map Prod.fst).nodup_iff.mp ha
  cases hfound : get? a key with
  | none =>
    have hnone := (get?_eq_none_iff a key).mp hfound
    exact ((get?_eq_none_iff b key).mpr fun hin => hnone ((h.map Prod.fst).mem_iff.mpr hin)).symm
  | some value => exact (hb.get?_of_mem (h.mem_iff.mp (mem_of_get? hfound))).symm

end Members

namespace Json

/-- The order in which members are found: the one in which they stand, or that of their keys. -/
inductive Order
  | standing
  | ascending

namespace Order

/-- Data as a source, the members of every object in that order. -/
def source : Order → Json → Source
  | standing, json => json.toSource
  | ascending, json => json.sorted.toSource

/-- Entries in that order. -/
def arrange {α : Type} : Order → List (String × α) → List (String × α)
  | standing, entries => entries
  | ascending, entries => entries.insertionSort fun a b => a.1 ≤ b.1

/-! ### Entries -/

section Entries

variable {α β : Type} (order : Order) (entries : List (String × α))

/-- Arranging keeps the entries. -/
theorem perm_arrange : (order.arrange entries).Perm entries := by
  cases order with
  | standing => exact .refl _
  | ascending => exact List.perm_insertionSort _ _

/-- Arranging adds no entry and drops none. -/
theorem mem_arrange {entry : String × α} : entry ∈ order.arrange entries ↔ entry ∈ entries :=
  (order.perm_arrange entries).mem_iff

/-- Arranging keeps the keys. -/
theorem keys_arrange : (Members.keys (order.arrange entries)).Perm (Members.keys entries) :=
  (order.perm_arrange entries).map _

variable {entries}

/-- Arranging keeps keys distinct. -/
theorem distinct_arrange (h : Members.Distinct entries) :
    Members.Distinct (order.arrange entries) :=
  (order.keys_arrange entries).nodup_iff.mpr h

/-- Among entries of distinct keys the order does not matter to a look-up. -/
theorem get?_arrange (h : Members.Distinct entries) (key : String) :
    Members.get? (order.arrange entries) key = Members.get? entries key :=
  Members.get?_perm (order.distinct_arrange h) (order.perm_arrange entries) key

variable (entries) in
/-- Values may be changed before or after the entries are arranged. -/
theorem arrange_map (f : α → β) : order.arrange (entries.map fun entry => (entry.1, f entry.2)) =
    (order.arrange entries).map fun entry => (entry.1, f entry.2) := by
  cases order with
  | standing => rfl
  | ascending =>
    exact (List.map_insertionSort (fun a b : String × α => a.1 ≤ b.1)
      (fun a b : String × β => a.1 ≤ b.1)
      (fun entry => (entry.1, f entry.2)) entries fun _ _ _ _ => Iff.rfl).symm

/-- Nothing is arranged as nothing. -/
theorem arrange_nil : order.arrange ([] : List (String × α)) = [] := by cases order <;> rfl

/-- Distinct keys ascend when they are put in order. -/
theorem ascending_arrange (h : Members.Distinct entries) :
    (Members.keys (ascending.arrange entries)).Pairwise (· < ·) := by
  have htotal : Std.Total fun a b : String × α => a.1 ≤ b.1 := ⟨fun a b => le_total a.1 b.1⟩
  have htrans : IsTrans (String × α) fun a b => a.1 ≤ b.1 := ⟨fun _ _ _ => le_trans⟩
  have hle : (Members.keys (ascending.arrange entries)).Pairwise (· ≤ ·) :=
    List.pairwise_map.mpr (List.pairwise_insertionSort (fun a b : String × α => a.1 ≤ b.1) entries)
  have hne : (Members.keys (ascending.arrange entries)).Pairwise (· ≠ ·) :=
    ascending.distinct_arrange h
  exact (hle.and hne).imp fun h => lt_of_le_of_ne h.1 h.2

/-- Entries are told by their keys, so there is one way to make them ascend. -/
theorem eq_of_ascending {a b : List (String × α)} (ha : (Members.keys a).Pairwise (· < ·))
    (hb : (Members.keys b).Pairwise (· < ·)) (h : a.Perm b) : a = b :=
  List.Perm.eq_of_pairwise (fun _ _ _ _ hxy hyx => absurd hyx (lt_asymm hxy))
    (List.pairwise_map.mp ha) (List.pairwise_map.mp hb) h

/-- Keys that ascend are in order already. -/
theorem arrange_of_ascending (h : (Members.keys entries).Pairwise (· < ·)) :
    order.arrange entries = entries := by
  cases order with
  | standing => rfl
  | ascending =>
    have hdistinct : Members.Distinct entries := h.imp fun hlt => ne_of_lt hlt
    exact eq_of_ascending (ascending_arrange hdistinct) h (ascending.perm_arrange entries)

/-- Sorting members of distinct keys keeps them. -/
theorem perm_sortMembers {members : List (String × Json)} (h : Members.Distinct members) :
    (sortMembers members).Perm members := by
  have hsorted := (ascending_sortMembers members).distinct
  refine (List.perm_ext_iff_of_nodup hsorted.of_map h.of_map).mpr fun entry =>
    ⟨mem_sortMembers, fun hentry => ?_⟩
  have hfound := (get?_sortMembers h entry.1).trans (h.get?_of_mem hentry)
  exact Members.mem_of_get? hfound

/-- In ascending order members are found as they are sorted. -/
theorem arrange_members {members : List (String × Json)} (h : Members.Distinct members) :
    ascending.arrange members = sortMembers members :=
  eq_of_ascending (ascending_arrange h) (ascending_sortMembers members)
    ((ascending.perm_arrange members).trans (perm_sortMembers h).symm)

end Entries

/-! ### Sources -/

variable {order : Order}

/-- A boolean is found as it was written. -/
@[simp] theorem source_bool (b : Bool) : order.source (.bool b) = .bool b := by cases order <;> rfl

/-- An integer is found as it was written. -/
@[simp] theorem source_int (i : Int) : order.source (.int i) = .int i := by cases order <;> rfl

/-- A text is found as it was written. -/
@[simp] theorem source_string (s : String) :
    order.source (.string s) = .string s := by cases order <;> rfl

/-- The items of an array are found in their order. -/
theorem source_array (items : List Json) :
    order.source (.array items) = .array (items.map order.source) := by
  cases order with
  | standing => exact congrArg Source.array (toSources_eq items)
  | ascending =>
    show (Json.array items).sorted.toSource = _
    rw [sorted, sortedItems_eq, toSource, toSources_eq, List.map_map]
    rfl

/-- The members of an object are found in the order that is asked for. -/
theorem source_object {members : List (String × Json)} (h : Members.Distinct members) :
    order.source (.object members) =
      .object ((order.arrange members).map fun member => (member.1, order.source member.2)) := by
  cases order with
  | standing => exact congrArg Source.object (toMembers_eq members)
  | ascending =>
    show (Json.object members).sorted.toSource = _
    have hsorted : Members.Distinct (members.map fun member => (member.1, member.2.sorted)) := by
      unfold Members.Distinct
      rwa [Members.keys_map_values]
    rw [sorted, sortedMembers_eq, ← arrange_members hsorted, arrange_map, toSource,
      toMembers_eq, List.map_map]
    rfl

/-- The order does not matter to whether there is anything. -/
theorem isNull_source (json : Json) : (order.source json).isNull = json.toSource.isNull := by
  cases order with
  | standing => rfl
  | ascending => cases json <;> rfl

/-- Data read again has its members sorted, in whatever order they are found. -/
theorem toJson?_source (json : Json) : (order.source json).toJson? = some json.sorted := by
  cases order with
  | standing => exact toJson?_toSource json
  | ascending =>
    show json.sorted.toSource.toJson? = _
    rw [toJson?_toSource, sorted_sorted]

/-- A record whose members are among its fields is read back field by field. -/
theorem record?_source {names : List String} (hnames : names.Nodup) {members : List (String × Json)}
    (h : (Members.keys members).Sublist names) :
    ∃ fields, (order.source (.object members)).record? names = some fields ∧
      ∀ name, fields.get? name = (Members.get? members name).map order.source := by
  have hdistinct : Members.Distinct members := h.nodup hnames
  have hkeys :
      Members.keys ((order.arrange members).map fun member => (member.1, order.source member.2)) =
      Members.keys (order.arrange members) := Members.keys_map_values _ _
  have hknown : ((order.arrange members).map fun member => (member.1, order.source member.2)).filter
      (fun member => names.contains member.1) =
        (order.arrange members).map fun member => (member.1, order.source member.2) := by
    refine List.filter_eq_self.mpr fun member hmember => List.contains_iff_mem.mpr (h.subset ?_)
    rw [← (order.keys_arrange members).mem_iff, ← hkeys]
    exact List.mem_map_of_mem hmember
  refine ⟨⟨false, (order.arrange members).map fun member => (member.1, order.source member.2)⟩, ?_,
    fun name => ?_⟩
  · rw [source_object hdistinct, Source.record?, hknown]
    refine if_pos ?_
    show (Members.keys _).Nodup
    rw [hkeys]
    exact order.distinct_arrange hdistinct
  · exact (Members.get?_map_values order.source _ name).trans
      (congrArg (Option.map order.source) (order.get?_arrange hdistinct name))

end Order

end Json

/-! ### Fields read back -/

namespace Source

open Json

variable {order : Order}

section Field

variable {α : Type} {fields : Fields} {members : List (String × Json)}
  (hget : ∀ name, fields.get? name = (Members.get? members name).map order.source) {name : String}
include hget

/-- A member that is there is read back. -/
theorem required_back {r : Source → Option α} {json : Json} {a : α}
    (hname : Members.get? members name = some json)
    (h : r (order.source json) = some a) : fields.required? name r = some a := by
  unfold Fields.required?
  rw [hget, hname]
  exact h

/-- A member that may be missing is read back. -/
theorem default_back {r : Source → Option α} {default : α} {o : Option Json} {a : α}
    (hname : Members.get? members name = o) (hnone : o = none → default = a)
    (h : ∀ json ∈ o, r (order.source json) = some a) :
    fields.withDefault? name default r = some a := by
  unfold Fields.withDefault?
  rw [hget, hname]
  cases o with
  | none => exact congrArg some (hnone rfl)
  | some json => exact h json rfl

/-- An optional member is read back. -/
theorem optional_back {β : Type} {r : Source → Option β} {o : Option α}
    {toJson : α → Json} {f : α → β} (hname : Members.get? members name = o.map toJson)
    (h : ∀ a ∈ o, (order.source (toJson a)).isNull = false ∧
      r (order.source (toJson a)) = some (f a)) :
    fields.withDefault? name none (nullable? r) = some (o.map f) := by
  unfold Fields.withDefault?
  rw [hget, hname]
  cases o with
  | none => rfl
  | some a =>
    obtain ⟨hnull, hread⟩ := h a rfl
    show nullable? r (order.source (toJson a)) = _
    unfold nullable?
    rw [hnull, hread]
    rfl

/-- A text that need not be there is read back from its field. -/
theorem text_back {o : Option String} (hname : Members.get? members name = o.map Json.string) :
    fields.withDefault? name none (nullable? string?) = some o := by
  have hback := optional_back (r := string?) (f := id) hget hname fun text _ => by
    rw [Order.source_string]
    exact ⟨rfl, rfl⟩
  rwa [Option.map_id_apply] at hback

/-- A list is read back item by item. -/
theorem list_back {β : Type} {r : Source → Option β} {items : List α}
    {toJson : α → Json} {f : α → β}
    (hname : Members.get? members name = if items ≠
      [] then some (.array (items.map toJson)) else none)
    (h : ∀ a ∈ items, r (order.source (toJson a)) = some (f a)) :
    fields.withDefault? name [] (list? r) = some (items.map f) := by
  unfold Fields.withDefault?
  rw [hget, hname]
  by_cases hnil : items = []
  · rw [if_neg (not_not.mpr hnil), hnil]
    rfl
  · rw [if_pos hnil]
    show list? r (order.source (.array (items.map toJson))) = _
    rw [Order.source_array, List.map_map]
    exact Attempt.mapM_map_pure h

end Field

/-- A table is read back entry by entry, in the order in which they are found. -/
theorem table_back {α β : Type} {r : Source → Option β}
    {entries : List (String × α)} {toJson : α → Json} {f : α → β} (hkeys : Members.Distinct entries)
    (h : ∀ entry ∈ entries, r (order.source (toJson entry.2)) = some (f entry.2)) :
    table? r (order.source (.object (entries.map fun entry => (entry.1, toJson entry.2)))) =
      some ((order.arrange entries).map fun entry => (entry.1, f entry.2)) := by
  have hmembers : Members.Distinct (entries.map fun entry => (entry.1, toJson entry.2)) := by
    unfold Members.Distinct
    rwa [Members.keys_map_values]
  have hdistinct :
      Members.Distinct ((order.arrange entries).map fun entry => (entry.1, f entry.2)) := by
    unfold Members.Distinct
    rw [Members.keys_map_values]
    exact order.distinct_arrange hkeys
  have hall : ((order.arrange entries).map
      ((fun member : String × Json => (member.1, order.source member.2)) ∘
      fun entry => (entry.1, toJson entry.2))).mapM (fun (member : String × Source) =>
        (r member.2).map fun value => (member.1, value)) =
      some ((order.arrange entries).map fun entry => (entry.1, f entry.2)) :=
    Attempt.mapM_map_pure (m := Option) fun entry hentry => by
      show (r (order.source (toJson entry.2))).map _ = _
      rw [h entry ((order.mem_arrange entries).mp hentry)]
      rfl
  rw [Order.source_object hmembers, Order.arrange_map, List.map_map]
  show Option.map Members.ofList _ = _
  rw [hall]
  exact congrArg some (Members.insertAll_of_distinct hdistinct)

/-- Data is read back as it is, if it is sorted. -/
theorem data_back {json : Json} (h : json.sorted = json) :
    toJson? (order.source json) = some json := by
  rw [Order.toJson?_source, h]

/-- Members of sorted data are read back in the order in which they are found. -/
theorem members_back {members : List (String × Json)} (hkeys : Members.Distinct members)
    (h : ∀ member ∈ members, member.2.sorted = member.2) :
    table? toJson? (order.source (.object members)) = some (order.arrange members) := by
  have hid (entries : List (String × Json)) :
      entries.map (fun entry => (entry.1, id entry.2)) = entries :=
    List.map_id _
  have hback :
      table? toJson? (order.source (.object (members.map fun member => (member.1, id member.2)))) =
      some ((order.arrange members).map fun member => (member.1, id member.2)) :=
    table_back hkeys fun member hmember => data_back (h member hmember)
  rwa [hid, hid] at hback

end Source

end Conform
