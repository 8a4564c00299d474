import Mathlib.Data.String.Basic
import Conform.Json.Decode

/-!
# JSON data read back

Data that is taken as a source and read again comes back as it is, but for the order of the
members of each object, which ascends by key (`toJson?_toSource`). Members that may be
missing are looked up by name.

A source keeps its members as they were written, repetitions and all, while data keeps them as a
sorted map does: reading inserts members one by one at the place of their key, and a later member of
a key replaces an earlier one. So the first part is about sorted insertion (`insertSorted`): what is
found afterwards, which keys there are, that the order stays ascending, and that nothing changes if
the members were sorted before (`sortMembers_sortMembers`). The second part does the same at every
depth (`Json.sorted`). Both follow the recursion of the data, with a lemma for items and one for
members beside each lemma for data.

The last part is about records as they are written: a list of members, each of which may be left
out. Looking a name up in such a list is settled member by member (`get?_append`,
`get?_optionalMember`, `get?_listMember`), which is all that the readers of records need to know.
-/

namespace Conform

namespace Members

variable {α : Type}

/-- A member is found in the first of two lists, or else in the second. -/
@[simp] theorem get?_append (a b : List (String × α)) (key : String) :
    get? (a ++ b) key = (get? a key <|> get? b key) := by
  induction a with
  | nil => rfl
  | cons entry rest ih =>
    obtain ⟨k, v⟩ := entry
    rw [List.cons_append, get?_cons, get?_cons]
    by_cases hk : k = key
    · rw [if_pos hk, if_pos hk]
      rfl
    · rw [if_neg hk, if_neg hk]
      exact ih

theorem keys_append (a b : List (String × α)) : keys (a ++ b) = keys a ++ keys b := List.map_append

/-- A new key is added at the end. -/
theorem insert_of_not_mem {members : List (String × α)} {key : String} {value : α}
    (h : key ∉ keys members) : insert members key value = members ++ [(key, value)] := by
  induction members with
  | nil => rfl
  | cons entry rest ih =>
    obtain ⟨k, v⟩ := entry
    have hk : k ≠ key := fun heq => h (heq ▸ List.mem_cons_self ..)
    unfold insert
    rw [if_neg hk, ih fun hin => h (List.mem_cons_of_mem _ hin)]
    rfl

/-- Entries with distinct keys, written in order, are what is written. -/
theorem insertAll_of_distinct {members added : List (String × α)}
    (h : Distinct (members ++ added)) : insertAll members added = members ++ added := by
  unfold insertAll
  induction added generalizing members with
  | nil => exact (List.append_nil members).symm
  | cons entry rest ih =>
    have hassoc : members ++ entry :: rest = members ++ [entry] ++ rest := by
      rw [List.append_assoc]
      rfl
    have hnew : entry.1 ∉ keys members := by
      intro hin
      have hnodup : (keys members ++ keys (entry :: rest)).Nodup := List.map_append ▸ h
      exact (List.nodup_append.mp hnodup).2.2 _ hin _ (List.mem_cons_self ..) rfl
    rw [List.foldl_cons, insert_of_not_mem hnew, hassoc]
    exact ih (hassoc ▸ h)

/-- Taking away a key that is not there changes nothing. -/
theorem erase_of_not_mem {members : List (String × α)} {key : String} (h : key ∉ keys members) :
    erase members key = members := by
  refine List.filter_eq_self.mpr fun entry hentry => ?_
  rw [bne_iff_ne]
  intro heq
  exact h (heq ▸ List.mem_map_of_mem hentry)

/-- A removed entry and what is left are the whole. -/
theorem perm_erase {members : List (String × α)} {key : String} {value : α} (h : Distinct members)
    (hget : get? members key = some value) : members.Perm ((key, value) :: erase members key) := by
  induction members with
  | nil => exact nomatch hget
  | cons entry rest ih =>
    obtain ⟨k, v⟩ := entry
    obtain ⟨hnew, hrest⟩ : k ∉ keys rest ∧ Distinct rest := List.nodup_cons.mp h
    rw [get?_cons] at hget
    by_cases hk : k = key
    · subst hk
      rw [if_pos rfl] at hget
      have herase : erase ((k, v) :: rest) k = rest :=
        (List.filter_cons_of_neg (by simp)).trans (erase_of_not_mem hnew)
      rw [herase, Option.some.inj hget]
    · rw [if_neg hk] at hget
      have herase : erase ((k, v) :: rest) key = (k, v) :: erase rest key :=
        List.filter_cons_of_pos (bne_iff_ne.mpr hk)
      rw [herase]
      exact ((ih hrest hget).cons _).trans (List.Perm.swap ..)

end Members

namespace Json

/-! ### Sorted members -/

/-- The keys ascend, so that none stands twice. -/
def Ascending (members : List (String × Json)) : Prop := (Members.keys members).Pairwise (· < ·)

/-- Members in ascending order of their keys have keys of their own. -/
theorem Ascending.distinct {members : List (String × Json)} (h : Ascending members) :
    Members.Distinct members :=
  List.Pairwise.imp (fun hlt => ne_of_lt hlt) h

/-- One step of sorted insertion: the key is the first, is before it, or belongs further on. -/
theorem insertSorted_cons (key k : String) (value v : Json) (rest : List (String × Json)) :
    insertSorted key value ((k, v) :: rest) =
      if key = k then (key, value) :: rest
      else if key < k then (key, value) :: (k, v) :: rest
      else (k, v) :: insertSorted key value rest := rfl

/-- The inserted member is found, and all others as before. -/
theorem get?_insertSorted (key other : String) (value : Json) (members : List (String × Json)) :
    Members.get? (insertSorted key value members) other =
      if key = other then some value else Members.get? members other := by
  induction members with
  | nil => rfl
  | cons entry rest ih =>
    obtain ⟨k, v⟩ := entry
    unfold insertSorted
    split
    next hsame =>
      subst hsame
      -- the key is there already, and its value is replaced in its place
      rw [Members.get?_cons, Members.get?_cons]
      by_cases ho : key = other
      · rw [if_pos ho, if_pos ho]
      · rw [if_neg ho, if_neg ho, if_neg ho]
    next hne =>
      split
      next => rw [Members.get?_cons]
      next =>
        rw [Members.get?_cons, ih, Members.get?_cons]
        by_cases ho : key = other
        · have hk : k ≠ other := fun heq => hne (ho.trans heq.symm)
          rw [if_pos ho, if_pos ho, if_neg hk]
        · rw [if_neg ho, if_neg ho]

/-- Insertion adds no key but the one. -/
theorem mem_keys_insertSorted {key k : String} {value : Json} {members : List (String × Json)}
    (h : k ∈ Members.keys (insertSorted key value members)) :
    k = key ∨ k ∈ Members.keys members := by
  by_cases hk : key = k
  · exact .inl hk.symm
  · refine .inr ((Members.contains_iff members k).mp ?_)
    have hin := (Members.contains_iff _ k).mpr h
    unfold Members.contains at hin ⊢
    rwa [get?_insertSorted, if_neg hk] at hin

/-- Insertion keeps members in ascending order. -/
theorem Ascending.insertSorted {members : List (String × Json)}
    (h : Ascending members) (key : String)
    (value : Json) : Ascending (insertSorted key value members) := by
  induction members with
  | nil => exact List.pairwise_singleton _ _
  | cons entry rest ih =>
    obtain ⟨k, v⟩ := entry
    obtain ⟨hfirst, hrest⟩ := List.pairwise_cons.mp h
    unfold Json.insertSorted
    split
    next hsame =>
      subst hsame
      exact List.pairwise_cons.mpr ⟨hfirst, hrest⟩
    next hne =>
      split
      next hlt =>
        refine List.pairwise_cons.mpr ⟨fun j hj => ?_, h⟩
        -- the new key is below the first, and so below all
        rcases List.mem_cons.mp hj with rfl | hj
        · exact hlt
        · exact lt_trans hlt (hfirst j hj)
      next hge =>
        refine List.pairwise_cons.mpr ⟨fun j hj => ?_, ih hrest⟩
        -- the new key is behind the first, wherever it goes
        rcases mem_keys_insertSorted hj with rfl | hj
        · exact lt_of_le_of_ne (not_lt.mp hge) (Ne.symm hne)
        · exact hfirst j hj

/-- Sorted members are in ascending order. -/
theorem ascending_sortMembers (members : List (String × Json)) :
    Ascending (sortMembers members) := by
  have hfold (acc : List (String × Json)) (hacc : Ascending acc) :
      Ascending (members.foldl (fun acc member => insertSorted member.1 member.2 acc) acc) := by
    induction members generalizing acc with
    | nil => exact hacc
    | cons entry rest ih => exact ih _ (hacc.insertSorted entry.1 entry.2)
  exact hfold [] List.Pairwise.nil

/-- A key above all others is inserted at the end. -/
theorem insertSorted_of_last {key : String} {value : Json} {members : List (String × Json)}
    (h : ∀ k ∈ Members.keys members, k < key) :
    insertSorted key value members = members ++ [(key, value)] := by
  induction members with
  | nil => rfl
  | cons entry rest ih =>
    obtain ⟨k, v⟩ := entry
    have hlt : k < key := h k (List.mem_cons_self ..)
    unfold insertSorted
    rw [if_neg (ne_of_gt hlt), if_neg (not_lt_of_gt hlt),
      ih fun j hj => h j (List.mem_cons_of_mem _ hj)]
    rfl

/-- Members that ascend are sorted already. -/
theorem sortMembers_of_ascending {members : List (String × Json)} (h : Ascending members) :
    sortMembers members = members := by
  have hfold (acc : List (String × Json)) (hacc : Ascending (acc ++ members)) :
      members.foldl (fun acc member => insertSorted member.1 member.2 acc) acc =
      acc ++ members := by
    induction members generalizing acc with
    | nil => exact (List.append_nil acc).symm
    | cons entry rest ih =>
      have hlast : ∀ k ∈ Members.keys acc, k < entry.1 := by
        intro k hk
        have hacc : (Members.keys (acc ++ entry :: rest)).Pairwise (· < ·) := hacc
        rw [Members.keys_append] at hacc
        exact (List.pairwise_append.mp hacc).2.2 k hk entry.1 (List.mem_cons_self ..)
      have hassoc : acc ++ entry :: rest = acc ++ [entry] ++ rest := by rw [List.append_assoc]; rfl
      rw [List.foldl_cons, insertSorted_of_last hlast, hassoc]
      exact ih (List.pairwise_cons.mp h).2 (acc ++ [entry]) (hassoc ▸ hacc)
  exact hfold [] h

/-- Sorting twice is sorting once. -/
theorem sortMembers_sortMembers (members : List (String × Json)) :
    sortMembers (sortMembers members) = sortMembers members :=
  sortMembers_of_ascending (ascending_sortMembers members)

/-- Insertion adds no member but the one. -/
theorem mem_insertSorted {key : String} {value : Json} {members : List (String × Json)}
    {entry : String × Json}
    (h : entry ∈ insertSorted key value members) : entry = (key, value) ∨ entry ∈ members := by
  induction members with
  | nil => exact .inl (List.mem_singleton.mp h)
  | cons first rest ih =>
    unfold insertSorted at h
    split at h
    · exact (List.mem_cons.mp h).imp_right (List.mem_cons_of_mem _)
    · split at h
      · exact List.mem_cons.mp h
      · rcases List.mem_cons.mp h with rfl | h
        · exact .inr (List.mem_cons_self ..)
        · exact (ih h).imp_right (List.mem_cons_of_mem _)

/-- Sorting adds no members. -/
theorem mem_sortMembers {members : List (String × Json)} {entry : String × Json}
    (h : entry ∈ sortMembers members) : entry ∈ members := by
  have hfold (acc : List (String × Json))
      (h : entry ∈ members.foldl (fun acc member => insertSorted member.1 member.2 acc) acc) :
      entry ∈ acc ∨ entry ∈ members := by
    clear * - h
    induction members generalizing acc with
    | nil => exact .inl h
    | cons first rest ih =>
      rcases ih _ h with hacc | hrest
      · rcases mem_insertSorted hacc with rfl | hold
        · exact .inr (List.mem_cons_self ..)
        · exact .inl hold
      · exact .inr (List.mem_cons_of_mem _ hrest)
  exact (hfold [] h).resolve_left List.not_mem_nil

/-- Sorting does not change what is found under a key. -/
theorem get?_sortMembers {members : List (String × Json)}
    (h : Members.Distinct members) (key : String) :
    Members.get? (sortMembers members) key = Members.get? members key := by
  -- what is still to come wins over what is there, and among distinct keys nothing comes twice
  have hfold (acc : List (String × Json)) :
      Members.get? (members.foldl (fun acc member => insertSorted member.1 member.2 acc) acc) key =
        (Members.get? members key <|> Members.get? acc key) := by
    induction members generalizing acc with
    | nil => rfl
    | cons entry rest ih =>
      obtain ⟨k, v⟩ := entry
      obtain ⟨hnew, hrest⟩ : k ∉ Members.keys rest ∧ Members.Distinct rest := List.nodup_cons.mp h
      rw [List.foldl_cons, ih hrest, get?_insertSorted, Members.get?_cons]
      by_cases hk : k = key
      · subst hk
        rw [if_pos rfl, if_pos rfl, (Members.get?_eq_none_iff rest k).mpr hnew]
        rfl
      · rw [if_neg hk, if_neg hk]
  refine (hfold []).trans ?_
  cases Members.get? members key <;> rfl

/-- Sorting what members hold and inserting one more may be exchanged. -/
theorem sortedMembers_insertSorted (key : String) (value : Json) (members : List (String × Json)) :
    sortedMembers (insertSorted key value members) =
      insertSorted key value.sorted (sortedMembers members) := by
  induction members with
  | nil => rfl
  | cons entry rest ih =>
    obtain ⟨k, v⟩ := entry
    rw [insertSorted_cons, sortedMembers, insertSorted_cons]
    split
    next => rfl
    next =>
      split
      next => rfl
      next => rw [sortedMembers, ih]

/-- Sorting what members hold and sorting the members may be exchanged. -/
theorem sortedMembers_sortMembers (members : List (String × Json)) :
    sortedMembers (sortMembers members) = sortMembers (sortedMembers members) := by
  have hfold (acc : List (String × Json)) :
      sortedMembers (members.foldl (fun acc member => insertSorted member.1 member.2 acc) acc) =
        (sortedMembers members).foldl (fun acc member => insertSorted member.1 member.2 acc)
          (sortedMembers acc) := by
    induction members generalizing acc with
    | nil => rfl
    | cons entry rest ih =>
      obtain ⟨k, v⟩ := entry
      rw [List.foldl_cons, ih, sortedMembers_insertSorted, sortedMembers, List.foldl_cons]
  exact hfold []

/-! ### Data as a source and back -/

mutual
/-- Data taken as a source is read back with its members sorted. -/
theorem toJson?_toSource (json : Json) : json.toSource.toJson? = some json.sorted := by
  cases json with
  | array items =>
    rw [toSource, Source.toJson?, toItems?_toSources items]
    rfl
  | object members =>
    rw [toSource, Source.toJson?, toMembers?_toMembers members]
    rfl
  | _ => rfl

/-- Items come back sorted inside. -/
theorem toItems?_toSources (items : List Json) :
    Source.toItems? (toSources items) = some (sortedItems items) := by
  cases items with
  | nil => rfl
  | cons item rest =>
    rw [toSources, Source.toItems?, toJson?_toSource item, toItems?_toSources rest]
    rfl

/-- Members come back sorted inside. -/
theorem toMembers?_toMembers (members : List (String × Json)) :
    Source.toMembers? (toMembers members) = some (sortedMembers members) := by
  cases members with
  | nil => rfl
  | cons entry rest =>
    obtain ⟨key, value⟩ := entry
    rw [toMembers, Source.toMembers?, toJson?_toSource value, toMembers?_toMembers rest]
    rfl
end

theorem toSources_eq (items : List Json) : toSources items = items.map toSource := by
  induction items with
  | nil => rfl
  | cons item rest ih => rw [toSources, ih, List.map_cons]

theorem sortedItems_eq (items : List Json) : sortedItems items = items.map sorted := by
  induction items with
  | nil => rfl
  | cons item rest ih => rw [sortedItems, ih, List.map_cons]

theorem toMembers_eq (members : List (String × Json)) :
    toMembers members = members.map fun member => (member.1, member.2.toSource) := by
  induction members with
  | nil => rfl
  | cons member rest ih => rw [toMembers, ih, List.map_cons]

theorem sortedMembers_eq (members : List (String × Json)) :
    sortedMembers members = members.map fun member => (member.1, member.2.sorted) := by
  induction members with
  | nil => rfl
  | cons member rest ih => rw [sortedMembers, ih, List.map_cons]

/-- As a source, members have the same keys. -/
theorem keys_toMembers (members : List (String × Json)) :
    Members.keys (toMembers members) = Members.keys members := by
  induction members with
  | nil => rfl
  | cons entry rest ih => exact congrArg (entry.1 :: ·) ih

/-- Sorting what members hold leaves their keys. -/
theorem keys_sortedMembers (members : List (String × Json)) :
    Members.keys (sortedMembers members) = Members.keys members := by
  induction members with
  | nil => rfl
  | cons entry rest ih => exact congrArg (entry.1 :: ·) ih

mutual
/-- Sorting once more changes nothing. -/
theorem sorted_sorted (json : Json) : json.sorted.sorted = json.sorted := by
  cases json with
  | array items => rw [sorted, sorted, sortedItems_sortedItems items]
  | object members =>
    rw [sorted, sorted, sortedMembers_sortMembers, sortedMembers_sortedMembers members,
      sortMembers_sortMembers]
  | _ => rfl

theorem sortedItems_sortedItems (items : List Json) :
    sortedItems (sortedItems items) = sortedItems items := by
  cases items with
  | nil => rfl
  | cons item rest =>
    rw [sortedItems, sortedItems, sorted_sorted item, sortedItems_sortedItems rest]

theorem sortedMembers_sortedMembers (members : List (String × Json)) :
    sortedMembers (sortedMembers members) = sortedMembers members := by
  cases members with
  | nil => rfl
  | cons member rest =>
    obtain ⟨key, value⟩ := member
    rw [sortedMembers, sortedMembers, sorted_sorted value, sortedMembers_sortedMembers rest]
end

/-! ### Optional members -/

section Optional

variable {α : Type}

/-- A member that may be missing is found under its name if it is there. -/
@[simp] theorem get?_optionalMember (name : String) (value : Option α)
    (toJson : α → Json) (key : String) :
    Members.get? (optionalMember name value toJson) key = if name =
      key then value.map toJson else none := by
  cases value with
  | none =>
    split <;> rfl
  | some v => rfl

/-- A list is left out where it is empty. -/
@[simp] theorem get?_listMember (name : String) (items : List α)
    (toJson : α → Json) (key : String) : Members.get? (listMember name items toJson) key =
      if name = key ∧ items ≠ [] then some (.array (items.map toJson)) else none := by
  cases items with
  | nil => rw [if_neg fun h => h.2 rfl]; rfl
  | cons item rest =>
    show (if name = key then _ else none) = _
    by_cases hk : name = key
    · rw [if_pos hk, if_pos ⟨hk, List.cons_ne_nil _ _⟩]
    · rw [if_neg hk, if_neg fun h => hk h.1]

/-- A member that may be missing adds its own name to the keys, or nothing. -/
theorem keys_optionalMember (name : String) (value : Option α) (toJson : α → Json) :
    (Members.keys (optionalMember name value toJson)).Sublist [name] := by
  cases value with
  | none => exact List.nil_sublist _
  | some v => exact List.Sublist.refl _

theorem keys_listMember (name : String) (items : List α) (toJson : α → Json) :
    (Members.keys (listMember name items toJson)).Sublist [name] := by
  cases items with
  | nil => exact List.nil_sublist _
  | cons item rest => exact List.Sublist.refl _

end Optional

end Json

end Conform
