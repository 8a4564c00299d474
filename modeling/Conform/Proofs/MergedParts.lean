import Conform.Proofs.BuiltRegular

/-!
# Merging the parts of a node

What merging does to each part of a node is associative: members that are written over one another,
rules of which the last of a name counts, patches, flags and annotations. For the sets this holds of
their members, not of the order of those: a member that one side takes out and a later one puts back
comes last. A part that says nothing leaves the other as it is, provided that the other is regular.

Members are written one by one, each in the place of an earlier one of its key or else at the
end (`Members.insertAll`). That this is associative is shown by induction on what is added,
where one more entry may as well be written into what is written (`Members.insertAll_insert`).
Tables of messages, the values that count as true and as false, and the children of objects are
all of this kind. Rules are added one by one too, and an earlier rule of a name is dropped
unless rules of that name add up.

For the two sets of a node only what is found under each key is compared (`ValueSet.get?_merge`).
Under a key the last side that has an opinion decides, whether it allows, denies or neither, and
that can be read off from either bracketing.

Main statements: `Members.insertAll_assoc`, `mergeRules_assoc` and `ValueSet.get?_merge`, by which
members of merged sets are looked up in the sets.
-/

namespace Conform

/-! ### Members -/

namespace Members

variable {α β : Type}

/-- Of two values under one key the later one stays. -/
theorem insert_insert (members : List (String × α)) (key : String) (old new : α) :
    insert (insert members key old) key new = insert members key new := by
  induction members with
  | nil => exact if_pos rfl
  | cons entry rest ih =>
    obtain ⟨k, v⟩ := entry
    by_cases hk : k = key
    · subst hk
      simp [insert]
    · simp [insert, hk, ih]

/-- A key that stands already may be written earlier. -/
theorem insert_comm {members : List (String × α)} {key other : String} (hkey : key ∈ keys members)
    (hne : key ≠ other) (value v : α) :
    insert (insert members other v) key value = insert (insert members key value) other v := by
  induction members with
  | nil => exact absurd hkey List.not_mem_nil
  | cons entry rest ih =>
    obtain ⟨k, old⟩ := entry
    by_cases hk : k = key
    · subst hk
      simp [insert, hne]
    · have hrest : key ∈ keys rest := (List.mem_cons.mp hkey).resolve_left (Ne.symm hk)
      by_cases ho : k = other
      · subst ho
        simp [insert, hk]
      · simp [insert, hk, ho, ih hrest]

/-- The keys afterwards are the new one and those there were. -/
theorem mem_keys_insert {members : List (String × α)} {key other : String} {value : α} :
    other ∈ keys (insert members key value) ↔ other = key ∨ other ∈ keys members := by
  rw [keys_insert]
  split
  next hin =>
    refine ⟨.inr, fun h => ?_⟩
    rcases h with rfl | h
    · exact hin
    · exact h
  next => rw [List.mem_append, List.mem_singleton, Or.comm]

/-- Members are written in turn. -/
theorem insertAll_cons (members : List (String × α)) (entry : String × α)
    (added : List (String × α)) :
    insertAll members (entry :: added) = insertAll (insert members entry.1 entry.2) added := rfl

/-- A key that stands already and is not written otherwise may be written first. -/
theorem insert_insertAll {members added : List (String × α)} {key : String}
    (hkey : key ∈ keys members) (hadded : key ∉ keys added) (value : α) :
    insert (insertAll members added) key value = insertAll (insert members key value) added := by
  induction added generalizing members with
  | nil => rfl
  | cons entry rest ih =>
    obtain ⟨hne, hrest⟩ : key ≠ entry.1 ∧ key ∉ keys rest := by
      simpa [keys] using hadded
    rw [insertAll_cons, insertAll_cons, ih (mem_keys_insert.mpr (.inr hkey)) hrest,
      insert_comm hkey hne]

/-- One more entry may be written into what is written. -/
theorem insertAll_insert {members added : List (String × α)} (h : Distinct added) (key : String)
    (value : α) :
    insertAll members (insert added key value) = insert (insertAll members added) key value := by
  induction added generalizing members with
  | nil => rfl
  | cons entry rest ih =>
    obtain ⟨k, v⟩ := entry
    obtain ⟨hnew, hrest⟩ : k ∉ keys rest ∧ Distinct rest := List.nodup_cons.mp h
    by_cases hk : k = key
    · subst hk
      have hin : k ∈ keys (insert members k v) := mem_keys_insert.mpr (.inl rfl)
      rw [insertAll_cons, insert_insertAll hin hnew, insert_insert]
      simp [insert, insertAll_cons]
    · rw [show insert ((k, v) :: rest) key value = (k, v) :: insert rest key value from if_neg hk,
        insertAll_cons, insertAll_cons, ih hrest]

/-- Entries may be written one over another first, and then all of them. -/
theorem insertAll_assoc {first second third : List (String × α)} (h : Distinct second) :
    insertAll (insertAll first second) third = insertAll first (insertAll second third) := by
  induction third generalizing second with
  | nil => rfl
  | cons entry rest ih =>
    rw [insertAll_cons, insertAll_cons, ← insertAll_insert h]
    exact ih (h.insert entry.1 entry.2)

/-- What is added is found before what there was. -/
theorem get?_insertAll {members added : List (String × α)} (h : Distinct added) (key : String) :
    get? (insertAll members added) key = (get? added key <|> get? members key) := by
  induction added generalizing members with
  | nil => rfl
  | cons entry rest ih =>
    obtain ⟨k, v⟩ := entry
    obtain ⟨hnew, hrest⟩ : k ∉ keys rest ∧ Distinct rest := List.nodup_cons.mp h
    rw [insertAll_cons, ih hrest, get?_insert, get?_cons]
    by_cases hk : k = key
    · subst hk
      rw [(get?_eq_none_iff rest k).mpr hnew, if_pos rfl, if_pos rfl]
      rfl
    · rw [if_neg hk, if_neg hk]

/-- A change of all values may be made before or after a member is written. -/
theorem map_insert (f : α → β) (members : List (String × α)) (key : String) (value : α) :
    (insert members key value).map (fun entry => (entry.1, f entry.2)) =
      insert (members.map fun entry => (entry.1, f entry.2)) key (f value) := by
  induction members with
  | nil => rfl
  | cons entry rest ih =>
    obtain ⟨k, v⟩ := entry
    by_cases hk : k = key
    · simp [insert, hk]
    · simp [insert, hk, ih]

/-- A change of all values may be made before or after members are written. -/
theorem map_insertAll (f : α → β) (members added : List (String × α)) :
    (insertAll members added).map (fun entry => (entry.1, f entry.2)) =
      insertAll (members.map fun entry => (entry.1, f entry.2))
        (added.map fun entry => (entry.1, f entry.2)) := by
  induction added generalizing members with
  | nil => rfl
  | cons entry rest ih => rw [insertAll_cons, List.map_cons, insertAll_cons, ih, map_insert]

/-- Which keys are written depends on the keys alone. -/
theorem keys_insertAll_congr {a b : List (String × α)} {c d : List (String × β)}
    (ha : keys a = keys c)
    (hb : keys b = keys d) : keys (insertAll a b) = keys (insertAll c d) := by
  have hplain {γ : Type} (members : List (String × γ)) :
      keys members = keys (members.map fun entry => (entry.1, ())) := by
    rw [keys, keys, List.map_map]
    rfl
  have hsame {γ δ : Type} {x : List (String × γ)} {y : List (String × δ)} (h : keys x = keys y) :
      (x.map fun entry => (entry.1, ())) = y.map fun entry => (entry.1, ()) := by
    have hkeys {γ : Type} (members : List (String × γ)) :
        (members.map fun entry => (entry.1, ())) = (keys members).map fun key => (key, ()) := by
      rw [keys, List.map_map]
      rfl
    rw [hkeys, hkeys, h]
  rw [hplain, hplain (insertAll c d), map_insertAll (fun _ => ()),
    map_insertAll (fun _ => ()), hsame ha, hsame hb]

/-- Distinct keys that read the same have the same entries. -/
theorem perm_of_get?_eq {a b : List (String × α)} (ha : Distinct a) (hb : Distinct b)
    (h : ∀ key, get? a key = get? b key) : a.Perm b := by
  have hnodup {members : List (String × α)} (hd : Distinct members) : members.Nodup :=
    List.Nodup.of_map _ hd
  refine (List.perm_ext_iff_of_nodup (hnodup ha) (hnodup hb)).mpr fun entry => ?_
  constructor
  · exact fun hin => mem_of_get? ((h entry.1).symm.trans (ha.get?_of_mem hin))
  · exact fun hin => mem_of_get? ((h entry.1).trans (hb.get?_of_mem hin))

end Members

/-! ### Rules -/

section Rules

variable {σ : Type} {kind : Kind}

/-- Rules are added in turn, from the first. -/
theorem mergeRules_cons (a : List (Rule σ)) (rule : Rule σ) (b : List (Rule σ)) :
    mergeRules kind a (rule :: b) =
      mergeRules kind (Node.appendRule a rule (kind.repeats rule.name)) b := rfl

/-- Dropping all rules of one name before or after merging comes to the same. -/
theorem filter_mergeRules (name : String) (a b : List (Rule σ)) :
    (mergeRules kind a b).filter (fun r => r.name != name) =
      mergeRules kind (a.filter fun r => r.name != name) (b.filter fun r => r.name != name) := by
  induction b generalizing a with
  | nil => rfl
  | cons rule rest ih =>
    have hstep : (Node.appendRule a rule (kind.repeats rule.name)).filter
        (fun r => r.name != name) = if rule.name = name then a.filter (fun r => r.name != name)
        else Node.appendRule (a.filter fun r => r.name != name) rule (kind.repeats rule.name) := by
      unfold Node.appendRule
      rw [List.filter_append]
      by_cases hname : rule.name = name
      · rw [if_pos hname, List.filter_singleton]
        cases kind.repeats rule.name <;> simp [hname]
      · have hkept : (rule.name != name) = true := bne_iff_ne.mpr hname
        rw [if_neg hname, List.filter_singleton, hkept]
        cases kind.repeats rule.name <;> simp [Bool.and_comm]
    rw [mergeRules_cons, ih, hstep]
    by_cases hname : rule.name = name
    · rw [if_pos hname, List.filter_cons_of_neg (by simp [hname])]
    · rw [if_neg hname, List.filter_cons_of_pos (by simp [hname]), mergeRules_cons]

/-- The last rule is added last. -/
theorem mergeRules_append (a b : List (Rule σ)) (rule : Rule σ) :
    mergeRules kind a (b ++ [rule]) =
      Node.appendRule (mergeRules kind a b) rule (kind.repeats rule.name) := by
  unfold mergeRules
  rw [List.foldl_append]
  rfl

/-- One more rule may be added to what is merged in. -/
theorem mergeRules_appendRule (a b : List (Rule σ)) (rule : Rule σ) :
    mergeRules kind a (Node.appendRule b rule (kind.repeats rule.name)) =
      Node.appendRule (mergeRules kind a b) rule (kind.repeats rule.name) := by
  unfold Node.appendRule
  rw [mergeRules_append]
  unfold Node.appendRule
  cases kind.repeats rule.name with
  | true => rfl
  | false =>
    -- the rules of the name go either way, before merging or after it
    simp only [Bool.false_eq_true, if_false]
    rw [filter_mergeRules, filter_mergeRules, List.filter_filter]
    simp only [Bool.and_self]

/-- Rules of three sides come to the same from the left and from the right: of those that do not add
up the last of a name counts. -/
theorem mergeRules_assoc (a b c : List (Rule σ)) :
    mergeRules kind (mergeRules kind a b) c = mergeRules kind a (mergeRules kind b c) := by
  induction c generalizing b with
  | nil => rfl
  | cons rule rest ih => rw [mergeRules_cons, mergeRules_cons, ← mergeRules_appendRule, ih]

/-- Types that agree on which names add up merge alike. -/
theorem mergeRules_congr {kind' : Kind} {b : List (Rule σ)}
    (h : ∀ rule ∈ b, kind'.repeats rule.name = kind.repeats rule.name) (a : List (Rule σ)) :
    mergeRules kind' a b = mergeRules kind a b := by
  induction b generalizing a with
  | nil => rfl
  | cons rule rest ih =>
    rw [mergeRules_cons, mergeRules_cons, h rule (List.mem_cons_self ..)]
    exact ih (fun r hr => h r (List.mem_cons_of_mem _ hr)) _

/-- Rules that are admitted stay as they are where there are none before them. -/
theorem mergeRules_nil {rules : List (Rule σ)} (h : kind.Admits rules) :
    mergeRules kind [] rules = rules := by
  have hfold (before after : List (Rule σ)) (hall : kind.Admits (before ++ after)) :
      mergeRules kind before after = before ++ after := by
    induction after generalizing before with
    | nil => exact (List.append_nil before).symm
    | cons rule rest ih =>
      have hkept : Node.appendRule before rule (kind.repeats rule.name) = before ++ [rule] := by
        unfold Node.appendRule
        cases hrepeats : kind.repeats rule.name with
        | true => rfl
        | false =>
          have hnew : ∀ r ∈ before, (r.name != rule.name) = true := by
            intro r hr
            rw [bne_iff_ne]
            intro hname
            have hboth :=
              (List.pairwise_append.mp hall.single).2.2 r hr rule (List.mem_cons_self ..) hname
            rw [hname, hrepeats] at hboth
            exact absurd hboth (by simp)
          rw [if_neg (by simp), List.filter_eq_self.mpr hnew]
      have hassoc : before ++ rule :: rest = before ++ [rule] ++ rest := by simp
      rw [mergeRules_cons, hkept, hassoc]
      exact ih (before ++ [rule]) (hassoc ▸ hall)
  exact hfold [] rules h

end Rules

/-- A rule that fits schemas without a type adds up under every type as it does there. -/
theorem Rule.Fits.repeats_of_any {σ : Type} {rule : Rule σ} (h : rule.Fits .any) (kind : Kind) :
    Kind.any.repeats rule.name = kind.repeats rule.name := by
  obtain ⟨spec, hspec, -⟩ := h
  rw [Kind.repeats_eq hspec, Kind.repeats_eq (Kind.rule?_of_any hspec kind)]

/-! ### Patches, flags, annotations and forms without children -/

/-- Three tables of templates may be grouped either way, as no code stands twice in one. -/
theorem MessageTable.insertAll_assoc (a b c : MessageTable) :
    (a.insertAll b).insertAll c = a.insertAll (b.insertAll c) :=
  MessageTable.ext (Members.insertAll_assoc b.distinct)

/-- An empty table under another is the other. -/
theorem MessageTable.empty_insertAll (table : MessageTable) : empty.insertAll table = table :=
  MessageTable.ext (Members.insertAll_of_distinct table.distinct)

/-- An empty table over another changes nothing. -/
theorem MessageTable.insertAll_empty (table : MessageTable) : table.insertAll empty = table := rfl

/-- Patches are merged setting by setting, messages code by code. -/
theorem PreferencesPatch.merge_assoc (a b c : PreferencesPatch) :
    (a.merge b).merge c = a.merge (b.merge c) := by
  unfold merge
  simp only [Option.orElse_eq_orElse, Option.orElse_eq_or, Option.or_assoc,
    MessageTable.insertAll_assoc]

/-- A node without a patch is neutral, and three patches may be grouped either way. -/
theorem mergePatches_assoc (a b c : Option PreferencesPatch) :
    mergePatches (mergePatches a b) c = mergePatches a (mergePatches b c) := by
  cases a with
  | none => cases b <;> cases c <;> rfl
  | some a =>
    cases b with
    | none => cases c <;> rfl
    | some b =>
      cases c with
      | none => rfl
      | some c =>
        exact congrArg some (PreferencesPatch.merge_assoc a b c)

/-- Of flags the last one that was set counts. -/
theorem Flags.merge_assoc (a b c : Flags) : (a.merge b).merge c = a.merge (b.merge c) := by
  unfold merge
  simp only [Option.orElse_eq_orElse, Option.orElse_eq_or, Option.or_assoc, Bool.or_assoc]

/-- Notes, tags and examples are put one after another; of the others the last counts. -/
theorem Annotations.merge_assoc (a b c : Annotations) :
    (a.merge b).merge c = a.merge (b.merge c) := by
  unfold merge
  simp only [Option.orElse_eq_orElse, Option.orElse_eq_or, Option.or_assoc, List.append_assoc]

/-- Entries are put one after another. -/
theorem AlternativesForm.merge_assoc {σ : Type} (a b c : AlternativesForm σ) :
    (a.merge b).merge c = a.merge (b.merge c) := by
  unfold merge
  simp only [Option.orElse_eq_orElse, Option.orElse_eq_or, Option.or_assoc, List.append_assoc]

/-- Items and places are put one after another. -/
theorem ArrayForm.merge_assoc {σ : Type} (a b c : ArrayForm σ) :
    (a.merge b).merge c = a.merge (b.merge c) := by
  unfold merge
  simp only [Bool.or_assoc, List.append_assoc]

/-- Replacements are put one after another, and switches stay on. -/
theorem StringForm.merge_assoc (a b c : StringForm) :
    (a.merge b).merge c = a.merge (b.merge c) := by
  unfold merge
  simp only [Bool.or_assoc, List.append_assoc]

/-! ### Sets -/

namespace ValueSet

variable {s t : ValueSet}

/-- A member is written under its key. -/
theorem members_add (s : ValueSet) (item : SetItem) :
    (s.add item).members = Members.insert s.members item.key item := rfl

/-- What is removed is not found, and all else as before. -/
theorem get?_remove (s : ValueSet) (item : SetItem) (key : String) :
    Members.get? (s.remove item).members key = if item.key = key then none else
    Members.get? s.members key := by
  unfold remove
  split
  next => exact Members.get?_erase ..
  next hnone =>
    by_cases hkey : item.key = key
    · rw [if_pos hkey, ← hkey, hnone]
    · rw [if_neg hkey]

/-- Adding the members of a set writes them. -/
theorem members_addAll (s : ValueSet) (ht : t.Canonical) :
    (s.addAll t.items).members = Members.insertAll s.members t.members := by
  have hkeyed := ht.keyed
  unfold items Members.values addAll Members.insertAll
  rw [List.foldl_map]
  generalize t.members = added at hkeyed
  induction added generalizing s with
  | nil => rfl
  | cons entry rest ih =>
    rw [List.foldl_cons, List.foldl_cons,
      ih _ fun e he => hkeyed e (List.mem_cons_of_mem _ he), members_add,
      ← hkeyed entry (List.mem_cons_self ..)]

/-- What is added is found before what there was. -/
theorem get?_addAll (s : ValueSet) (ht : t.Canonical) (key : String) :
    Members.get? (s.addAll t.items).members key =
      (Members.get? t.members key <|> Members.get? s.members key) := by
  rw [members_addAll s ht, Members.get?_insertAll ht.distinct]

/-- What is removed is not found, and all else as before. -/
theorem get?_removeAll (s : ValueSet) (ht : t.Canonical) (key : String) :
    Members.get? (s.removeAll t.items).members key =
      if (Members.get? t.members key).isSome then none else Members.get? s.members key := by
  have hkeyed := ht.keyed
  unfold items Members.values removeAll
  rw [List.foldl_map]
  generalize t.members = removed at hkeyed
  induction removed generalizing s with
  | nil => rfl
  | cons entry rest ih =>
    obtain ⟨k, item⟩ := entry
    obtain rfl : k = item.key := hkeyed (k, item) (List.mem_cons_self ..)
    rw [List.foldl_cons, ih _ fun e he => hkeyed e (List.mem_cons_of_mem _ he),
      get?_remove, Members.get?_cons]
    by_cases hkey : item.key = key
    · simp [hkey]
    · simp [hkey]

/-- What merging leaves under a key: what is added there, or what stood there
if it is not removed. -/
theorem get?_merge (base : ValueSet) {added removed : ValueSet} (hadded : added.Canonical)
    (hremoved : removed.Canonical) (key : String) :
    Members.get? (base.merge added removed).members key =
      (Members.get? added.members key <|>
        if (Members.get? removed.members key).isSome then none else
        Members.get? base.members key) := by
  rw [merge, get?_addAll _ hadded, get?_removeAll _ hremoved]

/-- Two sets with the same members, in one order or another. -/
structure SameMembers (s t : ValueSet) : Prop where
  members : s.members.Perm t.members
  references : s.references = t.references

theorem SameMembers.refl (s : ValueSet) : s.SameMembers s := ⟨.refl _, rfl⟩

/-- Canonical sets that read the same have the same members. -/
theorem Canonical.sameMembers (hs : s.Canonical) (ht : t.Canonical)
    (h : ∀ key, Members.get? s.members key = Members.get? t.members key) : s.SameMembers t := by
  have hperm := Members.perm_of_get?_eq hs.distinct ht.distinct h
  refine ⟨hperm, ?_⟩
  rw [hs.counted, ht.counted]
  exact hperm.countP_eq _

/-- Of what three sides allow and deny, merged from the left or from the
right, the same is allowed. -/
theorem merge_sameMembers {a₁ a₂ a₃ d₁ d₂ d₃ : ValueSet} (h₁ : a₁.Apart d₁) (h₂ : a₂.Apart d₂)
    (h₃ : a₃.Apart d₃) :
    ((a₁.merge a₂ d₂).merge a₃ d₃).SameMembers (a₁.merge (a₂.merge a₃ d₃) (d₂.merge d₃ a₃)) := by
  have hleft := ((h₁.merge h₂).merge h₃).left
  have hinner := h₂.merge h₃
  refine hleft.sameMembers (h₁.merge hinner).left fun key => ?_
  rw [get?_merge _ h₃.left h₃.right, get?_merge _ h₂.left h₂.right,
    get?_merge _ hinner.left hinner.right,
    get?_merge _ h₃.left h₃.right, get?_merge _ h₃.right h₃.left]
  cases Members.get? a₃.members key with
  | some _ => rfl
  | none =>
    cases Members.get? d₃.members key with
    | some _ => rfl
    | none => cases Members.get? a₂.members key <;> cases Members.get? d₂.members key <;> rfl

/-- Joining sets writes the members of the second over those of the first. -/
theorem members_concat (s : ValueSet) (ht : t.Canonical) :
    (s.concat t).members = Members.insertAll s.members t.members :=
  members_addAll s ht

/-- Canonical sets with the same members in the same order are the same. -/
theorem Canonical.ext (hs : s.Canonical) (ht : t.Canonical) (h : s.members = t.members) : s = t :=
  hs.sound.ext ht.sound h

/-- Joining sets is associative, order and all. -/
theorem concat_assoc {a b c : ValueSet} (ha : a.Canonical) (hb : b.Canonical) (hc : c.Canonical) :
    (a.concat b).concat c = a.concat (b.concat c) := by
  have hab : (a.concat b).Canonical := ha.addAll hb.restorable
  have hbc : (b.concat c).Canonical := hb.addAll hc.restorable
  refine (hab.addAll hc.restorable).ext (ha.addAll hbc.restorable) ?_
  show ((a.concat b).concat c).members = (a.concat (b.concat c)).members
  rw [members_concat _ hc, members_concat _ hb, members_concat _ hbc, members_concat _ hc]
  exact Members.insertAll_assoc hb.distinct

/-- From the empty set nothing can be removed. -/
theorem removeAll_empty (items : List SetItem) : empty.removeAll items = empty := by
  induction items with
  | nil => rfl
  | cons item rest ih => exact ih

/-- A set merged into none is itself. -/
theorem merge_empty (h : s.Apart t) : empty.merge s t = s := by
  rw [merge, removeAll_empty]
  exact h.left.addAll_items

end ValueSet

end Conform
