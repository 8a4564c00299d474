import Conform.Proofs.Made
import Conform.Proofs.Written

/-!
# Sets of values in schemas that are made

A set is described by its members. It comes out the same when it is put together from them anew,
provided that each member stands under its own key, no key stands twice, and the count of references
is right (`ValueSet.Canonical`). Adding and removing members keep that. What a node allows and what
it denies have no key in common (`ValueSet.Apart`), so that either set can be put together without
taking anything from the other.

The count of references is kept beside the members, and adding and removing adjust it. It stays
right because a member that is added replaces one of its own kind, or none: the keys of references
begin with a letter that no key of a literal begins with (`SetItem.isReference_of_key`). That part
of the invariant has a name of its own (`ValueSet.Sound`), since it holds of every set that
operations make, whether its references can be restored from their descriptions or not.

The lemmas come in pairs, one for a single member and one for a list by induction on it, first for
soundness, then for canonical sets, then for two sets side by side. Merging two nodes adds what the
second allows and removes what it denies, and the other way round for what is denied, which is why
merged sets are apart again.

Main statements: `ValueSet.Canonical.addAll_items`, `ValueSet.Apart.merge` and
`Node.foldl_allow_deny`.
-/

namespace Conform

/-! ### Keys of members -/

namespace SetItem

/-- Keys of references begin as those of no literal do. -/
theorem head_key (item : SetItem) : item.key.toList.head? = some 'r' ↔ item.isReference = true := by
  cases item with
  | reference r => simp [key, isReference]
  | literal value =>
    cases value <;> simp [key, isReference, Value.setKey]

/-- Keys tell references from literals. -/
theorem isReference_of_key {a b : SetItem} (h : a.key = b.key) : a.isReference = b.isReference := by
  have hiff : a.isReference = true ↔ b.isReference = true := by
    rw [← head_key, ← head_key, h]
  exact Bool.eq_iff_iff.mpr hiff

end SetItem

namespace ValueSet

/-- How many of the members are references. -/
def countReferences (members : List (String × SetItem)) : Nat :=
  members.countP fun entry => entry.2.isReference

/-- The set says nothing beyond its members, in their order. -/
structure Canonical (s : ValueSet) : Prop where
  distinct : Members.Distinct s.members
  keyed : ∀ entry ∈ s.members, entry.1 = entry.2.key
  counted : s.references = countReferences s.members
  restorable : ∀ item ∈ s.items, ∀ r ∈ item.reference?, r.Restorable

/-- The empty set is canonical. -/
theorem canonical_empty : Canonical empty :=
  ⟨Members.distinct_nil, fun _ h => absurd h List.not_mem_nil, rfl,
    fun _ h => absurd h List.not_mem_nil⟩

/-- Each member stands under its own key, none twice, and the count of references is right. -/
structure Sound (s : ValueSet) : Prop where
  distinct : Members.Distinct s.members
  keyed : ∀ entry ∈ s.members, entry.1 = entry.2.key
  counted : s.references = countReferences s.members

/-- In a canonical set members stand under their own keys, and the count of references is right. -/
theorem Canonical.sound {s : ValueSet} (h : s.Canonical) : s.Sound :=
    ⟨h.distinct, h.keyed, h.counted⟩

/-- The count goes by members, whatever their keys. -/
theorem countReferences_members (s : ValueSet) :
    countReferences s.members = s.items.countP SetItem.isReference := by
  unfold countReferences items Members.values
  rw [List.countP_map]
  rfl

/-- The count of two lists is the sum. -/
theorem countReferences_append (a b : List (String × SetItem)) :
    countReferences (a ++ b) = countReferences a + countReferences b := List.countP_append

/-- A member that replaces another is a reference if and only if that one is. -/
theorem countReferences_insert {members : List (String × SetItem)} (item : SetItem)
    (hkeyed : ∀ entry ∈ members, entry.1 = entry.2.key) :
    countReferences (Members.insert members item.key item) =
      if item.isReference && !Members.contains members item.key then countReferences members + 1
      else countReferences members := by
  induction members with
  | nil =>
    cases h : item.isReference <;> simp [Members.insert, countReferences, Members.contains, h]
  | cons entry rest ih =>
    obtain ⟨k, old⟩ := entry
    have hold : k = old.key := hkeyed (k, old) (List.mem_cons_self ..)
    unfold Members.insert
    by_cases hk : k = item.key
    · -- the first member is the one replaced, and a reference as it was
      have hsame : item.isReference = old.isReference :=
        SetItem.isReference_of_key (hk.symm.trans hold)
      have hin : Members.contains ((k, old) :: rest) item.key = true := by
        rw [Members.contains_iff, ← hk]
        exact List.mem_cons_self ..
      rw [if_pos hk, hin, Bool.not_true, Bool.and_false, if_neg (by simp)]
      unfold countReferences
      rw [List.countP_cons, List.countP_cons, hsame]
    · have hin : Members.contains ((k, old) :: rest) item.key = Members.contains rest item.key := by
        unfold Members.contains
        rw [Members.get?_cons, if_neg hk]
      rw [if_neg hk, hin]
      have hrest := ih fun entry hentry => hkeyed entry (List.mem_cons_of_mem _ hentry)
      unfold countReferences at hrest ⊢
      rw [List.countP_cons, List.countP_cons, hrest]
      split <;> omega

/-- Taking a reference out lowers the count by one, and taking a literal out leaves it. -/
theorem countReferences_erase {members : List (String × SetItem)}
    (hdistinct : Members.Distinct members)
    {key : String} {removed : SetItem} (h : Members.get? members key = some removed) :
    countReferences (Members.erase members key) =
      if removed.isReference then countReferences members - 1 else countReferences members := by
  have hwhole : countReferences members =
      countReferences ((key, removed) :: Members.erase members key) :=
    (Members.perm_erase hdistinct h).countP_eq _
  rw [hwhole]
  unfold countReferences
  rw [List.countP_cons]
  split <;> omega

/-- Adding a member adds its key. -/
theorem mem_keys_add (s : ValueSet) (item : SetItem) (key : String) :
    key ∈ Members.keys (s.add item).members ↔ key = item.key ∨ key ∈ Members.keys s.members := by
  have hkeys : Members.keys (s.add item).members =
      if item.key ∈ Members.keys s.members then Members.keys s.members
      else Members.keys s.members ++ [item.key] := Members.keys_insert ..
  rw [hkeys]
  split
  next hin =>
    refine ⟨.inr, fun h => ?_⟩
    rcases h with rfl | h
    · exact hin
    · exact h
  next => rw [List.mem_append, List.mem_singleton, Or.comm]

/-- Removing a member removes its key. -/
theorem mem_keys_remove (s : ValueSet) (item : SetItem) (key : String) :
    key ∈ Members.keys (s.remove item).members ↔ key ≠ item.key ∧ key ∈ Members.keys s.members := by
  unfold remove
  split
  next removed hget =>
    show key ∈ Members.keys (Members.erase s.members item.key) ↔ _
    rw [Members.keys_erase, List.mem_filter, bne_iff_ne, And.comm]
  next hnone =>
    have hnew := (Members.get?_eq_none_iff _ _).mp hnone
    refine ⟨fun h => ⟨fun heq => hnew (heq ▸ h), h⟩, And.right⟩

/-- What is added is a member, and nothing else is new. -/
theorem mem_add {s : ValueSet} {item other : SetItem} (h : other ∈ (s.add item).items) :
    other ∈ s.items ∨ other = item := by
  obtain ⟨entry, hentry, rfl⟩ := List.mem_map.mp h
  rcases Members.mem_of_mem_insert hentry with hold | rfl
  · exact .inl (List.mem_map_of_mem hold)
  · exact .inr rfl

/-- What is left was there before. -/
theorem members_remove (s : ValueSet) (item : SetItem) : (s.remove item).members ⊆ s.members := by
  unfold remove
  split
  next => exact fun entry hentry => (List.mem_filter.mp hentry).1
  next => exact fun _ hentry => hentry

namespace Sound

variable {s : ValueSet}

/-- Adding a member keeps the count right: what it replaces is of its kind, as keys
tell the kinds apart. -/
theorem add (h : s.Sound) (item : SetItem) : (s.add item).Sound where
  distinct := h.distinct.insert item.key item
  keyed := by
    intro entry hentry
    rcases Members.mem_of_mem_insert hentry with hold | rfl
    · exact h.keyed entry hold
    · rfl
  counted := by
    rw [ValueSet.add, countReferences_insert item h.keyed, h.counted]

/-- Removing a member keeps the count right, and it never falls below what is there. -/
theorem remove (h : s.Sound) (item : SetItem) : (s.remove item).Sound := by
  have hsub := s.members_remove item
  unfold ValueSet.remove at hsub ⊢
  split
  next removed hget =>
    rw [hget] at hsub
    refine ⟨h.distinct.erase item.key, fun entry hentry => h.keyed entry (hsub hentry), ?_⟩
    show (if removed.isReference then s.references - 1 else s.references) = _
    rw [countReferences_erase h.distinct hget, h.counted]
  next => exact h

/-- The members say all. -/
theorem ext {t : ValueSet} (hs : s.Sound) (ht : t.Sound) (h : s.members = t.members) : s = t := by
  obtain ⟨members, references⟩ := s
  obtain ⟨members', references'⟩ := t
  obtain rfl : members = members' := h
  obtain rfl : references = references' := hs.counted.trans ht.counted.symm
  rfl

/-- Some reference is counted if and only if there is one. -/
theorem hasReferences_iff (h : s.Sound) :
    s.hasReferences = true ↔ ∃ item ∈ s.items, item.isReference = true := by
  unfold hasReferences
  rw [decide_eq_true_iff, h.counted, countReferences_members, List.countP_pos_iff]

end Sound

namespace Canonical

variable {s : ValueSet}

/-- Adding a member that can be restored keeps a set canonical. -/
theorem add (h : s.Canonical) {item : SetItem} (hitem : ∀ r ∈ item.reference?, r.Restorable) :
    (s.add item).Canonical where
  distinct := (h.sound.add item).distinct
  keyed := (h.sound.add item).keyed
  counted := (h.sound.add item).counted
  restorable := by
    intro other hother
    rcases mem_add hother with hold | rfl
    · exact h.restorable other hold
    · exact hitem

/-- Removing a member keeps a set canonical. -/
theorem remove (h : s.Canonical) (item : SetItem) : (s.remove item).Canonical where
  distinct := (h.sound.remove item).distinct
  keyed := (h.sound.remove item).keyed
  counted := (h.sound.remove item).counted
  restorable := by
    intro other hother
    obtain ⟨entry, hentry, rfl⟩ := List.mem_map.mp hother
    exact h.restorable entry.2 (List.mem_map_of_mem (s.members_remove item hentry))

/-- Adding several members keeps a set canonical. -/
theorem addAll (h : s.Canonical) {items : List SetItem}
    (hitems : ∀ item ∈ items, ∀ r ∈ item.reference?, r.Restorable) :
    (s.addAll items).Canonical := by
  unfold ValueSet.addAll
  induction items generalizing s with
  | nil => exact h
  | cons item rest ih =>
    exact ih (h.add (hitems item (List.mem_cons_self ..)))
      fun other hother => hitems other (List.mem_cons_of_mem _ hother)

/-- Removing several members keeps a set canonical. -/
theorem removeAll (h : s.Canonical) (items : List SetItem) : (s.removeAll items).Canonical := by
  unfold ValueSet.removeAll
  induction items generalizing s with
  | nil => exact h
  | cons item rest ih => exact ih (h.remove item)

/-- The members of a set stand under the keys they have by themselves. -/
theorem keys_eq (h : s.Canonical) : Members.keys s.members = s.items.map SetItem.key := by
  unfold Members.keys ValueSet.items Members.values
  rw [List.map_map]
  exact List.map_congr_left fun entry hentry => h.keyed entry hentry

/-- A set put together from its members anew is the same. -/
theorem addAll_items (h : s.Canonical) : ValueSet.empty.addAll s.items = s := by
  -- members before are in the set, members after are still to be added
  have hfold (before : List (String × SetItem)) (after : List (String × SetItem))
      (hdistinct : Members.Distinct (before ++ after))
      (hkeyed : ∀ entry ∈ after, entry.1 = entry.2.key) :
      (Members.values after).foldl ValueSet.add ⟨before, countReferences before⟩ =
        ⟨before ++ after, countReferences (before ++ after)⟩ := by
    induction after generalizing before with
    | nil => rw [List.append_nil]; rfl
    | cons entry rest ih =>
      obtain ⟨key, item⟩ := entry
      obtain rfl : key = item.key := hkeyed (key, item) (List.mem_cons_self ..)
      have hnew : item.key ∉ Members.keys before := by
        unfold Members.Distinct at hdistinct
        rw [Members.keys, List.map_append] at hdistinct
        intro hin
        exact (List.nodup_append.mp hdistinct).2.2 _ hin _ (List.mem_cons_self ..) rfl
      -- their keys are distinct, so each is added at the end
      have hcontains : Members.contains before item.key = false := by
        rw [Bool.eq_false_iff]
        exact fun hin => hnew ((Members.contains_iff before item.key).mp hin)
      have hstep : ValueSet.add ⟨before, countReferences before⟩ item =
          ⟨before ++ [(item.key, item)], countReferences (before ++ [(item.key, item)])⟩ := by
        unfold ValueSet.add
        dsimp only
        rw [Members.insert_of_not_mem hnew, hcontains, countReferences_append]
        cases href : item.isReference <;> simp [countReferences, href]
      have hassoc : before ++ (item.key, item) :: rest = before ++ [(item.key, item)] ++ rest := by
        rw [List.append_assoc]
        rfl
      show (Members.values rest).foldl ValueSet.add
        (ValueSet.add ⟨before, countReferences before⟩ item) = _
      rw [hstep, hassoc]
      exact ih (before ++ [(item.key, item)]) (hassoc ▸ hdistinct)
        fun other hother => hkeyed other (List.mem_cons_of_mem _ hother)
  have hall := hfold [] s.members h.distinct h.keyed
  obtain ⟨members, references⟩ := s
  refine hall.trans ?_
  rw [List.nil_append, ← h.counted]

end Canonical

/-- The keys afterwards are those added and those there were. -/
theorem mem_keys_addAll (s : ValueSet) (items : List SetItem) (key : String) :
    key ∈ Members.keys (s.addAll items).members ↔
      key ∈ items.map SetItem.key ∨ key ∈ Members.keys s.members := by
  unfold addAll
  induction items generalizing s with
  | nil => simp
  | cons item rest ih =>
    rw [List.foldl_cons, ih, mem_keys_add, List.map_cons, List.mem_cons, or_assoc,
      or_left_comm, ← or_assoc]

/-- The keys afterwards are those there were, but for those removed. -/
theorem mem_keys_removeAll (s : ValueSet) (items : List SetItem) (key : String) :
    key ∈ Members.keys (s.removeAll items).members ↔
      key ∉ items.map SetItem.key ∧ key ∈ Members.keys s.members := by
  unfold removeAll
  induction items generalizing s with
  | nil => simp
  | cons item rest ih =>
    rw [List.foldl_cons, ih, mem_keys_remove, List.map_cons, List.mem_cons, not_or, ← and_assoc,
      and_comm (a := key ∉ rest.map SetItem.key)]

/-- Removing what is not there changes nothing. -/
theorem remove_of_not_mem {s : ValueSet} {item : SetItem} (h : item.key ∉ Members.keys s.members) :
    s.remove item = s := by
  unfold remove
  rw [(Members.get?_eq_none_iff _ _).mpr h]

/-! ### What is allowed and what is denied -/

/-- Two canonical sets without a common key. -/
structure Apart (a b : ValueSet) : Prop where
  left : a.Canonical
  right : b.Canonical
  keys : ∀ key ∈ Members.keys a.members, key ∉ Members.keys b.members

namespace Apart

variable {a b : ValueSet}

theorem empty : Apart empty empty :=
    ⟨canonical_empty, canonical_empty, fun _ h => absurd h List.not_mem_nil⟩

/-- Sets without a common key are so either way round. -/
theorem symm (h : Apart a b) : Apart b a := ⟨h.right, h.left, fun key hb ha => h.keys key ha hb⟩

/-- A member that moves from one set to the other keeps them apart. -/
theorem add_remove (h : Apart a b) {item : SetItem} (hitem : ∀ r ∈ item.reference?, r.Restorable) :
    Apart (a.add item) (b.remove item) where
  left := h.left.add hitem
  right := h.right.remove item
  keys := by
    intro key ha hb
    obtain ⟨hne, hb⟩ := (mem_keys_remove b item key).mp hb
    rcases (mem_keys_add a item key).mp ha with rfl | ha
    · exact hne rfl
    · exact h.keys key ha hb

/-- Sets that are merged crosswise stay apart: what one side adds is removed from the other. -/
theorem merge {c d : ValueSet} (h : Apart a b) (hadded : Apart c d) :
    Apart (a.merge c d) (b.merge d c) where
  left := (h.left.removeAll d.items).addAll hadded.left.restorable
  right := (h.right.removeAll c.items).addAll hadded.right.restorable
  keys := by
    intro key ha hb
    rw [ValueSet.merge, mem_keys_addAll, mem_keys_removeAll, ← hadded.left.keys_eq,
      ← hadded.right.keys_eq] at ha hb
    rcases ha with hc | ⟨hd, ha⟩
    · rcases hb with hd | ⟨hc', -⟩
      · exact hadded.keys key hc hd
      · exact hc' hc
    · rcases hb with hd' | ⟨-, hb⟩
      · exact hd hd'
      · exact h.keys key ha hb

end Apart

end ValueSet

namespace Node

variable {σ : Type}

/-- Allowing members keeps the two sets of a node apart. -/
theorem apart_foldl_allow {n : Node σ} (h : n.allowed.Apart n.denied) {items : List SetItem}
    (hitems : ∀ item ∈ items, ∀ r ∈ item.reference?, r.Restorable) :
    (items.foldl allow n).allowed.Apart (items.foldl allow n).denied := by
  induction items generalizing n with
  | nil => exact h
  | cons item rest ih =>
    exact ih (n := n.allow item) (h.add_remove (hitems item (List.mem_cons_self ..)))
      fun other hother => hitems other (List.mem_cons_of_mem _ hother)

/-- Denying members keeps the two sets of a node apart. -/
theorem apart_foldl_deny {n : Node σ} (h : n.allowed.Apart n.denied) {items : List SetItem}
    (hitems : ∀ item ∈ items, ∀ r ∈ item.reference?, r.Restorable) :
    (items.foldl deny n).allowed.Apart (items.foldl deny n).denied := by
  induction items generalizing n with
  | nil => exact h
  | cons item rest ih =>
    exact ih (n := n.deny item) (h.symm.add_remove (hitems item (List.mem_cons_self ..))).symm
      fun other hother => hitems other (List.mem_cons_of_mem _ hother)

/-- Allowing members that are not denied adds them and does nothing else. -/
theorem foldl_allow (n : Node σ) {items : List SetItem}
    (h : ∀ item ∈ items, item.key ∉ Members.keys n.denied.members) :
    items.foldl allow n = { n with allowed := n.allowed.addAll items } := by
  induction items generalizing n with
  | nil => rfl
  | cons item rest ih =>
    have hstep : n.allow item = { n with allowed := n.allowed.add item } := by
      unfold allow
      rw [ValueSet.remove_of_not_mem (h item (List.mem_cons_self ..))]
    rw [List.foldl_cons, hstep]
    exact ih { n with allowed := n.allowed.add item }
      fun other hother => h other (List.mem_cons_of_mem _ hother)

/-- Denying members that are not allowed adds them and does nothing else. -/
theorem foldl_deny (n : Node σ) {items : List SetItem}
    (h : ∀ item ∈ items, item.key ∉ Members.keys n.allowed.members) :
    items.foldl deny n = { n with denied := n.denied.addAll items } := by
  induction items generalizing n with
  | nil => rfl
  | cons item rest ih =>
    have hstep : n.deny item = { n with denied := n.denied.add item } := by
      unfold deny
      rw [ValueSet.remove_of_not_mem (h item (List.mem_cons_self ..))]
    rw [List.foldl_cons, hstep]
    exact ih { n with denied := n.denied.add item }
      fun other hother => h other (List.mem_cons_of_mem _ hother)

/-- A node that is told what to allow and then what to deny does so. -/
theorem foldl_allow_deny {allowed denied : ValueSet} (h : allowed.Apart denied) (n : Node σ)
    (hallowed : n.allowed = {}) (hdenied : n.denied = {}) :
    denied.items.foldl deny (allowed.items.foldl allow n) = { n with allowed, denied } := by
  have hnone : ∀ item ∈ allowed.items, item.key ∉ Members.keys n.denied.members := by
    intro item _
    rw [hdenied]
    exact List.not_mem_nil
  have hsame : n.allowed.addAll allowed.items = allowed := by
    rw [hallowed]
    exact h.left.addAll_items
  rw [foldl_allow n hnone, hsame, foldl_deny]
  · show ({ n with allowed, denied := n.denied.addAll denied.items } : Node σ) = _
    rw [hdenied, show ValueSet.addAll {} denied.items = denied from h.right.addAll_items]
  · intro item hitem hin
    refine h.keys item.key hin ?_
    rw [h.right.keys_eq]
    exact List.mem_map_of_mem hitem

end Node

end Conform
