import Conform.Proofs.MergedParts

/-!
# Members of sets that operations make

Sets are filled by adding and removing members and by putting sets together (`ValueSet.Reached`).
Whatever the order, each member then stands under its own key, and none under another
(`ValueSet.Sound`). So a member stays until one of the same key is added or removed
(`mem_items_add`, `mem_items_remove`), and a look-up succeeds if and only if some member answers it,
wherever it stands (`has_iff`).

A set counts its references, and resolves none where it counts none. The count changes with a new
key and with a removed one only. It stays right because no literal has the key of a reference
(`SetItem.isReference_of_key`), so that what replaces a member is a reference just if that was one.

What is shown of a set goes by induction on the operations that made it. Soundness has two parts.
That members stand under their own keys is kept by writing under the key of what is written. That
the count is right needs more: a member that is replaced has to be of the kind of the one that
replaces it, or the count would have to change. Adding looks only whether the key is new.

A look-up asks first whether there are references at all, by the count, and then goes through them.
If the count were too low a reference could be passed over. So the theorem states both, that the
count is that of the references among the members, and that a look-up finds a member exactly if one
answers it (`has_iff`), which does not mention the count.

Main statement: `references_counted`.
-/

namespace Conform

/-- Whether a look-up of the value finds the member: a literal by its key or, if asked for, as a
text up to case; a reference by a value that it stands for. -/
def SetItem.Answers (item : SetItem) (value : Value) (scope : Scope) (insensitive : Bool) : Prop :=
  match item with
  | .literal m =>
    m.setKey = value.setKey ∨
      insensitive = true ∧ ∃ candidate text, m = .string candidate ∧ value = .string text ∧
        ValueSet.sameText candidate text = true
  | .reference r =>
    ∃ candidate ∈ r.resolveAll value scope, ValueSet.matchesValue candidate value insensitive = true

namespace ValueSet

variable {s t : ValueSet}

/-- Sets that come of adding and removing members and of putting sets together. -/
inductive Reached : ValueSet → Prop
  | empty : Reached empty
  | add {s : ValueSet} (item : SetItem) : Reached s → Reached (s.add item)
  | remove {s : ValueSet} (item : SetItem) : Reached s → Reached (s.remove item)
  | concat {s t : ValueSet} : Reached s → Reached t → Reached (s.concat t)

theorem Sound.addAll (h : s.Sound) (items : List SetItem) : (s.addAll items).Sound := by
  unfold ValueSet.addAll
  induction items generalizing s with
  | nil => exact h
  | cons item rest ih => exact ih (h.add item)

/-- Every operation keeps members under their own keys, and the count of references right. -/
theorem Reached.sound (h : s.Reached) : s.Sound := by
  induction h with
  | empty => exact canonical_empty.sound
  | add item _ ih => exact ih.add item
  | remove item _ ih => exact ih.remove item
  | concat _ _ ih _ => exact ih.addAll _

/-! ### Members -/

section Members

variable {item other : SetItem}

/-- A member is what its key leads to. -/
theorem mem_items_iff (h : s.Sound) :
    item ∈ s.items ↔ Members.get? s.members item.key = some item := by
  constructor
  · intro hitem
    obtain ⟨entry, hentry, rfl⟩ := List.mem_map.mp hitem
    have hin : (entry.2.key, entry.2) ∈ s.members := h.keyed entry hentry ▸ hentry
    exact h.distinct.get?_of_mem hin
  · exact fun hget => List.mem_map_of_mem (Members.mem_of_get? hget)

/-- A new member displaces the one of its key, and no other. -/
theorem mem_items_add (h : s.Sound) :
    other ∈ (s.add item).items ↔ other = item ∨ other ∈ s.items ∧ other.key ≠ item.key := by
  rw [mem_items_iff (h.add item), mem_items_iff h, members_add, Members.get?_insert]
  by_cases hkey : item.key = other.key
  · rw [if_pos hkey, Option.some_inj]
    exact ⟨fun heq => .inl heq.symm, fun hor => (hor.resolve_right fun hne => hne.2 hkey.symm).symm⟩
  · rw [if_neg hkey]
    refine ⟨fun hget => .inr ⟨hget, Ne.symm hkey⟩, fun hor => ?_⟩
    rcases hor with rfl | ⟨hget, -⟩
    · exact absurd rfl hkey
    · exact hget

/-- What is removed is the member of that key. -/
theorem mem_items_remove (h : s.Sound) :
    other ∈ (s.remove item).items ↔ other ∈ s.items ∧ other.key ≠ item.key := by
  rw [mem_items_iff (h.remove item), mem_items_iff h, get?_remove]
  by_cases hkey : item.key = other.key
  · rw [if_pos hkey]
    exact ⟨fun hnone => absurd hnone (by simp), fun hne => absurd hkey.symm hne.2⟩
  · rw [if_neg hkey]
    exact ⟨fun hget => ⟨hget, Ne.symm hkey⟩, And.left⟩

end Members

/-! ### Look-ups -/

section LookUps

variable {value : Value} {scope : Scope} {insensitive : Bool}

/-- The literal of a key is the member that has it. -/
theorem literalAt?_eq_some (h : s.Sound) {m : Value} :
    s.literalAt? value = some m ↔ .literal m ∈ s.items ∧ m.setKey = value.setKey := by
  unfold literalAt?
  constructor
  · intro hsome
    split at hsome
    next found hget =>
      obtain rfl := Option.some.inj hsome
      have hin := Members.mem_of_get? hget
      exact ⟨List.mem_map_of_mem hin, (h.keyed _ hin).symm⟩
    next => exact nomatch hsome
  · rintro ⟨hin, hkey⟩
    have hget : Members.get? s.members m.setKey = some (.literal m) := (mem_items_iff h).mp hin
    rw [← hkey, hget]

theorem literalIgnoringCase?_isSome :
    (s.literalIgnoringCase? value).isSome = true ↔
      ∃ candidate text, .literal (.string candidate) ∈ s.items ∧ value = .string text ∧
        sameText candidate text = true := by
  -- literals are members of one of the two kinds
  have hliteral (m : Value) : m ∈ s.literals ↔ .literal m ∈ s.items := by
    unfold literals
    rw [List.mem_filterMap]
    constructor
    · rintro ⟨item, hitem, hm⟩
      cases item with
      | literal m' => exact Option.some.inj hm ▸ hitem
      | reference => exact nomatch hm
    · exact fun hm => ⟨_, hm, rfl⟩
  cases value with
  | string text =>
    show (s.literals.find? _).isSome = true ↔ _
    rw [List.find?_isSome]
    constructor
    · rintro ⟨m, hm, hsame⟩
      cases m with
      | string candidate => exact ⟨candidate, text, (hliteral _).mp hm, rfl, hsame⟩
      | _ => exact nomatch hsame
    · rintro ⟨candidate, text', hm, heq, hsame⟩
      obtain rfl := Value.string.inj heq
      exact ⟨_, (hliteral _).mpr hm, hsame⟩
  | _ => exact ⟨fun h => absurd h Bool.false_ne_true, fun ⟨_, _, _, heq, _⟩ => absurd heq (by simp)⟩

theorem resolved?_isSome :
    (s.resolved? value scope insensitive).isSome = true ↔
      ∃ r, .reference r ∈ s.items ∧ SetItem.Answers (.reference r) value scope insensitive := by
  have hreference (r : Reference) : r ∈ s.referenceItems ↔ .reference r ∈ s.items := by
    unfold referenceItems
    rw [List.mem_filterMap]
    constructor
    · rintro ⟨item, hitem, hr⟩
      cases item with
      | literal => exact nomatch hr
      | reference r' => exact Option.some.inj hr ▸ hitem
    · exact fun hr => ⟨_, hr, rfl⟩
  unfold resolved?
  rw [List.findSome?_isSome_iff]
  refine exists_congr fun r => ?_
  rw [hreference, List.find?_isSome]
  rfl

/-- References are resolved only where some are counted, and no look-up misses one for that. -/
theorem get?_eq (h : s.Sound) :
    s.get? value scope insensitive =
      (s.literalAt? value <|> (if insensitive then s.literalIgnoringCase? value else none)
        <|> s.resolved? value scope insensitive) := by
  unfold get?
  by_cases hreferences : s.hasReferences = true
  · rw [if_pos hreferences]
  · -- what resolves to the value would be a member, and so counted
    have hnone : s.resolved? value scope insensitive = none := by
      by_contra hsome
      obtain ⟨r, hr, -⟩ := resolved?_isSome.mp (Option.isSome_iff_ne_none.mpr hsome)
      exact hreferences (h.hasReferences_iff.mpr ⟨_, hr, rfl⟩)
    rw [if_neg hreferences, hnone]

/-- A look-up succeeds if and only if some member answers it. -/
theorem has_iff (h : s.Sound) :
    s.has value scope insensitive = true ↔
    ∃ item ∈ s.items, item.Answers value scope insensitive := by
  have hkey : (s.literalAt? value).isSome = true ↔
      ∃ m, .literal m ∈ s.items ∧ m.setKey = value.setKey := by
    rw [Option.isSome_iff_exists]
    exact exists_congr fun m => literalAt?_eq_some h
  have heither (a b : Option Value) : (a <|> b).isSome = true ↔
      a.isSome = true ∨ b.isSome = true := by
    cases a <;> simp
  unfold has
  rw [get?_eq h, heither, heither, hkey]
  constructor
  · -- by its key, by its text, or by what a reference stands for
    rintro (⟨m, hm, hsame⟩ | hcase | hreference)
    · exact ⟨_, hm, .inl hsame⟩
    · split at hcase
      next hinsensitive =>
        obtain ⟨candidate, text, hm, rfl, hsame⟩ := literalIgnoringCase?_isSome.mp hcase
        exact ⟨_, hm, .inr ⟨hinsensitive, candidate, text, rfl, rfl, hsame⟩⟩
      next => exact nomatch hcase
    · obtain ⟨r, hr, hanswers⟩ := resolved?_isSome.mp hreference
      exact ⟨_, hr, hanswers⟩
  · rintro ⟨item, hitem, hanswers⟩
    cases item with
    | literal m =>
      rcases hanswers with hsame | ⟨hinsensitive, candidate, text, rfl, rfl, hsame⟩
      · exact .inl ⟨m, hitem, hsame⟩
      · rw [if_pos hinsensitive]
        exact .inr (.inl (literalIgnoringCase?_isSome.mpr ⟨candidate, text, hitem, rfl, hsame⟩))
    | reference r => exact .inr (.inr (resolved?_isSome.mpr ⟨r, hitem, hanswers⟩))

/-- Sets of the same members answer alike. -/
theorem has_of_items (hs : s.Sound) (ht : t.Sound) (h : ∀ item, item ∈ t.items ↔ item ∈ s.items) :
    t.has value scope insensitive = s.has value scope insensitive := by
  rw [Bool.eq_iff_iff, has_iff ht, has_iff hs]
  simp only [h]

end LookUps

/-! ### The count of references -/

/-- A reference that is taken away was counted. -/
theorem references_remove (h : s.Sound) {item removed : SetItem}
    (hget : Members.get? s.members item.key = some removed)
    (hreference : removed.isReference = true) : (s.remove item).references + 1 = s.references := by
  -- one less than none would be none, so it matters that the count is not zero
  have hin : removed ∈ s.items := List.mem_map_of_mem (Members.mem_of_get? hget)
  have hcounted : 0 < s.references :=
    of_decide_eq_true (h.hasReferences_iff.mpr ⟨removed, hin, hreference⟩)
  unfold remove
  rw [hget]
  show (if removed.isReference then s.references - 1 else s.references) + 1 = s.references
  rw [if_pos hreference, Nat.sub_add_cancel hcounted]

/-- However a set came about, it counts exactly the references among its members, and each member
stands under its own key, no key twice. Taking a reference away takes one off a count that is not
zero. Some are counted if and only if there is one, so a look-up finds what it would find if it
always resolved them. -/
theorem references_counted (s : ValueSet) (hs : s.Reached) :
    s.references = s.items.countP SetItem.isReference ∧
    (Members.Distinct s.members ∧ ∀ entry ∈ s.members, entry.1 = entry.2.key) ∧
    (∀ item removed, Members.get? s.members item.key = some removed → removed.isReference = true →
      (s.remove item).references + 1 = s.references) ∧
    (s.hasReferences = true ↔ ∃ item ∈ s.items, item.isReference = true) ∧
    ∀ value scope insensitive,
      s.get? value scope insensitive =
        (s.literalAt? value <|> (if insensitive then s.literalIgnoringCase? value else none)
          <|> s.resolved? value scope insensitive) := by
  have h := hs.sound
  have hexact : s.references = s.items.countP SetItem.isReference :=
    h.counted.trans (countReferences_members s)
  exact ⟨hexact, ⟨h.distinct, h.keyed⟩,
    fun _ _ hget hreference => references_remove h hget hreference,
    h.hasReferences_iff, fun _ _ _ => get?_eq h⟩

/-- A text that reads like the key of a reference; that reference, put in twice and taken away once;
and another one from a second set. -/
def mixed : ValueSet :=
  ((((empty.add (.literal (.string "ref:Root:/a"))).add (.reference (.ofKey "/a"))).add
    (.reference (.ofKey "/a"))).concat (empty.add (.reference (.ofKey "b")))).remove
    (.reference (.ofKey "/a"))

/-- One of the two members is counted, and taking it away leaves none. -/
theorem references_counted_mixed :
    mixed.Reached ∧ mixed.items.countP SetItem.isReference = 1 ∧ mixed.references = 1 ∧
    (mixed.remove (.reference (.ofKey "b"))).references = 0 ∧ mixed.hasReferences = true ∧
    (∀ entry ∈ mixed.members, entry.1 = entry.2.key) ∧
    ∀ value scope, mixed.get? value scope false =
      (mixed.literalAt? value <|> none <|> mixed.resolved? value scope false) := by
  have hreached : mixed.Reached :=
    .remove _ (.concat (.add _ (.add _ (.add _ .empty))) (.add _ .empty))
  have hone : mixed.items.countP SetItem.isReference = 1 := by decide
  have hget : Members.get? mixed.members (SetItem.reference (.ofKey "b")).key =
      some (.reference (.ofKey "b")) := rfl
  have hin : SetItem.reference (.ofKey "b") ∈ mixed.items :=
    List.mem_map_of_mem (Members.mem_of_get? hget)
  obtain ⟨hexact, ⟨-, hkeyed⟩, hremoved, hsome, hfound⟩ := references_counted mixed hreached
  have hleft := hremoved _ _ hget rfl
  rw [hexact, hone] at hleft
  exact ⟨hreached, hone, hexact.trans hone, Nat.succ.inj hleft, hsome.mpr ⟨_, hin, rfl⟩, hkeyed,
    fun value scope => hfound value scope false⟩

end ValueSet

end Conform
