import Conform.Proofs.ConcatLaws

/-!
# The last write decides

A value is allowed or denied by what was said of it last. No key is in both sets of a node, since
each write takes from one set what it puts into the other, and merging removes from the target's
sets what the source has on the other side before it adds its own. Both are told by what stands
under a key afterwards (`get?_foldl_allow`, `get?_foldl_deny`, `ValueSet.get?_merge`). Children of
one key are merged in turn, so that the same holds along every path of keys (`Schema.join_below?`).

The sets are compared by looking keys up in them, which is possible since no key stands twice in one
of them. Writing a list of items leaves under a key the last of the items that has it, on the side
of the write, and nothing on the other; what is denied is told from what is allowed by exchanging
the two sets of the node (`Node.exchange`), under which every write is a write on the other side.

Merging takes what the source says on either side over what the target says. For a key that the
source says nothing of, the target decides as before; the theorem says so with both sides at
once, so that nothing is left to say about a key in both. Along a path of keys the children are
looked up one after another, and merging commutes with looking up, because children of one key
are merged by the same function.

Main statement: `Schema.last_write_decides`.
-/

namespace Conform

variable {σ : Type}

/-- The last of the items that has the key. -/
def SetItem.last? (items : List SetItem) (key : String) : Option SetItem :=
  items.reverse.find? fun item => item.key == key

theorem SetItem.last?_cons (item : SetItem) (rest : List SetItem) (key : String) :
    last? (item :: rest) key = (last? rest key <|> if item.key = key then some item else none) := by
  unfold last?
  rw [List.reverse_cons, List.find?_append, List.find?_singleton]
  by_cases hkey : item.key = key
  · simp [hkey]
  · simp [hkey]

namespace Node

/-- Under the key the item is allowed, and nothing is denied. -/
def Allows (n : Node σ) (key : String) (item : SetItem) : Prop :=
  Members.get? n.allowed.members key = some item ∧ Members.get? n.denied.members key = none

/-- Under the key the item is denied, and nothing is allowed. -/
def Denies (n : Node σ) (key : String) (item : SetItem) : Prop :=
  Members.get? n.denied.members key = some item ∧ Members.get? n.allowed.members key = none

/-- Both nodes have the same to say of a key. -/
def SameSide (key : String) (n m : Node σ) : Prop :=
  Members.get? m.allowed.members key = Members.get? n.allowed.members key ∧
    Members.get? m.denied.members key = Members.get? n.denied.members key

/-- Of a key the result says what the source says, or what the target does if
the source says nothing. -/
structure SidesMerged (key : String) (target source result : Node σ) : Prop where
  allowed : ∀ item, Members.get? source.allowed.members key = some item → result.Allows key item
  denied : ∀ item, Members.get? source.denied.members key = some item → result.Denies key item
  kept : Members.get? source.allowed.members key = none →
    Members.get? source.denied.members key = none → SameSide key target result

/-- What stands under a key after a list of items is allowed: the last one that has the key, and
nothing on the other side. -/
theorem get?_foldl_allow (n : Node σ) (items : List SetItem) (key : String) :
    Members.get? (items.foldl allow n).allowed.members key =
        (SetItem.last? items key <|> Members.get? n.allowed.members key) ∧
      Members.get? (items.foldl allow n).denied.members key =
        if (SetItem.last? items key).isSome then none else Members.get? n.denied.members key := by
  induction items generalizing n with
  | nil => exact ⟨rfl, rfl⟩
  | cons item rest ih =>
    obtain ⟨hallowed, hdenied⟩ := ih (n.allow item)
    have hadd : Members.get? (n.allow item).allowed.members key =
        if item.key = key then some item else Members.get? n.allowed.members key :=
        Members.get?_insert ..
    have hremove : Members.get? (n.allow item).denied.members key =
        if item.key = key then none else Members.get? n.denied.members key :=
        ValueSet.get?_remove ..
    rw [List.foldl_cons, hallowed, hdenied, hadd, hremove, SetItem.last?_cons]
    by_cases hkey : item.key = key
    · cases SetItem.last? rest key <;> simp [hkey]
    · cases SetItem.last? rest key <;> simp [hkey]

/-- The node with its sets exchanged. -/
def exchange (n : Node σ) : Node σ := { n with allowed := n.denied, denied := n.allowed }

theorem foldl_deny_exchange (n : Node σ) (items : List SetItem) :
    items.foldl deny n = (items.foldl allow n.exchange).exchange := by
  induction items generalizing n with
  | nil => rfl
  | cons item rest ih => exact ih (n.deny item)

theorem get?_foldl_deny (n : Node σ) (items : List SetItem) (key : String) :
    Members.get? (items.foldl deny n).denied.members key =
        (SetItem.last? items key <|> Members.get? n.denied.members key) ∧
      Members.get? (items.foldl deny n).allowed.members key =
        if (SetItem.last? items key).isSome then none else Members.get? n.allowed.members key := by
  rw [foldl_deny_exchange]
  exact get?_foldl_allow n.exchange items key

/-- Canonical sets without a common key have nothing under one key on both sides. -/
theorem none_of_apart {n : Node σ} (h : n.allowed.Apart n.denied) (key : String) :
    Members.get? n.allowed.members key = none ∨ Members.get? n.denied.members key = none := by
  by_cases hin : key ∈ Members.keys n.allowed.members
  · exact .inr ((Members.get?_eq_none_iff _ _).mpr (h.keys key hin))
  · exact .inl ((Members.get?_eq_none_iff _ _).mpr hin)

end Node

/-- The children, if the form is one of objects. -/
def Form.children : Form Schema → List (String × Schema)
  | .object f => f.children
  | _ => []

namespace Schema

theorem sidesMerged {form : Form Schema} (a : Node Schema) {b : Node Schema}
    (hb : b.allowed.Apart b.denied)
    (key : String) : Node.SidesMerged key a b (mergedNode form a b) := by
  have hallowed : Members.get? (mergedNode form a b).allowed.members key = _ :=
    ValueSet.get?_merge a.allowed hb.left hb.right key
  have hdenied : Members.get? (mergedNode form a b).denied.members key = _ :=
    ValueSet.get?_merge a.denied hb.right hb.left key
  have hone := Node.none_of_apart hb key
  refine ⟨fun item hitem => ?_, fun item hitem => ?_, fun hnone hnone' => ?_⟩
  · have hother := hone.resolve_left (by simp [hitem])
    rw [hitem, hother] at hallowed hdenied
    exact ⟨hallowed, hdenied⟩
  · have hother := hone.resolve_right (by simp [hitem])
    rw [hitem, hother] at hallowed hdenied
    exact ⟨hdenied, hallowed⟩
  · rw [hnone, hnone'] at hallowed hdenied
    exact ⟨hallowed, hdenied⟩

/-! ### Along paths of keys -/

theorem join_none (o : Option Schema) : join concat o none = .ok o := by cases o <;> rfl

theorem none_join (o : Option Schema) : join concat none o = .ok o := by cases o <;> rfl

/-- The children of a merged form are those of the target and those of the source,
merged under a common key. -/
theorem join_formChildren {a b form : Form Schema} (ha : a.Regular) (hb : b.Regular)
    (h : a.merge concat b = .ok form) (key : String) :
    join concat (Members.get? a.children key) (Members.get? b.children key) =
      .ok (Members.get? form.children key) := by
  cases Schema.formsMerged_of_ok h with
  | target => exact join_none _
  | source => exact none_join _
  -- objects merge their children key by key, the other forms have none
  | object hmerged => exact (ObjectForm.merged_of_ok ha hb hmerged).child key
  | _ => rfl

/-- The schema that a path of keys leads to, child by child. -/
def below? (s : Schema) : List String → Option Schema
  | [] => some s
  | key :: rest => (Members.get? s.children key).bind (·.below? rest)

/-- What two merged schemas have at the end of a path is merged there. -/
theorem join_below? (path : List String) {a b c : Schema} (ha : a.Everywhere Regular)
    (hb : b.Everywhere Regular) (h : a.concat b = .ok c) :
    join concat (a.below? path) (b.below? path) = .ok (c.below? path) := by
  induction path generalizing a b c with
  | nil => exact congrArg (Except.map some) h
  | cons key rest ih =>
    have hchild : join concat (Members.get? a.children key) (Members.get? b.children key) =
        .ok (Members.get? c.children key) := by
      obtain ⟨form, hform, rfl⟩ := concat_ok h
      exact join_formChildren ha.self.form hb.self.form hform key
    -- the path leads below both schemas, below one of them, or below neither
    unfold below?
    cases hx : Members.get? a.children key with
    | none =>
      rw [hx, none_join] at hchild
      rw [Except.ok.inj hchild]
      exact none_join _
    | some x =>
      cases hy : Members.get? b.children key with
      | none =>
        rw [hx, hy, join_none] at hchild
        rw [← Except.ok.inj hchild]
        exact join_none _
      | some y =>
        rw [hx, hy] at hchild
        obtain ⟨z, hz, hc⟩ := Attempt.map_ok hchild
        rw [← hc]
        exact ih (ha.inner (mem_inner_of_child (Members.mem_of_get? hx)))
          (hb.inner (mem_inner_of_child (Members.mem_of_get? hy))) hz

theorem everywhere_below? {P : Schema → Prop} {path : List String} {s x : Schema}
    (hs : s.Everywhere P) (h : s.below? path = some x) : x.Everywhere P := by
  induction path generalizing s with
  | nil => exact Option.some.inj h ▸ hs
  | cons key rest ih =>
    obtain ⟨child, hchild, h⟩ := Option.bind_eq_some_iff.mp h
    exact ih (hs.inner (mem_inner_of_child (Members.mem_of_get? hchild))) h

/-- In what comes of calls, no key is allowed and denied in one node. The last of the items
allowed, admitted as the only ones, or denied has its key to itself, and other keys are left as
they were. Merging schemas merges what stands at the end of each path of keys, the sides of the
source before those of the target. -/
theorem last_write_decides {s : Schema} (h : Made Built s) :
    (s.Everywhere fun t => ∀ key, Members.get? t.node.allowed.members key = none ∨
      Members.get? t.node.denied.members key = none) ∧
    (∀ items key item, SetItem.last? items key = some item →
      (s.allow items).node.Allows key item ∧ (s.valid items).node.Allows key item ∧
        (s.deny items).node.Denies key item) ∧
    (∀ items key, SetItem.last? items key = none →
      Node.SameSide key s.node (s.allow items).node ∧
      Node.SameSide key s.node (s.valid items).node ∧
        Node.SameSide key s.node (s.deny items).node) ∧
    ∀ source result, Made Built source → s.concat source = .ok result → ∀ path,
      join concat (s.below? path) (source.below? path) = .ok (result.below? path) ∧
      ∀ a b c, s.below? path = some a → source.below? path = some b → result.below? path = some c →
        ∀ key, Node.SidesMerged key a.node b.node c.node := by
  have hregular := h.regular
  refine ⟨hregular.mono fun t ht => Node.none_of_apart ht.sets, fun items key item hlast => ?_,
    fun items key hnone => ?_, fun source result hsource hconcat path => ?_⟩
  · have hallow := s.node.get?_foldl_allow items key
    have hdeny := s.node.get?_foldl_deny items key
    rw [hlast] at hallow hdeny
    exact ⟨hallow, hallow, hdeny⟩
  · have hallow := s.node.get?_foldl_allow items key
    have hdeny := s.node.get?_foldl_deny items key
    rw [hnone] at hallow hdeny
    exact ⟨hallow, hallow, hdeny.symm⟩
  · have hjoin := join_below? path hregular hsource.regular hconcat
    -- at the end of the path stand two schemas and what merging them gives
    refine ⟨hjoin, fun a b c ha hb hc key => ?_⟩
    have hb' := everywhere_below? hsource.regular hb
    rw [ha, hb, hc] at hjoin
    obtain ⟨c', hc', heq⟩ := Attempt.map_ok hjoin
    obtain rfl := Option.some.inj heq
    obtain ⟨form, -, rfl⟩ := concat_ok hc'
    exact sidesMerged a.node hb'.self.sets key

/-- Of two texts that are allowed a source denies one, and says nothing of the other. -/
theorem last_write_decides_both : ∃ result, allowsBoth.concat deniesFirst = .ok result ∧
    result.node.Denies "s:x" (.literal (.string "x")) ∧
    result.node.Allows "s:y" (.literal (.string "y")) := by
  have htarget : Made Built allowsBoth :=
    Made.any.extended (.allow [.literal (.string "x"), .literal (.string "y")]) rfl rfl rfl
  have hsource : Made Built deniesFirst :=
    Made.any.extended (.deny [.literal (.string "x")]) rfl rfl rfl
  have hmerges : (allowsBoth.concat deniesFirst).isOk = true := by decide +kernel
  cases hresult : allowsBoth.concat deniesFirst with
  | error reason => exact absurd (hresult ▸ hmerges) (by simp [Except.isOk, Except.toBool])
  | ok result =>
    obtain ⟨-, hsides⟩ := (last_write_decides htarget).2.2.2 deniesFirst result hsource hresult []
    have hmerged := hsides allowsBoth deniesFirst result rfl rfl rfl
    exact ⟨result, rfl, (hmerged "s:x").denied _ rfl, (hmerged "s:y").kept rfl rfl⟩

end Schema

end Conform
