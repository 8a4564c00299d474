import Conform.Check.Array
import Conform.Proofs.KeyTexts
import Conform.Proofs.Sets

/-!
# What set keys tell apart

Sets and duplicates go by `Value.setKey`. The texts inside arrays and objects stand in it as they
are, so a text that looks like what separates or closes can pass for it: `["a", "b"]` and
`["a,s:b"]` have one key. Where the texts inside hold no comma and do not end in a closing bracket,
every key is told from what follows it (`Value.setKey_append_inj`), item by item and member by
member, and values of one key are the same (`Value.same_of_setKey`). Names of members may be any
text, since they are quoted.

The induction is on values, and it needs a stronger claim than that keys are distinct. Inside an
array a key is followed by a comma and more keys or by brackets, so what is shown is that a key and
what follows it can be told from another key and what follows that (`Apart`, where what follows is
one of the things that may, `Follows`). For an array the keys between its brackets are told apart
one by one (`listed_inj`), the end of the list being told from a further item by the closing
bracket; for an object the quoted name comes first and then the same.

Conversely values that are the same always have one key. So under the condition on texts, look-up
and removal in sets and the search for duplicates all go by what the values are.

Main statement: `Value.keys_tell_apart`.
-/

namespace Conform

/-! ### Pieces between commas -/

/-- Two texts that differ are told apart whatever follows them. -/
def Apart (a b : List Char) : Prop :=
  ∀ t t', Follows t → Follows t' → a ++ t = b ++ t' → a = b ∧ t = t'

/-- Texts, each behind a comma. -/
def listed (texts : List (List Char)) : List Char := texts.flatMap (',' :: ·)

/-- Each text stands behind a comma. -/
theorem listed_cons (text : List Char) (texts : List (List Char)) :
    listed (text :: texts) = ',' :: (text ++ listed texts) := rfl

/-- Between commas the first text has none before it. -/
theorem intercalate_cons (text : List Char) (texts : List (List Char)) :
    [','].intercalate (text :: texts) = text ++ listed texts := by
  induction texts generalizing text with
  | nil => rw [List.intercalate_singleton, listed, List.flatMap_nil, List.append_nil]
  | cons next texts ih =>
    rw [List.intercalate_cons_cons, ih, listed_cons]
    simp

/-- More pieces and a closing bracket may follow a key. -/
theorem follows_listed {c : Char} {rest : List Char} (hc : closes c = true) (hrest : Follows rest)
    (texts : List (List Char)) : Follows (listed texts ++ c :: rest) := by
  cases texts with
  | nil => exact .close hc hrest
  | cons text texts => exact .comma _

section

variable {c : Char} {rest rest' : List Char} (hc : closes c = true) (hrest : Follows rest)
  (hrest' : Follows rest')

include hc hrest hrest'

/-- Pieces behind commas are told apart one by one, as is what follows them. -/
theorem listed_inj {xs ys : List (List Char)} (hapart : ∀ x ∈ xs, ∀ y ∈ ys, Apart x y)
    (h : listed xs ++ c :: rest = listed ys ++ c :: rest') : xs = ys ∧ rest = rest' := by
  have hcomma : c ≠ ',' := by
    rintro rfl
    exact absurd hc (by decide)
  induction xs generalizing ys with
  | nil =>
    cases ys with
    | nil => exact ⟨rfl, (List.cons.inj h).2⟩
    | cons y ys => exact absurd (List.cons.inj h).1 hcomma
  | cons x xs ih =>
    cases ys with
    | nil => exact absurd (List.cons.inj h).1.symm hcomma
    | cons y ys =>
      rw [listed_cons, listed_cons, List.cons_append, List.cons_append, List.append_assoc,
        List.append_assoc] at h
      obtain ⟨rfl, hothers⟩ := hapart x (List.mem_cons_self ..) y (List.mem_cons_self ..) _ _
        (follows_listed hc hrest xs) (follows_listed hc hrest' ys) (List.cons.inj h).2
      obtain ⟨rfl, htail⟩ := ih (fun x hx y hy =>
        hapart x (List.mem_cons_of_mem _ hx) y (List.mem_cons_of_mem _ hy)) hothers
      exact ⟨rfl, htail⟩

/-- Pieces between commas are known from the text up to the bracket that closes. -/
theorem intercalate_inj {xs ys : List (List Char)} (hapart : ∀ x ∈ xs, ∀ y ∈ ys, Apart x y)
    (hopens : ∀ x ∈ xs ++ ys, ∃ first others, x = first :: others ∧ closes first = false)
    (h : [','].intercalate xs ++ c :: rest = [','].intercalate ys ++ c :: rest') :
    xs = ys ∧ rest = rest' := by
  -- a piece does not open with the bracket that closes
  have hfirst {x : List Char} {others : List Char} (hx : x ∈ xs ++ ys) (t : List Char) :
      c :: others ≠ x ++ t := by
    intro heq
    obtain ⟨first, more, rfl, hopen⟩ := hopens x hx
    rw [← (List.cons.inj heq).1, hc] at hopen
    exact absurd hopen (by decide)
  cases xs with
  | nil =>
    cases ys with
    | nil => exact ⟨rfl, (List.cons.inj h).2⟩
    | cons y ys =>
      rw [intercalate_cons, List.append_assoc] at h
      exact absurd h (hfirst (List.mem_cons_self ..) _)
  | cons x xs =>
    cases ys with
    | nil =>
      rw [intercalate_cons, List.append_assoc] at h
      exact absurd h.symm (hfirst (List.mem_cons_self ..) _)
    | cons y ys =>
      refine listed_inj hc hrest hrest' hapart ?_
      rw [intercalate_cons, intercalate_cons] at h
      rw [listed_cons, listed_cons, List.cons_append, List.cons_append, h]

end

namespace Value

/-! ### At every depth of a value -/

/-- The values directly inside. -/
def inner : Value → List Value
  | .array items => items
  | .object members => Members.values members
  | _ => []

/-- What is inside a value is smaller. -/
theorem sizeOf_inner {v child : Value} (h : child ∈ v.inner) : sizeOf child < sizeOf v := by
  cases v with
  | array items =>
    have hlt := List.sizeOf_lt_of_mem (show child ∈ items from h)
    simp only [array.sizeOf_spec]
    omega
  | object members =>
    obtain ⟨⟨name, value⟩, hmem, rfl⟩ :=
      List.mem_map.mp (show child ∈ Members.values members from h)
    have hlt := List.sizeOf_lt_of_mem hmem
    simp only [Prod.mk.sizeOf_spec, object.sizeOf_spec] at hlt ⊢
    omega
  | _ => exact absurd h List.not_mem_nil

/-- Induction on what is inside. -/
theorem inner_induction {P : Value → Prop} (h : ∀ v, (∀ child ∈ v.inner, P child) → P v)
    (v : Value) : P v :=
  h v fun child _ => inner_induction h child
  termination_by sizeOf v
  decreasing_by exact sizeOf_inner ‹_›

mutual
/-- The property holds of the value and of every value in it. -/
def everywhere (p : Value → Bool) : Value → Bool
  | .array items => p (.array items) && everywhereItems p items
  | .object members => p (.object members) && everywhereMembers p members
  | value => p value

/-- The property holds at every depth of each item. -/
def everywhereItems (p : Value → Bool) : List Value → Bool
  | [] => true
  | item :: rest => everywhere p item && everywhereItems p rest

/-- The property holds at every depth of each member. -/
def everywhereMembers (p : Value → Bool) : List (String × Value) → Bool
  | [] => true
  | (_, value) :: rest => everywhere p value && everywhereMembers p rest
end

/-- Items have the property at every depth if each of them has. -/
theorem everywhereItems_iff {p : Value → Bool} {items : List Value} :
    everywhereItems p items = true ↔ ∀ item ∈ items, item.everywhere p = true := by
  induction items with
  | nil => simp [everywhereItems]
  | cons item rest ih => rw [everywhereItems, Bool.and_eq_true, ih, List.forall_mem_cons]

/-- Members have the property at every depth if each of them has. -/
theorem everywhereMembers_iff {p : Value → Bool} {members : List (String × Value)} :
    everywhereMembers p members = true ↔
    ∀ value ∈ Members.values members, value.everywhere p = true := by
  induction members with
  | nil => simp [everywhereMembers, Members.values]
  | cons entry rest ih =>
    rw [everywhereMembers, Bool.and_eq_true, ih, Members.values, Members.values, List.map_cons,
      List.forall_mem_cons]

/-- A value has the property at every depth if it has it and so has everything directly inside. -/
theorem everywhere_iff {p : Value → Bool} {v : Value} :
    v.everywhere p = true ↔ p v = true ∧ ∀ child ∈ v.inner, child.everywhere p = true := by
  cases v with
  | array items => rw [everywhere, Bool.and_eq_true, everywhereItems_iff, inner]
  | object members => rw [everywhere, Bool.and_eq_true, everywhereMembers_iff, inner]
  | _ => simp [everywhere, inner]

/-- A text without commas that does not end in a closing bracket. -/
def isPlain : Value → Bool
  | .string s => !s.toList.contains ',' && !s.toList.getLast?.any closes
  | _ => true

/-- Every text in the value is plain. -/
def hasPlainTexts (v : Value) : Bool := v.everywhere isPlain

/-- An object names each member once. -/
def namesOnce : Value → Bool
  | .object members => decide (Members.keys members).Nodup
  | _ => true

/-- No name stands twice in an object of the value. -/
def hasDistinctNames (v : Value) : Bool := v.everywhere namesOnce

/-- A text by itself may be any; the texts inside other values are plain. -/
def isTold : Value → Bool
  | .string _ => true
  | v => v.hasPlainTexts

/-! ### Keys -/

/-- Values of one kind. -/
inductive SameKind : Value → Value → Prop
  | undefined : SameKind .undefined .undefined
  | null : SameKind .null .null
  | bool (a b : Bool) : SameKind (.bool a) (.bool b)
  | number (n m : Number) : SameKind (.number n) (.number m)
  | string (s t : String) : SameKind (.string s) (.string t)
  | date (t u : Instant) : SameKind (.date t) (.date u)
  | binary (as bs : List UInt8) : SameKind (.binary as) (.binary bs)
  | array (as bs : List Value) : SameKind (.array as) (.array bs)
  | object (as bs : List (String × Value)) : SameKind (.object as) (.object bs)

/-- The letter a key begins with. -/
def letter : Value → Char
  | .undefined => 'u'
  | .null => 'z'
  | .bool _ => 'b'
  | .number _ => 'n'
  | .string _ => 's'
  | .date _ => 'd'
  | .binary _ => 'x'
  | .array _ => 'a'
  | .object _ => 'o'

/-- Each kind of value has its letter. -/
theorem sameKind_of_letter {v w : Value} (h : v.letter = w.letter) : SameKind v w := by
  cases v <;> cases w <;> first | constructor | simp [letter] at h

/-- What stands behind the letter. -/
theorem setKey_letter (v : Value) : ∃ rest, v.setKey.toList = v.letter :: rest := by
  cases v <;> simp [setKey, letter, String.toList_append]

/-- Keys tell the kinds of values apart, whatever follows. -/
theorem sameKind_of_append {v w : Value} {t t' : List Char}
    (h : v.setKey.toList ++ t = w.setKey.toList ++ t') : SameKind v w := by
  obtain ⟨rest, hv⟩ := v.setKey_letter
  obtain ⟨rest', hw⟩ := w.setKey_letter
  rw [hv, hw] at h
  exact sameKind_of_letter (List.cons.inj h).1

/-- A key begins with no closing bracket. -/
theorem setKey_opens (v : Value) :
    ∃ first others, v.setKey.toList = first :: others ∧ closes first = false := by
  obtain ⟨rest, h⟩ := v.setKey_letter
  exact ⟨_, rest, h, by cases v <;> rfl⟩

/-- A key with nothing inside is told from what follows. -/
theorem unmistakable_setKey {v : Value} (hplain : v.hasPlainTexts = true)
    (hscalar : ∀ as, v ≠ .array as) (hscalar' : ∀ as, v ≠ .object as) :
    Unmistakable v.setKey.toList := by
  -- a letter, a colon and a text without commas or brackets
  have hbehind {k : Char} {text : String} (hletter : k ≠ ',' ∧ closes k = false)
      (htext : ∀ c ∈ text.toList, c ≠ ',' ∧ closes c = false) :
      Unmistakable ((String.ofList [k, ':'] ++ text).toList) := by
    refine .of_chars fun c hc => ?_
    rw [String.toList_append, String.toList_ofList] at hc
    rcases List.mem_append.mp hc with hc | hc
    · rcases List.mem_cons.mp hc with rfl | hc
      · exact hletter
      · rw [List.mem_singleton.mp hc]
        decide
    · exact htext c hc
  cases v with
  | undefined => exact .of_chars (plain_of_all rfl)
  | null => exact .of_chars (plain_of_all rfl)
  | bool b => exact hbehind (k := 'b') (by decide) (by cases b <;> exact plain_of_all rfl)
  | number n => exact hbehind (k := 'n') (by decide) n.key_plain
  | string s =>
    have hlist : (setKey (.string s)).toList = 's' :: ':' :: s.toList := by
      rw [setKey, String.toList_append]
      rfl
    obtain ⟨hcomma, hlast⟩ : s.toList.contains ',' = false ∧
        s.toList.getLast?.any closes = false := by
      simpa [hasPlainTexts, everywhere, isPlain] using hplain
    -- a text has no comma, and no bracket at its end
    have hin : ',' ∉ s.toList := by simpa using hcomma
    rw [hlist]
    constructor
    · simpa using hin
    · intro c hc
      cases hend : s.toList.getLast? with
      | none =>
        rw [List.getLast?_eq_none_iff.mp hend] at hc
        obtain rfl : ':' = c := Option.some.inj hc
        decide
      | some last =>
        rw [hend] at hlast
        rw [List.getLast?_cons_cons, List.getLast?_cons, hend] at hc
        obtain rfl : last = c := Option.some.inj hc
        exact hlast
  | date t => exact hbehind (k := 'd') (by decide) (toString_int_plain _)
  | binary bytes => exact hbehind (k := 'x') (by decide) (Bytes.toHex_plain _)
  | array items => exact absurd rfl (hscalar items)
  | object members => exact absurd rfl (hscalar' members)

/-- The keys of items are taken one by one. -/
theorem setKeys_eq (items : List Value) : setKeys items = items.map setKey := by
  induction items with
  | nil => rfl
  | cons item rest ih => rw [setKeys, ih, List.map_cons]

/-- The text of a member in the key of its object. -/
def memberKey (member : String × Value) : String := Text.quoted member.1 ++ "=" ++ setKey member.2

/-- The keys of members are taken one by one. -/
theorem memberKeys_eq (members : List (String × Value)) :
    memberKeys members = members.map memberKey := by
  induction members with
  | nil => rfl
  | cons member rest ih =>
    rw [memberKeys, ih, List.map_cons]
    rfl

/-- The key of a member tells its name from the key of its value. -/
theorem memberKey_inj {a b : String × Value} {t t' : List Char}
    (h : (memberKey a).toList ++ t = (memberKey b).toList ++ t') :
    a.1 = b.1 ∧ a.2.setKey.toList ++ t = b.2.setKey.toList ++ t' := by
  unfold memberKey at h
  rw [String.toList_append, String.toList_append, String.toList_append, String.toList_append,
    List.append_assoc, List.append_assoc, List.append_assoc, List.append_assoc] at h
  obtain ⟨hname, hrest⟩ := Text.quoted_append_inj h
  exact ⟨hname, (List.cons.inj hrest).2⟩

section

variable {t t' : List Char} (ht : Follows t) (ht' : Follows t')

include ht ht'

/-- The keys of the items are known from the key of the array. -/
theorem setKey_array_inj {as bs : List Value}
    (hapart : ∀ a ∈ as, ∀ b ∈ bs, Apart a.setKey.toList b.setKey.toList)
    (h : (setKey (.array as)).toList ++ t = (setKey (.array bs)).toList ++ t') :
    as.map setKey = bs.map setKey ∧ t = t' := by
  have hlist (items : List Value) (rest : List Char) : (setKey (.array items)).toList ++ rest =
      'a' :: ':' :: '[' ::
      ([','].intercalate ((items.map setKey).map String.toList) ++ ']' :: rest) := by
    rw [setKey, setKeys_eq, String.toList_append, String.toList_append, String.toList_intercalate,
      List.append_assoc, List.append_assoc]
    rfl
  rw [hlist, hlist] at h
  have h := (List.cons.inj (List.cons.inj (List.cons.inj h).2).2).2
  have hopens : ∀ x ∈ (as.map setKey).map String.toList ++ (bs.map setKey).map String.toList,
      ∃ first others, x = first :: others ∧ closes first = false := by
    intro x hx
    rw [← List.map_append, ← List.map_append, List.map_map] at hx
    obtain ⟨v, -, rfl⟩ := List.mem_map.mp hx
    exact v.setKey_opens
  obtain ⟨hkeys, hrest⟩ := intercalate_inj (by decide) ht ht' (by simpa using hapart) hopens h
  exact ⟨List.map_injective_iff.mpr (fun _ _ => String.toList_inj.mp) hkeys, hrest⟩

/-- The sorted texts of the members are known from the key of the object. -/
theorem setKey_object_inj {as bs : List (String × Value)}
    (hapart : ∀ a ∈ as, ∀ b ∈ bs, Apart a.2.setKey.toList b.2.setKey.toList)
    (h : (setKey (.object as)).toList ++ t = (setKey (.object bs)).toList ++ t') :
    sortTexts (as.map memberKey) = sortTexts (bs.map memberKey) ∧ t = t' := by
  have hlist (members : List (String × Value)) (rest : List Char) :
      (setKey (.object members)).toList ++ rest = 'o' :: ':' :: '\x7b' ::
        ([','].intercalate ((sortTexts (members.map memberKey)).map String.toList) ++
          '\x7d' :: rest) := by
    rw [setKey, memberKeys_eq, String.toList_append, String.toList_append,
      String.toList_intercalate, List.append_assoc, List.append_assoc]
    rfl
  have hmem {members : List (String × Value)} {x : List Char}
      (hx : x ∈ (sortTexts (members.map memberKey)).map String.toList) :
      ∃ member ∈ members, x = (memberKey member).toList := by
    obtain ⟨text, htext, rfl⟩ := List.mem_map.mp hx
    obtain ⟨member, hmember, rfl⟩ := List.mem_map.mp (List.mem_mergeSort.mp htext)
    exact ⟨member, hmember, rfl⟩
  -- the letter, the colon and the opening brace are the same for every object
  rw [hlist, hlist] at h
  have h := (List.cons.inj (List.cons.inj (List.cons.inj h).2).2).2
  -- a member's key is its name in quotes and the key of its value, and both are known
  have hapart' : ∀ x ∈ (sortTexts (as.map memberKey)).map String.toList,
      ∀ y ∈ (sortTexts (bs.map memberKey)).map String.toList, Apart x y := by
    intro x hx y hy t t' ht ht' hxy
    obtain ⟨a, ha, rfl⟩ := hmem hx
    obtain ⟨b, hb, rfl⟩ := hmem hy
    obtain ⟨hname, hvalue⟩ := memberKey_inj hxy
    obtain ⟨hkey, hrest⟩ := hapart a ha b hb t t' ht ht' hvalue
    exact ⟨by rw [memberKey, memberKey, hname, String.toList_inj.mp hkey], hrest⟩
  have hopens : ∀ x ∈ (sortTexts (as.map memberKey)).map String.toList ++
      (sortTexts (bs.map memberKey)).map String.toList,
      ∃ first others, x = first :: others ∧ closes first = false := by
    intro x hx
    obtain ⟨member, rfl⟩ : ∃ member, x = (memberKey member).toList :=
      (List.mem_append.mp hx).elim (fun hx => (hmem hx).imp fun _ h => h.2)
        (fun hx => (hmem hx).imp fun _ h => h.2)
    unfold memberKey
    rw [String.toList_append, String.toList_append, Text.toList_quoted]
    exact ⟨'"', _, rfl, by decide⟩
  obtain ⟨hkeys, hrest⟩ := intercalate_inj (by decide) ht ht' hapart' hopens h
  exact ⟨List.map_injective_iff.mpr (fun _ _ => String.toList_inj.mp) hkeys, hrest⟩

end

/-- Keys of values with plain texts are told apart whatever follows them. -/
theorem apart_setKey (v : Value) : ∀ w : Value, v.hasPlainTexts = true → w.hasPlainTexts = true →
    Apart v.setKey.toList w.setKey.toList := by
  induction v using inner_induction with
  | h v ih =>
    intro w hv hw t t' ht ht' h
    have hinner {child other : Value} (hchild : child ∈ v.inner) (hother : other ∈ w.inner) :
        Apart child.setKey.toList other.setKey.toList :=
      ih child hchild other ((everywhere_iff.mp hv).2 child hchild)
        ((everywhere_iff.mp hw).2 other hother)
    cases sameKind_of_append h with
    | array as bs =>
      have hboth : as.map setKey = bs.map setKey ∧ t = t' :=
        setKey_array_inj ht ht' (fun a ha b hb => hinner ha hb) h
      exact ⟨by rw [setKey, setKey, setKeys_eq, setKeys_eq, hboth.1], hboth.2⟩
    | object as bs =>
      have hboth : sortTexts (as.map memberKey) = sortTexts (bs.map memberKey) ∧ t = t' :=
        setKey_object_inj ht ht' (fun a ha b hb =>
          hinner (List.mem_map_of_mem ha) (List.mem_map_of_mem hb)) h
      exact ⟨by rw [setKey, setKey, memberKeys_eq, memberKeys_eq, hboth.1], hboth.2⟩
    | _ =>
      refine (unmistakable_setKey hv ?_ ?_).append_inj (unmistakable_setKey hw ?_ ?_) ht ht' h <;>
        exact fun _ heq => absurd heq (by simp)

/-- Arrays of items with the same keys are the same if the items are. -/
theorem sameItems_of_keys {as bs : List Value} (hkeys : as.map setKey = bs.map setKey)
    (hsame : ∀ a ∈ as, ∀ b ∈ bs, a.setKey = b.setKey → a.same b = true) :
    sameItems as bs = true := by
  induction as generalizing bs with
  | nil =>
    rw [List.map_eq_nil_iff.mp hkeys.symm]
    rfl
  | cons a as ih =>
    cases bs with
    | nil => exact nomatch hkeys
    | cons b bs =>
      obtain ⟨hkey, hrest⟩ := List.cons.inj hkeys
      rw [sameItems, hsame a (List.mem_cons_self ..) b (List.mem_cons_self ..) hkey, Bool.true_and]
      exact ih hrest fun a ha b hb =>
        hsame a (List.mem_cons_of_mem _ ha) b (List.mem_cons_of_mem _ hb)

/-- Arrays are the same if their items are, one by one. -/
theorem sameItems_of_forall₂ {as bs : List Value}
    (h : List.Forall₂ (fun a b => a.same b = true) as bs) : sameItems as bs = true := by
  induction h with
  | nil => rfl
  | cons hfirst _ ih => rw [sameItems, hfirst, ih, Bool.and_self]

/-- Members with the same values on the other side. -/
theorem sameMembers_of_get? {as bs : List (String × Value)}
    (h : ∀ a ∈ as, ∃ b, Members.get? bs a.1 = some b ∧ a.2.same b = true) :
    sameMembers as bs = true := by
  induction as with
  | nil => rfl
  | cons a as ih =>
    obtain ⟨b, hget, hsame⟩ := h a (List.mem_cons_self ..)
    rw [sameMembers, hget]
    dsimp only
    rw [hsame, Bool.true_and]
    exact ih fun a ha => h a (List.mem_cons_of_mem _ ha)

/-- Members whose texts are found on the other side are the same if the values of one key are. -/
theorem sameMembers_of_keys {as bs : List (String × Value)} (hnames : Members.Distinct bs)
    (hfound : ∀ a ∈ as, memberKey a ∈ bs.map memberKey)
    (hsame : ∀ a ∈ as, ∀ b ∈ bs, a.2.setKey = b.2.setKey → a.2.same b.2 = true) :
    sameMembers as bs = true := by
  refine sameMembers_of_get? fun a ha => ?_
  obtain ⟨b, hb, hkey⟩ := List.mem_map.mp (hfound a ha)
  have happend : (memberKey b).toList ++ [] = (memberKey a).toList ++ [] := by rw [hkey]
  obtain ⟨hname, hvalue⟩ := memberKey_inj happend
  rw [List.append_nil, List.append_nil, String.toList_inj] at hvalue
  exact ⟨b.2, hnames.get?_of_mem (hname ▸ hb), hsame a ha b hb hvalue.symm⟩

/-- Values of one key are the same. -/
theorem same_of_plain (v : Value) : ∀ w : Value, v.hasPlainTexts = true → w.hasPlainTexts = true →
    w.hasDistinctNames = true → v.setKey = w.setKey → v.same w = true := by
  induction v using inner_induction with
  | h v ih =>
    intro w hv hw hnames h
    have hinner {child other : Value} (hchild : child ∈ v.inner) (hother : other ∈ w.inner)
        (hkey : child.setKey = other.setKey) : child.same other = true :=
      ih child hchild other ((everywhere_iff.mp hv).2 child hchild)
        ((everywhere_iff.mp hw).2 other hother) ((everywhere_iff.mp hnames).2 other hother) hkey
    have hapart {child other : Value} (hchild : child ∈ v.inner) (hother : other ∈ w.inner) :
        Apart child.setKey.toList other.setKey.toList :=
      apart_setKey child other ((everywhere_iff.mp hv).2 child hchild)
        ((everywhere_iff.mp hw).2 other hother)
    have happend : v.setKey.toList ++ [] = w.setKey.toList ++ [] := by rw [h]
    -- what follows is empty on both sides
    cases sameKind_of_append happend with
    | undefined => rfl
    | null => rfl
    | bool a b =>
      revert h
      cases a <;> cases b <;> decide
    | number n m => exact Number.same_of_key ((String.append_right_inj _).mp h)
    | string s t =>
      have hsame : s = t := (String.append_right_inj _).mp h
      rw [same, hsame, beq_self_eq_true]
    | date t u =>
      have hsame : t.millis = u.millis := toString_int_inj ((String.append_right_inj _).mp h)
      rw [same, hsame, beq_self_eq_true]
    | binary as bs =>
      have hsame : as = bs := Bytes.toHex_inj ((String.append_right_inj _).mp h)
      rw [same, hsame, beq_self_eq_true]
    | array as bs =>
      have hkeys : as.map setKey = bs.map setKey :=
        (setKey_array_inj .nil .nil (fun a ha b hb => hapart ha hb) happend).1
      rw [same]
      exact sameItems_of_keys hkeys fun a ha b hb => hinner ha hb
    | object as bs =>
      have hkeys : sortTexts (as.map memberKey) = sortTexts (bs.map memberKey) :=
        (setKey_object_inj .nil .nil (fun a ha b hb =>
          hapart (List.mem_map_of_mem ha) (List.mem_map_of_mem hb)) happend).1
      -- sorting only arranges the texts, so the members match one by one
      have hsort (texts : List String) : (sortTexts texts).Perm texts := List.mergeSort_perm _ _
      have hperm : (as.map memberKey).Perm (bs.map memberKey) :=
        (hsort _).symm.trans (hkeys ▸ hsort _)
      have hlength : as.length = bs.length := by
        have h := hperm.length_eq
        rwa [List.length_map, List.length_map] at h
      have honce : (Members.keys bs).Nodup := of_decide_eq_true (everywhere_iff.mp hnames).1
      rw [same, hlength, beq_self_eq_true, Bool.true_and]
      exact sameMembers_of_keys honce
        (fun a ha => hperm.subset (List.mem_map_of_mem ha)) fun a ha b hb =>
        hinner (List.mem_map_of_mem ha) (List.mem_map_of_mem hb)

/-- Values of one key are the same, texts by themselves included. -/
theorem same_of_setKey {v w : Value} (hv : v.isTold = true) (hw : w.isTold = true)
    (hnames : w.hasDistinctNames = true) (h : v.setKey = w.setKey) : v.same w = true := by
  have happend : v.setKey.toList ++ [] = w.setKey.toList ++ [] := by rw [h]
  cases sameKind_of_append happend with
  | string s t =>
    have hsame : s = t := (String.append_right_inj _).mp h
    rw [same, hsame, beq_self_eq_true]
  | _ => exact same_of_plain _ _ hv hw hnames h

-- a comma inside a text passes for one between items, and a bracket at its end for one that closes
example : (array [.string "a", .string "b"]).setKey = (array [.string "a,s:b"]).setKey ∧
    (array [.string "a", .string "b"]).same (.array [.string "a,s:b"]) = false := by decide

example : (array [.array [.string "x"], .string "y]"]).setKey =
    (array [.array [.string "x]", .string "y"]]).setKey := by decide

end Value

namespace ValueSet

variable {s : ValueSet}

/-- The set holds literals only, and their keys can be told. -/
def Told (s : ValueSet) : Prop := ∀ item ∈ s.items, ∃ m : Value, item = .literal m ∧ m.isTold = true

/-- Without references a look-up is by key. -/
theorem get?_of_literals (hs : s.Canonical) (htold : s.Told) (v : Value) (scope : Scope) :
    s.get? v scope false = s.literalAt? v := by
  have hnone : ¬ s.hasReferences = true := by
    rw [hs.sound.hasReferences_iff]
    rintro ⟨item, hitem, hreference⟩
    obtain ⟨m, rfl, -⟩ := htold item hitem
    exact nomatch hreference
  unfold get?
  rw [if_neg hnone]
  cases s.literalAt? v <;> rfl

/-- What stands under the key of a value is the same. -/
theorem same_of_entry (hs : s.Canonical) (htold : s.Told) {v : Value} (hv : v.isTold = true)
    (hnames : v.hasDistinctNames = true) {item : SetItem} (h : (v.setKey, item) ∈ s.members) :
    ∃ m : Value, item = .literal m ∧ m.same v = true := by
  obtain ⟨m, hm, hmtold⟩ := htold item (List.mem_map_of_mem h)
  have hkey : v.setKey = item.key := hs.keyed _ h
  rw [hm] at hkey
  exact ⟨m, hm, Value.same_of_setKey hmtold hv hnames hkey.symm⟩

/-- What is found for a value is the same as the value. -/
theorem same_of_get? (hs : s.Canonical) (htold : s.Told) {v m : Value} (hv : v.isTold = true)
    (hnames : v.hasDistinctNames = true) {scope : Scope} (h : s.get? v scope false = some m) :
    m.same v = true := by
  rw [get?_of_literals hs htold] at h
  unfold literalAt? at h
  split at h
  next found hget =>
    obtain ⟨m', hm', hsame⟩ := same_of_entry hs htold hv hnames (Members.mem_of_get? hget)
    obtain rfl : found = m := Option.some.inj h
    obtain rfl : found = m' := SetItem.literal.inj hm'
    exact hsame
  next => exact nomatch h

/-- What goes when a value is removed is the same as the value. -/
theorem same_of_remove (hs : s.Canonical) (htold : s.Told) {v : Value} (hv : v.isTold = true)
    (hnames : v.hasDistinctNames = true) {key : String} {item : SetItem}
    (h : (key, item) ∈ s.members) (hgone : (key, item) ∉ (s.remove (.literal v)).members) :
    ∃ m : Value, item = .literal m ∧ m.same v = true := by
  have hkey : key = v.setKey := by
    by_contra hne
    refine hgone ?_
    unfold remove
    split
    · exact List.mem_filter.mpr ⟨h, bne_iff_ne.mpr hne⟩
    · exact h
  exact same_of_entry hs htold hv hnames (hkey ▸ h)

end ValueSet

namespace ArrayForm

/-- A repetition is one of keys, at two places. -/
theorem duplicate?_spec {path : Option (List String)} {ignoreUndefined : Bool}
    {seen : List (String × Nat)}
    {i : Nat} {before members : List Value} (hplace : i = before.length)
    (hseen : ∀ key place, seen.lookup key = some place →
      ∃ m, before[place]? = some m ∧ (compared path m).setKey = key) {first second : Nat}
    (h : duplicate? path ignoreUndefined seen i members = some (first, second)) :
    first < second ∧ ∃ a b, (before ++ members)[first]? = some a ∧
    (before ++ members)[second]? = some b ∧
      (compared path a).setKey = (compared path b).setKey := by
  induction members generalizing seen i before with
  | nil => exact nomatch h
  | cons member rest ih =>
    have hmore : before ++ member :: rest = (before ++ [member]) ++ rest := by simp
    have hlength : i + 1 = (before ++ [member]).length := by simp [hplace]
    -- what was seen stays in front when one more is passed
    have hkept : ∀ key place, seen.lookup key = some place →
        ∃ m, (before ++ [member])[place]? = some m ∧ (compared path m).setKey = key := by
      intro key place hlookup
      obtain ⟨m, hm, hkey⟩ := hseen key place hlookup
      have hlt : place < before.length := (List.getElem?_eq_some_iff.mp hm).1
      exact ⟨m, by rw [List.getElem?_append_left hlt, hm], hkey⟩
    have hhere : (before ++ [member])[i]? = some member := by
      rw [hplace, List.getElem?_append_right (Nat.le_refl _), Nat.sub_self]
      rfl
    unfold duplicate? at h
    dsimp only at h
    split at h
    · rw [hmore]
      exact ih hlength hkept h
    · split at h
      -- the member repeats the one that was seen
      next place hlookup =>
        obtain ⟨rfl, rfl⟩ := Prod.mk.inj (Option.some.inj h)
        obtain ⟨m, hm, hkey⟩ := hseen _ _ hlookup
        have hlt : place < before.length := (List.getElem?_eq_some_iff.mp hm).1
        refine ⟨by omega, m, member, ?_, ?_, hkey⟩
        · rw [List.getElem?_append_left hlt, hm]
        · rw [hmore, List.getElem?_append_left (by simp [hplace]), hhere]
      -- the member is seen from now on, under its own key
      next hlookup =>
        rw [hmore]
        refine ih hlength ?_ h
        intro key place hfound
        rw [List.lookup_cons] at hfound
        split at hfound
        next heq =>
          obtain rfl : i = place := Option.some.inj hfound
          exact ⟨member, hhere, (beq_iff_eq.mp heq).symm⟩
        next => exact hkept key place hfound

/-- The path along which members are compared. -/
def comparator (given : Given) : Option (List String) :=
    (given.text? "comparator").map (Text.splitOn '.')

/-- The report of the rule names two places whose members are the same where they are compared. -/
theorem uniqueRule_error {site : Site} {given : Given} {members : List Value} {report : Report}
    (htold : ∀ m ∈ members, (compared (comparator given) m).isTold = true ∧
      (compared (comparator given) m).hasDistinctNames = true)
    (h : uniqueRule site given (.array members) = .error report) :
    ∃ i j a b, i < j ∧ members[i]? = some a ∧ members[j]? = some b ∧
      (compared (comparator given) a).same (compared (comparator given) b) = true ∧
      report = reportAt site.schema
        (site.position.nest (.index j) (.array members)) "array.unique" b
        ([("pos", .ofNat j), ("dupePos", .ofNat i), ("dupeValue", a)] ++
          ((given.text? "comparator").map fun path => ("path", Value.string path)).toList) := by
  unfold uniqueRule at h
  dsimp only at h
  split at h
  next => exact nomatch h
  next first second hduplicate =>
    have hnone : ∀ key place, ([] : List (String × Nat)).lookup key = some place →
        ∃ m, ([] : List Value)[place]? = some m ∧ (compared (comparator given) m).setKey = key :=
      fun _ _ hlookup => nomatch hlookup
    obtain ⟨hlt, a, b, ha, hb, hkey⟩ := duplicate?_spec (Eq.refl 0) hnone hduplicate
    rw [List.nil_append] at ha hb
    have hsame := Value.same_of_setKey (htold a (List.mem_of_getElem? ha)).1
      (htold b (List.mem_of_getElem? hb)).1 (htold b (List.mem_of_getElem? hb)).2 hkey
    refine ⟨first, second, a, b, hlt, ha, hb, hsame, ?_⟩
    rw [← Except.error.inj h, List.getD_eq_getElem?_getD, List.getD_eq_getElem?_getD, ha, hb]
    rfl

end ArrayForm

/-- Where the texts inside values hold no comma and do not end in a closing bracket, values of one
key are the same. Sets of literals then find and remove only what is the same, and the rule of
distinct members reports only members that are. -/
theorem Value.keys_tell_apart (v w : Value) (s : ValueSet) (site : Site) (given : Given)
    (members : List Value) (hv : v.isTold = true) (hw : w.isTold = true)
    (hnames : w.hasDistinctNames = true) (hs : s.Canonical) (htold : s.Told)
    (hmembers : ∀ m ∈ members, (ArrayForm.compared (ArrayForm.comparator given) m).isTold = true ∧
      (ArrayForm.compared (ArrayForm.comparator given) m).hasDistinctNames = true) :
    (v.setKey = w.setKey → v.same w = true) ∧
    (∀ scope m, s.get? w scope false = some m → m.same w = true) ∧
    (∀ key item, (key, item) ∈ s.members → (key, item) ∉ (s.remove (.literal w)).members →
      ∃ m : Value, item = .literal m ∧ m.same w = true) ∧
    ∀ report, ArrayForm.uniqueRule site given (.array members) = .error report →
      ∃ i j a b, i < j ∧ members[i]? = some a ∧ members[j]? = some b ∧
        (ArrayForm.compared (ArrayForm.comparator given) a).same
          (ArrayForm.compared (ArrayForm.comparator given) b) = true ∧
        report = reportAt site.schema
          (site.position.nest (.index j) (.array members)) "array.unique" b
          ([("pos", .ofNat j), ("dupePos", .ofNat i), ("dupeValue", a)] ++
            ((given.text? "comparator").map fun path => ("path", Value.string path)).toList) :=
  ⟨same_of_setKey hv hw hnames,
    fun _ _ hget => ValueSet.same_of_get? hs htold hw hnames hget,
    fun _ _ hin hgone => ValueSet.same_of_remove hs htold hw hnames hin hgone,
    fun _ herror => ArrayForm.uniqueRule_error hmembers herror⟩

/-- A pair of a zero, positive or negative, and a text. -/
def signedPair (negative : Bool) : Value :=
  .array [.number (if negative then ⟨0x8000000000000000⟩ else ⟨0⟩), .string "x"]

/-- The pair is found and removed whatever the sign of its zero, and repeats
itself along the path `k`. -/
theorem Value.keys_tell_apart_zeros :
    let s := ValueSet.empty.add (.literal (signedPair false))
    let site : Site := ⟨{}, default, .root, {}, .null⟩
    let given : Given := ⟨[("comparator", .string "k")], []⟩
    let members : List Value :=
    [.object [("k", signedPair false)], .object [("k", signedPair true)]]
    (signedPair false).same (signedPair true) = true ∧
      (∃ m, s.get? (signedPair true) site.scope false = some m ∧ m.same (signedPair true) = true) ∧
      (s.remove (.literal (signedPair true))).members = [] ∧
      (∃ m, SetItem.literal (signedPair false) = .literal m ∧ m.same (signedPair true) = true) ∧
      ∃ report, ArrayForm.uniqueRule site given (.array members) = .error report ∧
        ∃ (i j : Nat) (a b : Value), i < j ∧ members[i]? = some a ∧ members[j]? = some b ∧
          (ArrayForm.compared (some ["k"]) a).same (ArrayForm.compared (some ["k"]) b) = true := by
  intro s site given members
  have hcanonical : s.Canonical :=
    ValueSet.canonical_empty.add fun r hr => absurd hr (Option.not_mem_none r)
  have htold : s.Told := by
    intro item hitem
    obtain rfl : item = .literal (signedPair false) := List.mem_singleton.mp hitem
    exact ⟨_, rfl, by decide⟩
  have hkey : (signedPair false).setKey = (signedPair true).setKey := by decide
  have hfound : s.get? (signedPair true) site.scope false = some (signedPair false) := by
    rw [ValueSet.get?_of_literals hcanonical htold, ValueSet.literalAt?, ← hkey]
    have hmembers : s.members = [((signedPair false).setKey, SetItem.literal (signedPair false))] :=
      rfl
    rw [hmembers, Members.get?_cons, if_pos rfl]
  have hgone : (s.remove (.literal (signedPair true))).members = [] := by
    decide
  have hpath : ArrayForm.comparator given = some ["k"] := by
    decide
  have hduplicate : ArrayForm.duplicate? (ArrayForm.comparator given)
      (given.isTrue "ignoreUndefined") [] 0 members = some (0, 1) := by
    rw [hpath]
    decide
  obtain ⟨report, hreport⟩ : ∃ report,
      ArrayForm.uniqueRule site given (.array members) = .error report := by
    unfold ArrayForm.uniqueRule
    dsimp only
    rw [show (given.text? "comparator").map (Text.splitOn '.') =
      ArrayForm.comparator given from rfl, hduplicate]
    exact ⟨_, rfl⟩
  have htolds : ∀ m ∈ members, (ArrayForm.compared (ArrayForm.comparator given) m).isTold = true ∧
      (ArrayForm.compared (ArrayForm.comparator given) m).hasDistinctNames = true := by
    rw [hpath]
    decide
  obtain ⟨hsame, hget, hremove, hunique⟩ :=
    Value.keys_tell_apart (signedPair false) (signedPair true) s site
    given members (by decide) (by decide) (by decide) hcanonical htold htolds
  have hmember : ((signedPair false).setKey, SetItem.literal (signedPair false)) ∈ s.members :=
    List.mem_singleton_self _
  have hgone' : ((signedPair false).setKey, SetItem.literal (signedPair false)) ∉
      (s.remove (.literal (signedPair true))).members := by
    rw [hgone]
    exact List.not_mem_nil
  obtain ⟨i, j, a, b, hlt, ha, hb, hcompared, -⟩ := hunique report hreport
  rw [hpath] at hcompared
  exact ⟨hsame hkey, ⟨_, hfound, hget site.scope _ hfound⟩, hgone, hremove _ _ hmember hgone',
    report, hreport, i, j, a, b, hlt, ha, hb, hcompared⟩

end Conform
