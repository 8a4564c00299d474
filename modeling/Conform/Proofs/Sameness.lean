import Conform.Proofs.SetHistories
import Conform.Proofs.SetKeys

/-!
# The equality of sets

`Value.same` is an equivalence of values whose objects name each member once: scalars are compared
by what they stand for, arrays item by item (`sameItems_iff`), and objects by what each name leads
to (`sameMembers_iff`). The last is one-sided; as both sides have as many names, and each once,
nothing is left over on the other (`keys_perm`).

Values that are the same have one key (`setKey_congr`). The texts of the members of two such objects
come in two orders of one list, and sorting brings both to one order. So what looks values up by key
misses none that is the same, in a set and in the rule of distinct members alike.

Reflexivity, symmetry and transitivity are inductions on values, each with a case for every kind.
For scalars they come from the equality of what is compared; for numbers from their ranks, in which
both zeros have one place and all that is no number has none (`Number.rank?`). In objects the
members are matched by names, and as names are distinct the match is a bijection. Symmetry needs
that, and so does the equality of keys; transitivity does not.

For the search for repetitions the converse is needed in one direction only: two members that are
the same have one key, so the second of them is found where keys are remembered. Keys do not tell
all values apart, which is a matter of the texts inside and is dealt with elsewhere.

Main statement: `Value.same_congruence`.
-/

namespace Conform

/-! ### Numbers -/

namespace Number

/-- What numbers are compared by: their place, and for "not a number" none. -/
def rank? (n : Number) : Option Int := if n.isNaN then none else some n.place

theorem same_iff_rank? {n m : Number} :
    ((n.isNaN && m.isNaN) || n.eq m) = true ↔ n.rank? = m.rank? := by
  unfold eq rank?
  cases n.isNaN <;> cases m.isNaN <;> simp

theorem isZero_iff_place {n : Number} : n.isZero = true ↔ n.place = 0 := by
  unfold isZero place
  rw [decide_eq_true_iff]
  split <;> omega

/-- Of one place are the zeros, and else only one double. -/
theorem eq_of_place {n m : Number} (h : n.place = m.place) (hzero : n.isZero = false) : n = m := by
  have hn : n.magnitude ≠ 0 := of_decide_eq_false hzero
  unfold place at h
  cases hsign : n.isNegative <;> cases hsign' : m.isNegative <;>
    simp only [hsign, hsign', Bool.false_eq_true, if_true, if_false] at h
  case false.false | true.true => exact eq_of_magnitude (hsign.trans hsign'.symm) (by omega)
  all_goals omega

/-- Numbers of one rank have one key. -/
theorem numberKey_congr {n m : Number} (h : n.rank? = m.rank?) :
    Value.numberKey n = Value.numberKey m := by
  unfold rank? at h
  cases hn : n.isNaN with
  | true =>
    have hm : m.isNaN = true := by
      by_contra hm
      rw [if_pos hn, if_neg hm] at h
      exact nomatch h
    unfold Value.numberKey
    rw [if_pos hn, if_pos hm]
  | false =>
    have hm : m.isNaN = false := by
      by_contra hm
      rw [if_neg (by simp [hn]), if_pos (by simpa using hm)] at h
      exact nomatch h
    rw [hn, hm] at h
    have hplace : n.place = m.place := Option.some.inj h
    cases hzero : n.isZero with
    | true =>
      have hzero' : m.isZero = true := isZero_iff_place.mpr (hplace ▸ isZero_iff_place.mp hzero)
      unfold Value.numberKey
      rw [hn, hm, hzero, hzero']
      rfl
    | false => rw [eq_of_place hplace hzero]

end Number

namespace Value

/-! ### Items and members -/

theorem sameKind_of_same {v w : Value} (h : v.same w = true) : SameKind v w := by
  cases v <;> cases w <;> first | constructor | exact absurd h (by simp [same])

theorem sameItems_iff {as bs : List Value} :
    sameItems as bs = true ↔ List.Forall₂ (fun a b => a.same b = true) as bs := by
  refine ⟨fun h => ?_, sameItems_of_forall₂⟩
  induction as generalizing bs with
  | nil =>
    cases bs with
    | nil => exact .nil
    | cons => exact nomatch h
  | cons a as ih =>
    cases bs with
    | nil => exact nomatch h
    | cons b bs =>
      rw [sameItems, Bool.and_eq_true] at h
      exact .cons h.1 (ih h.2)

theorem sameMembers_iff {as bs : List (String × Value)} :
    sameMembers as bs = true ↔ ∀ a ∈ as, ∃ b, Members.get? bs a.1 = some b ∧ a.2.same b = true := by
  refine ⟨fun h => ?_, sameMembers_of_get?⟩
  induction as with
  | nil => exact fun a ha => absurd ha List.not_mem_nil
  | cons first as ih =>
    rw [sameMembers, Bool.and_eq_true] at h
    rw [List.forall_mem_cons]
    refine ⟨?_, ih h.2⟩
    cases hget : Members.get? bs first.1 with
    | none =>
      rw [hget] at h
      exact absurd h.1 Bool.false_ne_true
    | some b =>
      rw [hget] at h
      exact ⟨b, rfl, h.1⟩

theorem same_object_iff {as bs : List (String × Value)} :
    (object as).same (object bs) = true ↔
      as.length = bs.length ∧ ∀ a ∈ as, ∃ b, Members.get? bs a.1 = some b ∧ a.2.same b = true := by
  rw [same, Bool.and_eq_true, beq_iff_eq, sameMembers_iff]

/-- Objects that are the same have the same names. -/
theorem keys_perm {as bs : List (String × Value)} (hdistinct : Members.Distinct as)
    (h : (object as).same (object bs) = true) : (Members.keys as).Perm (Members.keys bs) := by
  obtain ⟨hlength, hfound⟩ := same_object_iff.mp h
  have hsubset : Members.keys as ⊆ Members.keys bs := by
    intro name hname
    obtain ⟨a, ha, rfl⟩ := List.mem_map.mp hname
    obtain ⟨b, hget, -⟩ := hfound a ha
    exact List.mem_map.mpr ⟨(a.1, b), Members.mem_of_get? hget, rfl⟩
  refine (hdistinct.subperm hsubset).perm_of_length_le ?_
  unfold Members.keys
  rw [List.length_map, List.length_map, hlength]

theorem distinct_of_hasDistinctNames {members : List (String × Value)}
    (h : (object members).hasDistinctNames = true) : Members.Distinct members := by
  have honce : (Members.keys members).Nodup := of_decide_eq_true (everywhere_iff.mp h).1
  exact honce

theorem mem_inner_array {items : List Value} {item : Value} (h : item ∈ items) :
    item ∈ (array items).inner := h

theorem mem_inner_object {members : List (String × Value)} {member : String × Value}
    (h : member ∈ members) : member.2 ∈ (object members).inner :=
  List.mem_map_of_mem h

theorem hasDistinctNames_inner {v child : Value} (h : v.hasDistinctNames = true)
    (hchild : child ∈ v.inner) : child.hasDistinctNames = true :=
  (everywhere_iff.mp h).2 child hchild

/-! ### An equivalence -/

theorem same_refl (v : Value) : v.hasDistinctNames = true → v.same v = true := by
  induction v using inner_induction with
  | h v ih =>
    intro hv
    have hinner {child : Value} (hchild : child ∈ v.inner) : child.same child = true :=
      ih child hchild (hasDistinctNames_inner hv hchild)
    cases v with
    | number n => exact Number.same_iff_rank?.mpr rfl
    | array items =>
      refine sameItems_iff.mpr (List.forall₂_same.mpr fun item hitem => ?_)
      exact hinner (mem_inner_array hitem)
    | object members =>
      refine same_object_iff.mpr ⟨rfl, fun member hmember => ⟨member.2, ?_, ?_⟩⟩
      · exact (distinct_of_hasDistinctNames hv).get?_of_mem hmember
      · exact hinner (mem_inner_object hmember)
    | _ => simp [same]

theorem same_symm (v : Value) : ∀ w : Value, v.hasDistinctNames = true → w.hasDistinctNames = true →
    v.same w = true → w.same v = true := by
  induction v using inner_induction with
  | h v ih =>
    intro w hv hw h
    have hinner {child other : Value} (hchild : child ∈ v.inner) (hother : other ∈ w.inner)
        (hsame : child.same other = true) : other.same child = true :=
      ih child hchild other (hasDistinctNames_inner hv hchild)
        (hasDistinctNames_inner hw hother) hsame
    cases sameKind_of_same h with
    | number n m => exact Number.same_iff_rank?.mpr (Number.same_iff_rank?.mp h).symm
    | array as bs =>
      have hitems : List.Forall₂ (fun a b => a.same b = true) as bs := sameItems_iff.mp h
      refine sameItems_iff.mpr
        (List.forall₂_iff_get.mpr ⟨hitems.length_eq.symm, fun i hi hi' => ?_⟩)
      exact hinner (mem_inner_array (List.get_mem ..)) (mem_inner_array (List.get_mem ..))
        ((List.forall₂_iff_get.mp hitems).2 i hi' hi)
    | object as bs =>
      have has := distinct_of_hasDistinctNames hv
      have hbs := distinct_of_hasDistinctNames hw
      obtain ⟨hlength, hfound⟩ := same_object_iff.mp h
      refine same_object_iff.mpr ⟨hlength.symm, fun b hb => ?_⟩
      -- the name stands on the left too, and leads back to this very member
      have hname : b.1 ∈ Members.keys as := (keys_perm has h).symm.subset (List.mem_map_of_mem hb)
      obtain ⟨a, ha, hsame⟩ := List.mem_map.mp hname
      obtain ⟨b', hget, hvalue⟩ := hfound a ha
      rw [hsame, hbs.get?_of_mem hb] at hget
      obtain rfl : b.2 = b' := Option.some.inj hget
      refine ⟨a.2, ?_, ?_⟩
      · rw [← hsame]
        exact has.get?_of_mem ha
      · exact hinner (mem_inner_object ha) (mem_inner_object hb) hvalue
    | undefined | null => rfl
    | bool | string | date | binary =>
      simp only [same, beq_iff_eq] at h ⊢
      exact h.symm

theorem same_trans (u : Value) :
    ∀ v w : Value, u.same v = true → v.same w = true → u.same w = true := by
  induction u using inner_induction with
  | h u ih =>
    intro v w huv hvw
    -- values that are the same are of one kind
    cases sameKind_of_same huv with
    | number n m =>
      cases sameKind_of_same hvw with
      | number _ k =>
        exact Number.same_iff_rank?.mpr
          ((Number.same_iff_rank?.mp huv).trans (Number.same_iff_rank?.mp hvw))
    | array as bs =>
      cases sameKind_of_same hvw with
      | array _ cs =>
        have hleft : List.Forall₂ (fun a b => a.same b = true) as bs := sameItems_iff.mp huv
        have hright : List.Forall₂ (fun b c => b.same c = true) bs cs := sameItems_iff.mp hvw
        refine sameItems_iff.mpr
          (List.forall₂_iff_get.mpr ⟨hleft.length_eq.trans hright.length_eq, ?_⟩)
        intro i hi hi'
        -- a member in the middle joins those of both sides
        have hmid : i < bs.length := hleft.length_eq ▸ hi
        exact ih _ (mem_inner_array (List.get_mem as ⟨i, hi⟩)) _ _
          ((List.forall₂_iff_get.mp hleft).2 i hi hmid)
          ((List.forall₂_iff_get.mp hright).2 i hmid hi')
    | object as bs =>
      cases sameKind_of_same hvw with
      | object _ cs =>
        obtain ⟨hlength, hleft⟩ := same_object_iff.mp huv
        obtain ⟨hlength', hright⟩ := same_object_iff.mp hvw
        refine same_object_iff.mpr ⟨hlength.trans hlength', fun a ha => ?_⟩
        obtain ⟨b, hget, hab⟩ := hleft a ha
        obtain ⟨c, hget', hbc⟩ := hright (a.1, b) (Members.mem_of_get? hget)
        exact ⟨c, hget', ih a.2 (mem_inner_object ha) b c hab hbc⟩
    | undefined | null => exact hvw
    | bool | string | date | binary =>
      cases sameKind_of_same hvw
      simp only [same, beq_iff_eq] at huv hvw ⊢
      exact huv.trans hvw

/-! ### One key -/

/-- Sorting forgets the order. -/
theorem sortTexts_congr {texts others : List String} (h : texts.Perm others) :
    sortTexts texts = sortTexts others := by
  have hsorted (texts : List String) : (sortTexts texts).Pairwise (· ≤ ·) := by
    refine (List.pairwise_mergeSort ?_ ?_ texts).imp of_decide_eq_true
    · intro a b c hab hbc
      exact decide_eq_true (String.le_trans (of_decide_eq_true hab) (of_decide_eq_true hbc))
    · intro a b
      simpa using String.le_total a b
  refine List.Perm.eq_of_pairwise
    (fun a b _ _ hab hba => String.le_antisymm hab hba) (hsorted texts)
    (hsorted others) ?_
  exact (List.mergeSort_perm ..).trans (h.trans (List.mergeSort_perm ..).symm)

/-- The texts of members are told apart by the names. -/
theorem nodup_memberKeys {members : List (String × Value)} (h : Members.Distinct members) :
    (members.map memberKey).Nodup := by
  refine List.pairwise_map.mpr ((List.pairwise_map.mp h).imp fun {a b} hne heq => hne ?_)
  have happend : (memberKey a).toList ++ [] = (memberKey b).toList ++ [] := by rw [heq]
  exact (memberKey_inj happend).1

theorem setKey_congr (v : Value) :
    ∀ w : Value, v.hasDistinctNames = true → w.hasDistinctNames = true →
    v.same w = true → v.setKey = w.setKey := by
  induction v using inner_induction with
  | h v ih =>
    intro w hv hw h
    have hinner {child other : Value} (hchild : child ∈ v.inner) (hother : other ∈ w.inner)
        (hsame : child.same other = true) : child.setKey = other.setKey :=
      ih child hchild other (hasDistinctNames_inner hv hchild)
        (hasDistinctNames_inner hw hother) hsame
    cases sameKind_of_same h with
    | number n m => rw [setKey, setKey, Number.numberKey_congr (Number.same_iff_rank?.mp h)]
    | date t u =>
      have hmillis : t.millis = u.millis := by simpa [same] using h
      rw [setKey, setKey, hmillis]
    | array as bs =>
      have hitems : List.Forall₂ (fun a b => a.same b = true) as bs := sameItems_iff.mp h
      have hkeys : as.map setKey = bs.map setKey := by
        refine List.ext_get (by simpa using hitems.length_eq) fun i hi hi' => ?_
        rw [List.length_map] at hi hi'
        simp only [List.get_eq_getElem, List.getElem_map]
        exact hinner (mem_inner_array (List.getElem_mem hi))
          (mem_inner_array (List.getElem_mem hi')) ((List.forall₂_iff_get.mp hitems).2 i hi hi')
      rw [setKey, setKey, setKeys_eq, setKeys_eq, hkeys]
    | object as bs =>
      obtain ⟨hlength, hfound⟩ := same_object_iff.mp h
      -- the texts on the left are found on the right, and as no two are alike,
      -- they are all there is
      have hsubset : as.map memberKey ⊆ bs.map memberKey := by
        intro text htext
        obtain ⟨a, ha, rfl⟩ := List.mem_map.mp htext
        obtain ⟨b, hget, hsame⟩ := hfound a ha
        have hb : (a.1, b) ∈ bs := Members.mem_of_get? hget
        have hkey : a.2.setKey = b.setKey :=
          hinner (mem_inner_object ha) (mem_inner_object hb) hsame
        have htext : memberKey a = memberKey (a.1, b) := by
          unfold memberKey
          rw [hkey]
        exact htext ▸ List.mem_map_of_mem hb
      have hperm : (as.map memberKey).Perm (bs.map memberKey) :=
        ((nodup_memberKeys (distinct_of_hasDistinctNames hv)).subperm hsubset).perm_of_length_le
          (by simp [hlength])
      rw [setKey, setKey, memberKeys_eq, memberKeys_eq, sortTexts_congr hperm]
    | undefined | null => rfl
    | bool | string | binary =>
      simp only [same, beq_iff_eq] at h
      rw [h]

end Value

/-! ### Look-ups and repetitions -/

namespace ValueSet

variable {s : ValueSet} {u v : Value}

/-- A member of the key of the value is found, given back as it is, and taken away. -/
theorem found_of_setKey (hs : s.Sound) (hin : .literal u ∈ s.items) (hkey : u.setKey = v.setKey) :
    s.containsLiteral v = true ∧ (∀ scope insensitive, s.get? v scope insensitive = some u) ∧
      .literal u ∉ (s.remove (.literal v)).items := by
  have hget : Members.get? s.members v.setKey = some (.literal u) :=
    hkey ▸ (mem_items_iff hs).mp hin
  have hfound : s.literalAt? v = some u := (literalAt?_eq_some hs).mpr ⟨hin, hkey⟩
  refine ⟨?_, fun scope insensitive => ?_, fun hleft => ?_⟩
  · unfold containsLiteral Members.contains
    rw [hget]
    rfl
  · unfold get?
    rw [hfound]
    rfl
  · exact ((mem_items_remove hs).mp hleft).2 hkey

end ValueSet

namespace ArrayForm

/-- Whether a member counts for repetitions. -/
def counts (path : Option (List String)) (ignoreUndefined : Bool) (member : Value) : Bool :=
  !(ignoreUndefined && !(compared path member).isDefined)

/-- Where no repetition is found, members that count have keys of their own,
and none seen before. -/
theorem keys_of_no_duplicate {path : Option (List String)} {ignoreUndefined : Bool}
    {seen : List (String × Nat)}
    {i : Nat} {members : List Value} (h : duplicate? path ignoreUndefined seen i members = none) :
    (∀ m ∈ members, counts path ignoreUndefined m = true →
      seen.lookup (compared path m).setKey = none) ∧
    members.Pairwise fun a b =>
    counts path ignoreUndefined a = true → counts path ignoreUndefined b = true →
      (compared path a).setKey ≠ (compared path b).setKey := by
  induction members generalizing seen i with
  | nil => exact ⟨fun m hm => absurd hm List.not_mem_nil, .nil⟩
  | cons member rest ih =>
    unfold duplicate? at h
    dsimp only at h
    rw [List.forall_mem_cons, List.pairwise_cons]
    split at h
    next hignored =>
      have hnot : counts path ignoreUndefined member ≠ true := by
        unfold counts
        rw [hignored]
        decide
      obtain ⟨hseen, hpairs⟩ := ih h
      exact ⟨⟨fun hcounts => absurd hcounts hnot, hseen⟩,
        fun _ _ hcounts => absurd hcounts hnot, hpairs⟩
    next =>
      split at h
      next => exact nomatch h
      -- a member not seen before is seen by all that follow
      next hlookup =>
        obtain ⟨hseen, hpairs⟩ := ih h
        have hfresh {m : Value} (hm : m ∈ rest) (hcounts : counts path ignoreUndefined m = true) :
            (compared path member).setKey ≠ (compared path m).setKey ∧
              seen.lookup (compared path m).setKey = none := by
          have hnone := hseen m hm hcounts
          rw [List.lookup_cons] at hnone
          split at hnone
          next => exact nomatch hnone
          next hne => exact ⟨fun heq => beq_eq_false_iff_ne.mp hne heq.symm, hnone⟩
        exact ⟨⟨fun _ => hlookup, fun m hm hcounts => (hfresh hm hcounts).2⟩,
          fun m hm _ hcounts => (hfresh hm hcounts).1, hpairs⟩

/-- Two members of one key that count are reported. -/
theorem uniqueRule_of_setKey {site : Site} {given : Given} {members : List Value}
    {i j : Nat} {a b : Value} (hij : i < j) (ha : members[i]? = some a) (hb : members[j]? = some b)
    (hcounts : ∀ m ∈ [a, b], counts (comparator given) (given.isTrue "ignoreUndefined") m = true)
    (hkey : (compared (comparator given) a).setKey = (compared (comparator given) b).setKey) :
    ∃ report, uniqueRule site given (.array members) = .error report ∧
      report.code = "array.unique" := by
  unfold uniqueRule
  dsimp only
  split
  next hnone =>
    have hpairs := (keys_of_no_duplicate hnone).2
    obtain ⟨hi, rfl⟩ := List.getElem?_eq_some_iff.mp ha
    obtain ⟨hj, rfl⟩ := List.getElem?_eq_some_iff.mp hb
    refine absurd hkey (List.pairwise_iff_getElem.mp hpairs i j hi hj hij ?_ ?_)
    · exact hcounts _ (by simp)
    · exact hcounts _ (by simp)
  next => exact ⟨_, rfl, rfl⟩

end ArrayForm

/-- Among values whose objects name each member once, being the same is an equivalence, and
values that are the same have one key. So a set misses no member that is the same as the value
looked up or taken away, and the rule of distinct members misses no two that are the same
where they are compared. -/
theorem Value.same_congruence (u v w : Value) (hu : u.hasDistinctNames = true)
    (hv : v.hasDistinctNames = true) : u.same u = true ∧
    (u.same v = true → v.same u = true) ∧
    (u.same v = true → v.same w = true → u.same w = true) ∧
    (u.same v = true →
      u.setKey = v.setKey ∧
      (∀ s : ValueSet, s.Reached → .literal u ∈ s.items →
        s.containsLiteral v = true ∧ (∀ scope insensitive, s.get? v scope insensitive = some u) ∧
          .literal u ∉ (s.remove (.literal v)).items) ∧
      ∀ (site : Site) (given : Given) (members : List Value) (i j : Nat) (a b : Value),
        i < j → members[i]? = some a → members[j]? = some b →
        ArrayForm.compared (ArrayForm.comparator given) a = u →
        ArrayForm.compared (ArrayForm.comparator given) b = v →
        (given.isTrue "ignoreUndefined" && !u.isDefined) = false →
        ∃ report, ArrayForm.uniqueRule site given (.array members) = .error report ∧
          report.code = "array.unique") := by
  refine ⟨same_refl u hu, same_symm u v hu hv, same_trans u v w, fun hsame => ?_⟩
  -- one key, and whether it is defined, is all that a set or the rule of distinct members sees
  have hkey : u.setKey = v.setKey := setKey_congr u v hu hv hsame
  refine ⟨hkey, fun s hs hin => ValueSet.found_of_setKey hs.sound hin hkey, ?_⟩
  rintro site given members i j a b hij ha hb rfl rfl hcounted
  have hkind := sameKind_of_same hsame
  have hdefined : ∀ {x y : Value}, SameKind x y → x.isDefined = y.isDefined :=
    fun h => by cases h <;> rfl
  refine ArrayForm.uniqueRule_of_setKey hij ha hb ?_ hkey
  unfold ArrayForm.counts
  rw [List.forall_mem_cons, List.forall_mem_singleton, ← hdefined hkind, hcounted]
  exact ⟨rfl, rfl⟩

/-- An object of "not a number", with either sign, and a zero, of either sign, inside an array; with
the sign its members come the other way round. -/
def signedObject (negative : Bool) : Value :=
  if negative then
    .object [("b", .array [.number ⟨0x8000000000000000⟩]), ("a", .number ⟨0xfff8000000000000⟩)]
  else .object [("a", .number ⟨0x7ff8000000000000⟩), ("b", .array [.number ⟨0⟩])]

/-- The object is found under any signs and in any order, and repeats itself. -/
theorem Value.same_congruence_signs :
    let u := signedObject false
    let v := signedObject true
    let s := ValueSet.empty.add (.literal u)
    let site : Site := ⟨{}, default, .root, {}, .null⟩
    v.same u = true ∧ u.setKey = v.setKey ∧ s.containsLiteral v = true ∧
    s.get? v site.scope false = some u ∧ .literal u ∉ (s.remove (.literal v)).items ∧
      ∃ report, ArrayForm.uniqueRule site ⟨[], []⟩ (.array [u, v]) = .error report ∧
        report.code = "array.unique" := by
  intro u v s site
  have hin : .literal u ∈ s.items := List.mem_singleton_self _
  have hcompared (m : Value) : ArrayForm.compared (ArrayForm.comparator ⟨[], []⟩) m = m := rfl
  obtain ⟨-, hsymm, -, hcongr⟩ := Value.same_congruence u v u (by decide) (by decide)
  have hsame : u.same v = true := by decide
  obtain ⟨hkey, hset, hunique⟩ := hcongr hsame
  obtain ⟨hcontains, hget, hgone⟩ := hset s (.add _ .empty) hin
  exact ⟨hsymm hsame, hkey, hcontains, hget _ _, hgone,
    hunique site ⟨[], []⟩ [u, v] 0 1 u v (by decide) rfl rfl (hcompared u) (hcompared v) rfl⟩

end Conform
