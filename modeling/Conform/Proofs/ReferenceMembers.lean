import Conform.Proofs.JsonSource
import Conform.Proofs.KeyTexts
import Conform.Proofs.SetHistories
import Conform.Schema.RuleTable

/-!
# References as members of sets

A reference stands in a set under where it starts and the text it was read from. What else it says
is no part of its key: the separator of its steps, whether it stands for all members of what it
finds, its table and its adjuster. So of two references that differ in nothing else, the second
displaces the first, and taking one away takes the other (`Reference.Displaces`). References that
start elsewhere or are read from another text stay side by side, in whatever order they come.

The key of a reference is put together of a letter, the place where it starts and the text of its
path. Two such keys are equal only if both parts are, because the text of a place holds none of the
mark that separates it from the path (`SetItem.key_reference_inj`). Adding writes under a key, and
what is written twice under one key leaves what was written last, in the place of the first;
removing erases what stands under the key. What is shown of two members holds of members in general;
only the condition on which it depends is about references.

The two sets that come of adding two references in either order are compared by their members. If
the keys differ these are the same in some order; if not, the later one stands alone. What a node
makes of a value is compared as well, since the members of a set are all that it asks of it.

Main statement: `ValueSet.references_displace`.
-/

namespace Conform

/-! ### Keys of references -/

/-- The references start at one place and are read from one text, whatever else they say. -/
def Reference.Displaces (r q : Reference) : Prop := r.target = q.target ∧ r.key = q.key

theorem Target.not_mem_text (t : Target) : ':' ∉ t.text.toList := by
  cases t with
  | ancestor levels =>
    have hdigits : ':' ∉ levels.repr.toList := fun hin => absurd (isDigit_repr hin) (by decide)
    have htext : (Target.ancestor levels).text.toList =
        "Ancestor(".toList ++ levels.repr.toList ++ ")".toList := by
      unfold Target.text
      rw [String.toList_append, String.toList_append]
      rfl
    rw [htext, List.mem_append, List.mem_append]
    rintro ((h | h) | h)
    · exact absurd h (by decide)
    · exact hdigits h
    · exact absurd h (by decide)
  | root => decide
  | context => decide

theorem Target.text_inj {t u : Target} (h : t.text = u.text) : t = u := by
  cases t <;> cases u
  case ancestor.ancestor n m =>
    have hdigits : n.repr = m.repr :=
      (String.append_right_inj _).mp ((String.append_left_inj _).mp h)
    rw [repr_inj hdigits]
  all_goals first
    | rfl
    | exact absurd (congrArg (fun text => text.toList.head?) h)
        (by simp [Target.text, String.toList_append])

theorem SetItem.key_reference_inj {r q : Reference} :
    (SetItem.reference r).key = (SetItem.reference q).key ↔ r.Displaces q := by
  have hlist (r : Reference) :
      (SetItem.reference r).key.toList =
      "ref:".toList ++ (r.target.text.toList ++ ':' :: r.key.toList) := by
    unfold key
    simp [String.toList_append]
  constructor
  · intro h
    have hlists := congrArg String.toList h
    rw [hlist, hlist] at hlists
    obtain ⟨htarget, hkey⟩ := Text.append_stop_inj (Target.not_mem_text _) (Target.not_mem_text _)
      (List.append_cancel_left hlists)
    exact ⟨Target.text_inj (String.toList_inj.mp htarget), String.toList_inj.mp hkey⟩
  · rintro ⟨htarget, hkey⟩
    show "ref:" ++ r.target.text ++ ":" ++ r.key = "ref:" ++ q.target.text ++ ":" ++ q.key
    rw [htarget, hkey]

theorem Members.erase_insert {α : Type} (members : List (String × α)) (key : String) (value : α) :
    erase (insert members key value) key = erase members key := by
  induction members with
  | nil => simp [insert, erase]
  | cons entry rest ih =>
    obtain ⟨k, v⟩ := entry
    unfold insert
    by_cases hk : k = key
    · rw [if_pos hk]
      simp [erase, hk]
    · rw [if_neg hk]
      unfold erase at ih ⊢
      rw [List.filter_cons, List.filter_cons, ih]

theorem Members.erase_comm {α : Type} (members : List (String × α)) (key other : String) :
    erase (erase members key) other = erase (erase members other) key := by
  unfold erase
  rw [List.filter_filter, List.filter_filter]
  exact List.filter_congr fun entry _ => Bool.and_comm ..

namespace ValueSet

variable {s : ValueSet} {item other : SetItem}

/-! ### Members of one key -/

theorem members_remove_eq (s : ValueSet) (item : SetItem) :
    (s.remove item).members = Members.erase s.members item.key := by
  unfold remove
  split
  next => rfl
  next hnone => exact (Members.erase_of_not_mem ((Members.get?_eq_none_iff _ _).mp hnone)).symm

/-- Of two members of one key the first leaves no trace. -/
theorem add_add_of_key (hs : s.Sound) (hkey : other.key = item.key) :
    (s.add other).add item = s.add item := by
  refine ((hs.add other).add item).ext (hs.add item) ?_
  rw [members_add, members_add, members_add, hkey, Members.insert_insert]

/-- Taking a member away takes the one that was put in under its key. -/
theorem remove_add_of_key (hs : s.Sound) (hkey : other.key = item.key) :
    (s.add other).remove item = s.remove item := by
  refine ((hs.add other).remove item).ext (hs.remove item) ?_
  rw [members_remove_eq, members_remove_eq, members_add, hkey, Members.erase_insert]

/-- Members may be taken away in either order. -/
theorem remove_remove_comm (hs : s.Sound) (item other : SetItem) :
    (s.remove item).remove other = (s.remove other).remove item := by
  refine ((hs.remove item).remove other).ext ((hs.remove other).remove item) ?_
  rw [members_remove_eq, members_remove_eq, members_remove_eq,
    members_remove_eq, Members.erase_comm]

/-- Members of two keys may come in either order. -/
theorem mem_add_add_comm (hs : s.Sound) (hkey : other.key ≠ item.key) (any : SetItem) :
    any ∈ ((s.add item).add other).items ↔ any ∈ ((s.add other).add item).items := by
  rw [mem_items_add (hs.add item), mem_items_add hs, mem_items_add (hs.add other), mem_items_add hs]
  constructor
  · rintro (rfl | ⟨rfl | ⟨hin, hitem⟩, hother⟩)
    · exact .inr ⟨.inl rfl, hkey⟩
    · exact .inl rfl
    · exact .inr ⟨.inr ⟨hin, hother⟩, hitem⟩
  · rintro (rfl | ⟨rfl | ⟨hin, hother⟩, hitem⟩)
    · exact .inr ⟨.inl rfl, Ne.symm hkey⟩
    · exact .inl rfl
    · exact .inr ⟨.inr ⟨hin, hitem⟩, hother⟩

/-- Two references, one added after the other. If they start at one place and are read from one
text, the set is as if the first had never been added, and taking the second away takes the first.
If not, both are members; a look-up succeeds whenever one of them stands for a value that matches;
taking one away leaves the other; and it does not matter which comes first, nor to a node that is
told to allow both, or one and then to deny the other. -/
theorem references_displace (s : ValueSet) (hs : s.Reached) (r q : Reference) :
    (r.Displaces q →
      (s.add (.reference r)).add (.reference q) = s.add (.reference q) ∧
      (s.add (.reference r)).remove (.reference q) = s.remove (.reference q)) ∧
    (¬ r.Displaces q →
      let both := (s.add (.reference r)).add (.reference q)
      (.reference r ∈ both.items ∧ .reference q ∈ both.items) ∧
      (.reference r ∈ (both.remove (.reference q)).items ∧
        .reference q ∈ (both.remove (.reference r)).items) ∧
      (∀ value scope insensitive,
        ((∃ candidate ∈ r.resolveAll value scope ++ q.resolveAll value scope,
            matchesValue candidate value insensitive = true) →
          both.has value scope insensitive = true) ∧
        ((∃ candidate ∈ r.resolveAll value scope, matchesValue candidate value insensitive = true) →
          (both.remove (.reference q)).has value scope insensitive = true) ∧
        ((s.add (.reference q)).add (.reference r)).has value scope insensitive =
          both.has value scope insensitive) ∧
      ∀ n : Node Schema, n.allowed = s →
        (∀ value scope insensitive,
          ((n.allow (.reference q)).allow (.reference r)).allowed.has value scope insensitive =
            ((n.allow (.reference r)).allow (.reference q)).allowed.has value scope insensitive) ∧
        (n.denied.Reached →
          ((n.allow (.reference q)).allow (.reference r)).denied =
            ((n.allow (.reference r)).allow (.reference q)).denied) ∧
        .reference r ∈ ((n.allow (.reference r)).deny (.reference q)).allowed.items) := by
  have hsound := hs.sound
  have hr := hsound.add (.reference r)
  have hboth := hr.add (.reference q)
  refine ⟨fun hsame => ?_, fun hapart => ?_⟩
  · have hkey := SetItem.key_reference_inj.mpr hsame
    exact ⟨add_add_of_key hsound hkey, remove_add_of_key hsound hkey⟩
  · -- members of two keys: what is added or removed under one leaves the other where it is
    have hkey : (SetItem.reference r).key ≠ (SetItem.reference q).key :=
      mt SetItem.key_reference_inj.mp hapart
    intro both
    have hfirst : .reference r ∈ both.items :=
      (mem_items_add hr).mpr (.inr ⟨(mem_items_add hsound).mpr (.inl rfl), hkey⟩)
    have hsecond : .reference q ∈ both.items := (mem_items_add hr).mpr (.inl rfl)
    have hleft : .reference r ∈ (both.remove (.reference q)).items :=
      (mem_items_remove hboth).mpr ⟨hfirst, hkey⟩
    have horder (value : Value) (scope : Scope) (insensitive : Bool) :
        ((s.add (.reference q)).add (.reference r)).has value scope insensitive =
          both.has value scope insensitive :=
      has_of_items hboth ((hsound.add _).add _) (mem_add_add_comm hsound hkey)
    refine ⟨⟨hfirst, hsecond⟩, ⟨hleft, (mem_items_remove hboth).mpr ⟨hsecond, hkey.symm⟩⟩, ?_, ?_⟩
    · intro value scope insensitive
      refine ⟨fun ⟨candidate, hin, hmatches⟩ => (has_iff hboth).mpr ?_,
        fun hanswers => ?_, horder ..⟩
      · rcases List.mem_append.mp hin with hin | hin
        · exact ⟨_, hfirst, candidate, hin, hmatches⟩
        · exact ⟨_, hsecond, candidate, hin, hmatches⟩
      · exact (has_iff (hboth.remove _)).mpr ⟨_, hleft, hanswers⟩
    · rintro n rfl
      refine ⟨horder, fun hdenied => remove_remove_comm hdenied.sound _ _, ?_⟩
      exact (mem_items_remove hr).mpr ⟨(mem_items_add hsound).mpr (.inl rfl), hkey⟩

/-- The member `a`, or any of its members. -/
def amongA : Reference := { Reference.ofKey "a" with inValues := true }

/-- `a` displaces what stands for any of its members, and `b` stays beside it. -/
theorem references_displace_among :
    (ValueSet.empty.add (.reference amongA)).add (.reference (.ofKey "a")) =
      ValueSet.empty.add (.reference (.ofKey "a")) ∧
    ∀ value scope insensitive,
      ((empty.add (.reference (.ofKey "b"))).add (.reference amongA)).has value scope insensitive =
        ((empty.add (.reference amongA)).add (.reference (.ofKey "b"))).has value
          scope insensitive := by
  have htogether : amongA.Displaces (.ofKey "a") := ⟨rfl, rfl⟩
  have happart : ¬ amongA.Displaces (.ofKey "b") := fun h => absurd h.2 (by decide)
  obtain ⟨-, -, hanswers, -⟩ := (references_displace empty .empty amongA (.ofKey "b")).2 happart
  exact ⟨((references_displace empty .empty amongA (.ofKey "a")).1 htogether).1,
    fun value scope insensitive => (hanswers value scope insensitive).2.2⟩

end ValueSet

end Conform
