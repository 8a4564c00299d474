import Conform.Proofs.Settled
import Conform.Proofs.Written

/-!
# Literals are not mistaken for anything else

The JSON of a value is read by three readers, each with tags of its own: as a literal, as a member
of a set, which may be a reference, and as a default, which may also be a function or be made of the
children's defaults. An object is written under a tag, whatever its members are called, so none of
the readers looks among them for one. What is read is the same value: dates come to the millisecond,
a negative zero comes without its sign, and members come in the order of their names.

The first two statements are for all values, without a condition on what they are made of. Names
of members in an object are sorted when it is written, so that the value which is read has its
members in another order; it is the same all the same, since objects are compared by what each
name leads to (`same_object`). The induction is on values, with the items of arrays and the
members of objects side by side.

That no reader mistakes a literal for something else is a matter of tags. A plain object would be
dangerous, as its members could be named like a tag; so objects are written under a tag of their
own, and the sample is an object that has members of all these names.

Main statement: `literals_come_back`.
-/

namespace Conform

namespace Literal

open Value

theorem encodeMembers_eq (members : List (String × Value)) :
    encodeMembers members = members.map fun member => (member.1, encode member.2) := by
  induction members with
  | nil => rfl
  | cons member rest ih => exact congrArg ((member.1, encode member.2) :: ·) ih

/-- Members are written in the order of their names. -/
theorem sortMembers_encodeMembers {members : List (String × Value)} (h : Members.Distinct members) :
    Json.sortMembers (encodeMembers members) =
      encodeMembers (Json.Order.ascending.arrange members) := by
  have hdistinct : Members.Distinct (encodeMembers members) := by
    unfold Members.Distinct
    rw [keys_encodeMembers]
    exact h
  rw [← Json.Order.arrange_members hdistinct, encodeMembers_eq, encodeMembers_eq,
    Json.Order.arrange_map]

/-- Objects are the same if the members of one are paired with those of the other in some order, by
their names and with values that are the same. -/
theorem same_object {others arranged members : List (String × Value)}
    (hmembers : Members.Distinct members) (hperm : arranged.Perm members)
    (h : List.Forall₂ (fun other member => other.1 = member.1 ∧
      other.2.same member.2 = true) others arranged) :
    (Value.object others).same (.object members) = true := by
  rw [same, h.length_eq, hperm.length_eq, beq_self_eq_true, Bool.true_and]
  refine sameMembers_of_get? fun other hother => ?_
  obtain ⟨member, hmember, hname, hsame⟩ := Attempt.exists_of_mem_forall₂ h.flip hother
  refine ⟨member.2, ?_, hsame⟩
  rw [hname]
  exact hmembers.get?_of_mem (hperm.subset hmember)

/-- What a value is written as is read as the same value. -/
theorem decode_encode (v : Value) (hdates : v.keepsMilliseconds = true)
    (hnames : v.hasDistinctNames = true) : ∃ w, decode (encode v) = .ok w ∧ w.same v = true := by
  induction v using inner_induction with
  | h v ih =>
    obtain ⟨hown, hdates⟩ := everywhere_iff.mp hdates
    obtain ⟨honce, hnames⟩ := everywhere_iff.mp hnames
    have hinner (child : Value) (hchild : child ∈ v.inner) :
        ∃ w, decode (encode child) = .ok w ∧ w.same child = true :=
      ih child hchild (hdates child hchild) (hnames child hchild)
    cases v with
    | undefined => exact ⟨.undefined, rfl, rfl⟩
    | null => exact ⟨.null, rfl, rfl⟩
    | bool b => exact ⟨.bool b, rfl, beq_self_eq_true b⟩
    | string s => exact ⟨.string s, rfl, beq_self_eq_true s⟩
    | number n =>
      -- a negative zero comes back as zero, and any number that is none as the one that is written
      obtain ⟨m, hdecode, -, hm⟩ := settles_number n
      exact ⟨.number m, hdecode, Number.same_of_key hm.key⟩
    | date t =>
      obtain ⟨u, hdecode, hseconds, hnanos⟩ := decode_date hown
      have hmillis : u.millis = t.millis := by
        unfold Instant.millis
        omega
      exact ⟨.date u, hdecode, by rw [same, hmillis, beq_self_eq_true]⟩
    | binary bytes => exact ⟨.binary bytes, decode_binary bytes, beq_self_eq_true bytes⟩
    | array items =>
      obtain ⟨others, hdecode, hsame⟩ :=
        decodeItems_encodeItems (show ∀ item ∈ items, _ from hinner)
      refine ⟨.array others, ?_, sameItems_of_forall₂ hsame⟩
      rw [encode, decode, hdecode]
      rfl
    | object members =>
      -- the members are decoded in the order of their names, which does not
      -- matter for being the same
      have hdistinct : (Members.keys members).Nodup := of_decide_eq_true honce
      have hperm := Json.Order.ascending.perm_arrange members
      obtain ⟨others, hdecode, hsame⟩ :=
        decodeMembers_encodeMembers (R := fun other inner => other.same inner = true)
        fun member hmember => hinner member.2 (List.mem_map_of_mem (hperm.subset hmember))
      refine ⟨.object others, ?_, same_object hdistinct hperm hsame⟩
      rw [encode, tagged, decode, sortMembers_encodeMembers hdistinct, hdecode]
      rfl

/-- The JSON of a value, whatever it is made of, is read as the same value, and is taken for that
literal as a member of a set and as a default, whichever functions are registered. -/
theorem literals_come_back (v : Value) (hdates : v.keepsMilliseconds = true)
    (hnames : v.hasDistinctNames = true) : ∃ w, decode (encode v) = .ok w ∧ w.same v = true ∧
      ∀ registry, Build.item registry (encode v) = .ok (.literal w) ∧
        Build.default registry (encode v) = .ok (.value w) := by
  obtain ⟨w, hdecode, hsame⟩ := decode_encode v hdates hnames
  refine ⟨w, hdecode, hsame, fun registry => ⟨?_, ?_⟩⟩
  · rw [Build.item_encode, hdecode]
    rfl
  · rw [Build.default_encode, hdecode]
    rfl

/-- An object whose members have the names of all tags. -/
def tagNames : Value :=
  .object [
    ("value", .object [("ref", .string "a")]),
    ("special", .string "deep"),
    ("function", .array [.object [("function", .string "now")], .number Number.nan, .undefined]),
    ("date", .date ⟨1700000000, 123456789⟩),
    ("binary", .binary [1, 2])]

theorem literals_come_back_tagNames :
    tagNames.keepsMilliseconds = true ∧ tagNames.hasDistinctNames = true ∧
    ∃ w, decode (encode tagNames) = .ok w ∧ w.same tagNames = true ∧
      ∀ registry, Build.item registry (encode tagNames) = .ok (.literal w) ∧
        Build.default registry (encode tagNames) = .ok (.value w) := by
  have hdates : tagNames.keepsMilliseconds = true := by decide +kernel
  have hnames : tagNames.hasDistinctNames = true := by decide +kernel
  exact ⟨hdates, hnames, literals_come_back tagNames hdates hnames⟩

end Literal

end Conform
