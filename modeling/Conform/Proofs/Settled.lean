import Conform.Proofs.Base64
import Conform.Proofs.Integers
import Conform.Proofs.Mentions
import Conform.Proofs.SetKeys

/-!
# Values that descriptions settle

A description does not give every value back: a negative zero comes back as zero, and a date between
two milliseconds as the earlier one. What comes back is written like the value it stands for, has
its key in sets and does for an argument where it does (`Value.PassesFor`), so that being described
once more changes nothing.

There are two places where something is lost, and each has its section. Of numbers the sign of a
zero is lost, and which of the many values that are no number it was; neither shows in a key or to a
kind of argument, of which each is looked at (`Number.Settles`). Of dates what is finer than a
millisecond is lost. That is assumed to be all, for each date that occurs
(`Instant.keepsMillisecond`): the calendar is computed, and the assumption is decided by running the
reader on the text. Arrays and objects follow item by item, and the names in objects have to ascend,
since that is the order in which a description keeps them.

From values this goes up to schemas by what a schema mentions. A schema whose names are known, and
whose mentioned values all come back as they are, can be described; replacing each mentioned value
by what comes back of it gives such a schema, and one that says the same.

Main statements: `Literal.settles` and `Schema.Known.sayable_settled`.
-/

namespace Conform

/-! ### Numbers -/

namespace Number

/-- There are two zeros, told apart by their sign. -/
theorem ofMagnitude_of_isZero {n : Number} (h : n.isZero = true) :
    n = ofMagnitude n.isNegative 0 := by
  have hpos : 0 < Nat.pow 2 63 := by decide
  have hzero : n.magnitude = 0 := of_decide_eq_true h
  exact eq_of_magnitude (isNegative_ofMagnitude _ hpos).symm
    (hzero.trans (magnitude_ofMagnitude _ hpos).symm)

/-- The numbers are one, or both are zero, or neither is a number. -/
def Settles (m n : Number) : Prop :=
  m = n ∨ (m.isZero = true ∧ n.isZero = true) ∨ (m.isNaN = true ∧ n.isNaN = true)

variable {m n : Number}

/-- Numbers that settle alike have one key in sets. -/
theorem Settles.key (h : m.Settles n) : Value.numberKey m = Value.numberKey n := by
  have hnumber {k : Number} (hk : k.isZero = true) : k.isNaN = false := by
    have hzero : k.magnitude = 0 := of_decide_eq_true hk
    unfold isNaN
    rw [hzero]
    rfl
  unfold Value.numberKey
  rcases h with rfl | ⟨hm, hn⟩ | ⟨hm, hn⟩
  · rfl
  · rw [hnumber hm, hnumber hn, hm, hn]
    rfl
  · rw [hm, hn]
    rfl

/-- Numbers that settle alike are refused by the same kinds of argument. -/
theorem Settles.rejection (h : m.Settles n) (kind : ArgumentKind) :
    kind.rejection? (.number m) = kind.rejection? (.number n) := by
  rcases h with rfl | ⟨hm, hn⟩ | ⟨hm, hn⟩
  · rfl
  · rw [ofMagnitude_of_isZero hm, ofMagnitude_of_isZero hn]
    cases m.isNegative <;> cases n.isNegative <;> cases kind <;> decide +kernel
  · have hfinite {k : Number} (hk : k.isNaN = true) : k.isFinite = false := by
      have hlt : infinityMagnitude < k.magnitude := of_decide_eq_true hk
      exact decide_eq_false (by omega)
    cases kind <;> simp [ArgumentKind.rejection?, hfinite hm, hfinite hn]

end Number

namespace Literal

/-- What a tag is put to is decoded by the tag. -/
theorem decode_tagged (tag text : String) :
    decode (tagged tag (.string text)) = ofTag tag text := by
  rw [tagged, decode]

/-- An infinity is tagged, and comes back. -/
theorem decode_infinite {n : Number} (hnan : ¬n.isNaN = true) (hinfinite : n.isInfinite = true) :
    decode (encodeNumber n) = .ok (.number n) := by
  have hlt : Number.infinityMagnitude < Nat.pow 2 63 := by decide
  have hmagnitude : n.magnitude = Number.infinityMagnitude := of_decide_eq_true hinfinite
  have hsame : Number.infinity n.isNegative = n :=
    Number.eq_of_magnitude (Number.isNegative_ofMagnitude _ hlt)
      ((Number.magnitude_ofMagnitude _ hlt).trans hmagnitude.symm)
  unfold encodeNumber
  rw [if_neg hnan, if_pos hinfinite]
  cases hneg : n.isNegative with
  | true =>
    rw [hneg] at hsame
    exact congrArg (fun k => Except.ok (Value.number k)) hsame
  | false =>
    rw [hneg] at hsame
    exact congrArg (fun k => Except.ok (Value.number k)) hsame

/-- What is neither tagged nor a safe integer is plain, and comes back. -/
theorem decode_fraction {n : Number} (hfinite : n.isFinite = true)
    (hplain : encodeNumber n = Value.numberToJson n) (hint : n.toSafeInt? = none) :
    decode (encodeNumber n) = .ok (.number n) := by
  rw [hplain, Value.numberToJson, hint]
  dsimp only
  rw [if_pos hfinite]
  rfl

/-- A safe integer is written as one, and comes back as its number; a negative zero loses its sign
there. -/
theorem settles_integer {n : Number} {i : Int} (hplain : encodeNumber n = Value.numberToJson n)
    (hint : n.toSafeInt? = some i) :
    ∃ m, decode (encodeNumber n) = .ok (.number m) ∧
      encodeNumber m = encodeNumber n ∧ m.Settles n := by
  have hspec := Number.ofInt_of_toSafeInt? hint
  have hencode : encodeNumber n = .int i := by
    rw [hplain, Value.numberToJson, hint]
  have hdecode : decode (encodeNumber n) = .ok (.number (Number.ofInt i)) := by
    rw [hencode]
    rfl
  refine ⟨Number.ofInt i, hdecode, ?_⟩
  by_cases hzero : i = 0
  · rw [if_pos hzero] at hspec
    have hsafe : (Number.ofInt 0).toSafeInt? = some 0 := by decide +kernel
    refine ⟨?_, .inr (.inl ⟨by rw [hzero]; decide, hspec⟩)⟩
    rw [hencode, hzero]
    unfold encodeNumber
    rw [if_neg (by decide), if_neg (by decide), Value.numberToJson, hsafe]
  · rw [if_neg hzero] at hspec
    exact ⟨by rw [hspec], .inl hspec⟩

/-- What stands for a number is decoded to one that is written alike. -/
theorem settles_number (n : Number) :
    ∃ m, decode (encodeNumber n) = .ok (.number m) ∧
      encodeNumber m = encodeNumber n ∧ m.Settles n := by
  -- what is not finite is tagged; all else is plain, and an integer if it is a safe one
  by_cases hnan : n.isNaN = true
  · have hnan' : Number.nan.isNaN = true := by decide
    refine ⟨Number.nan, ?_, ?_, .inr (.inr ⟨hnan', hnan⟩)⟩ <;> unfold encodeNumber
    · rw [if_pos hnan]
      rfl
    · rw [if_pos hnan, if_pos hnan']
  by_cases hinfinite : n.isInfinite = true
  · exact ⟨n, decode_infinite hnan hinfinite, rfl, .inl rfl⟩
  have hplain : encodeNumber n = Value.numberToJson n := by
    unfold encodeNumber
    rw [if_neg hnan, if_neg hinfinite]
  have hfinite : n.isFinite = true := by
    have hle : ¬Number.infinityMagnitude < n.magnitude := fun hlt => hnan (decide_eq_true hlt)
    have hne : ¬n.magnitude = Number.infinityMagnitude := fun heq => hinfinite (decide_eq_true heq)
    exact decide_eq_true (by omega)
  cases hint : n.toSafeInt? with
  | none => exact ⟨n, decode_fraction hfinite hplain hint, rfl, .inl rfl⟩
  | some i => exact settles_integer hplain hint

end Literal

/-! ### Dates -/

/-- The text of the instant, to the millisecond, is read as an instant of the same millisecond. -/
def Instant.keepsMillisecond (t : Instant) : Bool :=
  match Time.strict? t.text with
  | some u => u.seconds == t.seconds && u.nanos / 1000000 == t.nanos / 1000000
  | none => false

/-- Instants of one millisecond are written alike. -/
theorem Instant.text_congr {t u : Instant} (hseconds : u.seconds = t.seconds)
    (hnanos : u.nanos / 1000000 = t.nanos / 1000000) : u.text = t.text := by
  have hleap : (if 1000000000 ≤ u.nanos then 1 else 0) =
      (if 1000000000 ≤ t.nanos then 1 else 0) := by
    by_cases h : 1000000000 ≤ t.nanos
    · rw [if_pos h, if_pos (by omega)]
    · rw [if_neg h, if_neg (by omega)]
  have hfraction : u.nanos % 1000000000 / 1000000 = t.nanos % 1000000000 / 1000000 := by omega
  unfold text
  rw [hseconds, hleap, hfraction]

/-! ### Values -/

namespace Value

/-- The dates in the value are read back to the millisecond. -/
def keepsMilliseconds (v : Value) : Bool :=
  v.everywhere fun | .date t => t.keepsMillisecond | _ => true

/-- The names in every object of the value ascend. -/
def hasAscendingNames (v : Value) : Bool :=
  v.everywhere fun | .object members => decide ((Members.keys members).Pairwise (· < ·)) | _ => true

/-- What is no number, text, boolean or date does for no argument that has to be one of these. -/
inductive IsBulk : Value → Prop
  | array (items : List Value) : IsBulk (.array items)
  | object (members : List (String × Value)) : IsBulk (.object members)

/-- Arrays and objects are refused by the same kinds of argument. -/
theorem IsBulk.rejection {v w : Value} (hv : v.IsBulk) (hw : w.IsBulk) (kind : ArgumentKind) :
    kind.rejection? w = kind.rejection? v := by
  cases hv <;> cases hw <;> cases kind <;> rfl

namespace PassesFor

/-- Every value does for itself. -/
theorem refl (v : Value) : v.PassesFor v := ⟨rfl, rfl, rfl, fun _ => rfl⟩

/-- A number does for one that is written alike and settles alike. -/
theorem number {m n : Number} (hencode : Literal.encodeNumber m = Literal.encodeNumber n)
    (h : m.Settles n) : (Value.number m).PassesFor (.number n) :=
  ⟨hencode, congrArg ("n:" ++ ·) h.key, rfl, h.rejection⟩

/-- A date does for any other of its millisecond. -/
theorem date {t u : Instant} (hseconds : u.seconds = t.seconds)
    (hnanos : u.nanos / 1000000 = t.nanos / 1000000) : (Value.date u).PassesFor (.date t) where
  encode :=
    congrArg (fun text => Literal.tagged "date" (.string text)) (Instant.text_congr hseconds hnanos)
  key := by
    have hmillis : u.millis = t.millis := by
      unfold Instant.millis
      rw [hseconds]
      omega
    show "d:" ++ toString u.millis = "d:" ++ toString t.millis
    rw [hmillis]
  defined := rfl
  rejection := fun kind => by cases kind <;> rfl

/-- An array does for another if its items do for those of the other. -/
theorem array {items others : List Value} (h : List.Forall₂ PassesFor others items) :
    (Value.array others).PassesFor (.array items) where
  encode := by
    have hitems : Literal.encodeItems others = Literal.encodeItems items := by
      induction h with
      | nil => rfl
      | cons hfirst _ ih => rw [Literal.encodeItems, Literal.encodeItems, hfirst.encode, ih]
    rw [Literal.encode, Literal.encode, hitems]
  key := by
    have hkeys : setKeys others = setKeys items := by
      induction h with
      | nil => rfl
      | cons hfirst _ ih => rw [setKeys, setKeys, hfirst.key, ih]
    rw [setKey, setKey, hkeys]
  defined := rfl
  rejection := (IsBulk.array items).rejection (.array others)

/-- An object does for another if it has the same names in the same order, and its values do
for those of the other. -/
theorem object {members others : List (String × Value)}
    (h : List.Forall₂ (fun other member => other.1 = member.1 ∧
      other.2.PassesFor member.2) others members) :
    (Value.object others).PassesFor (.object members) where
  encode := by
    have hmembers : Literal.encodeMembers others = Literal.encodeMembers members := by
      induction h with
      | nil => rfl
      | cons hfirst _ ih =>
        obtain ⟨hname, hvalue⟩ := hfirst
        rw [Literal.encodeMembers, Literal.encodeMembers, hname, hvalue.encode, ih]
    rw [Literal.encode, Literal.encode, hmembers]
  key := by
    have hkeys : memberKeys others = memberKeys members := by
      induction h with
      | nil => rfl
      | cons hfirst _ ih =>
        obtain ⟨hname, hvalue⟩ := hfirst
        rw [memberKeys, memberKeys, hname, hvalue.key, ih]
    rw [setKey, setKey, hkeys]
  defined := rfl
  rejection := (IsBulk.object members).rejection (.object others)

end PassesFor

end Value

namespace Literal

open Value

/-- Encoding keeps the names. -/
theorem keys_encodeMembers (members : List (String × Value)) :
    Members.keys (encodeMembers members) = Members.keys members := by
  induction members with
  | nil => rfl
  | cons member rest ih => exact congrArg (member.1 :: ·) ih

section Inner

variable {R : Value → Value → Prop}

/-- Items are decoded one by one. -/
theorem decodeItems_encodeItems {items : List Value}
    (h : ∀ item ∈ items, ∃ w, decode (encode item) = .ok w ∧ R w item) :
    ∃ others, decodeItems (encodeItems items) = .ok others ∧ List.Forall₂ R others items := by
  induction items with
  | nil => exact ⟨[], rfl, .nil⟩
  | cons item rest ih =>
    obtain ⟨w, hdecode, hw⟩ := h item (List.mem_cons_self ..)
    obtain ⟨others, hothers, hrest⟩ := ih fun i hi => h i (List.mem_cons_of_mem _ hi)
    refine ⟨w :: others, ?_, .cons hw hrest⟩
    rw [encodeItems, decodeItems, hdecode, hothers]
    rfl

/-- Members are decoded one by one, under their names. -/
theorem decodeMembers_encodeMembers {members : List (String × Value)}
    (h : ∀ member ∈ members, ∃ w, decode (encode member.2) = .ok w ∧ R w member.2) :
    ∃ others, decodeMembers (encodeMembers members) = .ok others ∧
      List.Forall₂ (fun other member => other.1 = member.1 ∧
        R other.2 member.2) others members := by
  induction members with
  | nil => exact ⟨[], rfl, .nil⟩
  | cons member rest ih =>
    obtain ⟨w, hdecode, hw⟩ := h member (List.mem_cons_self ..)
    obtain ⟨others, hothers, hrest⟩ := ih fun m hm => h m (List.mem_cons_of_mem _ hm)
    refine ⟨(member.1, w) :: others, ?_, .cons ⟨rfl, hw⟩ hrest⟩
    rw [encodeMembers, decodeMembers, hdecode, hothers]
    rfl

end Inner

/-- A date comes back to the millisecond. -/
theorem decode_date {t : Instant} (h : t.keepsMillisecond = true) :
    ∃ u, decode (encode (.date t)) = .ok (.date u) ∧ u.seconds = t.seconds ∧
      u.nanos / 1000000 = t.nanos / 1000000 := by
  unfold Instant.keepsMillisecond at h
  cases hread : Time.strict? t.text with
  | none =>
    rw [hread] at h
    exact absurd h Bool.false_ne_true
  | some u =>
    rw [hread] at h
    obtain ⟨hseconds, hnanos⟩ := Bool.and_eq_true_iff.mp h
    refine ⟨u, ?_, eq_of_beq hseconds, eq_of_beq hnanos⟩
    rw [encode, decode_tagged, ofTag, hread]

/-- Bytes come back as they were. -/
theorem decode_binary (bytes : List UInt8) :
    decode (encode (.binary bytes)) = .ok (.binary bytes) := by
  rw [encode, decode_tagged, ofTag, Bytes.ofBase64?_toBase64]

/-- What stands for a value is decoded to one that passes for it, if dates keep their milliseconds
and members stand in the order in which they are written. -/
theorem settles (v : Value) (hdates : v.keepsMilliseconds = true)
    (hnames : v.hasAscendingNames = true) : ∃ w, decode (encode v) = .ok w ∧ w.PassesFor v := by
  induction v using inner_induction with
  | h v ih =>
    -- what is asked of the value is asked of everything inside it
    obtain ⟨hown, hinner⟩ := everywhere_iff.mp hdates
    obtain ⟨hsorted, hbelow⟩ := everywhere_iff.mp hnames
    have hsettled (child : Value) (hchild : child ∈ v.inner) :
        ∃ w, decode (encode child) = .ok w ∧ w.PassesFor child :=
      ih child hchild (hinner child hchild) (hbelow child hchild)
    cases v with
    | undefined | null | bool | string => exact ⟨_, rfl, .refl _⟩
    | number n =>
      obtain ⟨m, hdecode, hencode, hm⟩ := settles_number n
      exact ⟨.number m, hdecode, .number hencode hm⟩
    | date t =>
      obtain ⟨u, hdecode, hseconds, hnanos⟩ := decode_date hown
      exact ⟨.date u, hdecode, .date hseconds hnanos⟩
    | binary bytes => exact ⟨.binary bytes, decode_binary bytes, .refl _⟩
    | array items =>
      obtain ⟨others, hdecode, hpass⟩ :=
        decodeItems_encodeItems (show ∀ item ∈ items, _ from hsettled)
      refine ⟨.array others, ?_, .array hpass⟩
      rw [encode, decode, hdecode]
      rfl
    | object members =>
      obtain ⟨others, hdecode, hpass⟩ := decodeMembers_encodeMembers fun member hmember =>
        hsettled member.2 (List.mem_map_of_mem hmember)
      -- members are written in the order of their names, which is their own
      have hsorted : Json.Ascending (encodeMembers members) := by
        unfold Json.Ascending
        rw [keys_encodeMembers]
        exact of_decide_eq_true hsorted
      refine ⟨.object others, ?_, .object hpass⟩
      rw [encode, tagged, decode, Json.sortMembers_of_ascending hsorted, hdecode]
      rfl

/-- The value that comes back from a description. -/
def settled (v : Value) : Value :=
  match decode (encode v) with
  | .ok w => w
  | .error _ => v

/-- What comes back of a value does for it, and comes back as it is the next time. -/
theorem settled_spec {v : Value} (hdates : v.keepsMilliseconds = true)
    (hnames : v.hasAscendingNames = true) : (settled v).PassesFor v ∧ Faithful (settled v) := by
  obtain ⟨w, hdecode, hpass⟩ := settles v hdates hnames
  have hw : settled v = w := by
    unfold settled
    rw [hdecode]
  rw [hw]
  refine ⟨hpass, ?_⟩
  unfold Faithful
  rw [hpass.encode, hdecode]

end Literal

/-! ### Nodes -/

/-- The value has the property, or the function is registered. -/
def Mention.Meets (registry : Registry) (P : Value → Prop) : Mention → Prop
  | .value v => P v
  | .adjuster name => (registry.adjusters name).isSome
  | .initial name => (registry.defaults name).isSome
  | .custom name => (registry.customs name).isSome
  | .generator name => (registry.generators name).isSome

/-- The function is registered, or the names in the value ascend. -/
def Mention.Known (registry : Registry) : Mention → Prop :=
    Meets registry fun v => v.hasAscendingNames = true

/-- The dates in the value that is mentioned are read back to the millisecond. -/
def Mention.keepsMilliseconds : Mention → Bool
  | .value v => v.keepsMilliseconds
  | _ => true

section Sayable

variable {σ : Type} {registry : Registry}

/-- A reference can be described if what it mentions comes back. -/
theorem Reference.describable_of_mentions {r : Reference}
    (h : ∀ m ∈ r.mentions, m.Meets registry Literal.Faithful) : r.Describable registry where
  table := by
    intro entry hentry
    have hboth (v : Value) (hv : Mention.value v ∈ [Mention.value entry.1, .value entry.2]) :
        Literal.Faithful v :=
      h (.value v) (List.mem_append_left _ (List.mem_flatMap.mpr ⟨entry, hentry, hv⟩))
    exact ⟨hboth entry.1 (List.mem_cons_self ..),
      hboth entry.2 (List.mem_cons_of_mem _ (List.mem_cons_self ..))⟩
  adjuster := by
    intro name hname
    refine h (.adjuster name) (List.mem_append_right _ ?_)
    exact List.mem_map_of_mem (Option.mem_toList.mpr hname)

/-- A member of a set can be described if what it mentions comes back. -/
theorem SetItem.describable_of_mentions {i : SetItem}
    (h : ∀ m ∈ i.mentions, m.Meets registry Literal.Faithful) : i.Describable registry := by
  cases i with
  | literal v => exact h (.value v) (List.mem_singleton_self _)
  | reference r => exact r.describable_of_mentions h

/-- A default can be described if what it mentions comes back. -/
theorem Default.describable_of_mentions {d : Default}
    (h : ∀ m ∈ d.mentions, m.Meets registry Literal.Faithful) : d.Describable registry := by
  cases d with
  | value v => exact h (.value v) (List.mem_singleton_self _)
  | reference r => exact r.describable_of_mentions h
  | function name => exact h (.initial name) (List.mem_singleton_self _)
  | deep => trivial

/-- An argument can be described if what it mentions comes back. -/
theorem Argument.describable_of_mentions {arg : Argument σ}
    (h : ∀ m ∈ arg.mentions, m.Meets registry Literal.Faithful) : arg.Describable registry := by
  cases arg with
  | literal v => exact h (.value v) (List.mem_singleton_self _)
  | reference r => exact r.describable_of_mentions h
  | function name => exact h (.custom name) (List.mem_singleton_self _)
  | _ => trivial

/-- What is particular to a type can be described if what it mentions comes back. -/
theorem Form.describable_of_mentions {form : Form σ}
    (h : ∀ m ∈ form.mentions, m.Meets registry Literal.Faithful) : form.Describable registry := by
  cases form with
  | alternatives f =>
    intro r hr
    exact r.describable_of_mentions fun m hm => h m (List.mem_flatMap.mpr ⟨r, hr, hm⟩)
  | boolean f =>
    intro item hitem
    refine item.describable_of_mentions fun m hm => h m ?_
    rcases List.mem_append.mp hitem with hin | hin
    · exact List.mem_append_left _ (List.mem_flatMap.mpr ⟨item, hin, hm⟩)
    · exact List.mem_append_right _ (List.mem_flatMap.mpr ⟨item, hin, hm⟩)
  | lazy f => exact h (.generator f.generator) (List.mem_singleton_self _)
  | _ => trivial

namespace Schema

/-- A node can be said if every value it mentions is faithful and every function registered. -/
theorem sayable_of_mentions {s : Schema}
    (h : ∀ m ∈ s.node.mentions, m.Meets registry Literal.Faithful) :
    s.Sayable registry := by
  obtain ⟨hallowed, hdenied, hflags, hrules, hform, hnotes⟩ := Node.forall_mentions.mp h
  have hset {given : ValueSet} (hgiven : ∀ m ∈ given.mentions, m.Meets registry Literal.Faithful) :
      ∀ item ∈ given.items, item.Describable registry := fun item hitem =>
    item.describable_of_mentions (ValueSet.forall_mentions.mp hgiven item hitem)
  refine ⟨List.forall_mem_append.mpr ⟨hset hallowed, hset hdenied⟩, fun d hd => ?_,
    fun rule hrule arg harg => ?_,
    Form.describable_of_mentions hform, fun v hv => hnotes (.value v) (List.mem_map_of_mem hv)⟩
  · exact d.describable_of_mentions fun m hm => hflags m (List.mem_flatMap.mpr ⟨d, hd, hm⟩)
  · refine arg.describable_of_mentions fun m hm => hrules m ?_
    exact List.mem_flatMap.mpr ⟨rule, hrule, List.mem_flatMap.mpr ⟨arg, harg, hm⟩⟩

/-- The dates in the values that the node mentions are read back to the millisecond. -/
def KeepsMilliseconds (s : Schema) : Prop := ∀ m ∈ s.node.mentions, m.keepsMilliseconds = true

instance (s : Schema) : Decidable s.KeepsMilliseconds :=
  inferInstanceAs (Decidable (∀ m ∈ s.node.mentions, m.keepsMilliseconds = true))

/-- The functions that the node mentions are registered, and the names in its values ascend. -/
def Known (registry : Registry) (s : Schema) : Prop := ∀ m ∈ s.node.mentions, m.Known registry

/-- The schema with the values of its node settled. -/
def settled (s : Schema) : Schema := { node := s.node.mapValues Literal.settled }

variable {s : Schema}

/-- Every value that a known schema mentions is settled, if its dates are
kept to the millisecond. -/
theorem Known.settles (hknown : s.Known registry) (hdates : s.KeepsMilliseconds) :
    Mention.Settles Literal.settled s.node.mentions :=
  fun v hv => (Literal.settled_spec (hdates (.value v) hv) (hknown _ hv)).1

/-- A node whose values are settled can be said. -/
theorem Known.sayable_settled (hknown : s.Known registry) (hdates : s.KeepsMilliseconds) :
    s.settled.Sayable registry := by
  refine sayable_of_mentions fun m hm => ?_
  unfold settled at hm
  rw [Node.mentions_mapValues] at hm
  obtain ⟨old, hold, rfl⟩ := List.mem_map.mp hm
  cases old with
  | value v => exact (Literal.settled_spec (hdates (.value v) hold) (hknown _ hold)).2
  | _ => exact hknown _ hold

end Schema

end Sayable

end Conform
