import Conform.Proofs.Integers
import Conform.Proofs.Proper

/-!
# Preferences read back

A patch of preferences comes back as it was written, but for the context: that is written as plain
JSON, so a negative zero in it is lost (`PreferencesPatch.settled`). What comes back is written as
before. In a description that is an argument of a rule, and so written as data, the codes of
messages are sorted too (`PreferencesPatch.arranged`).

Unlike literals, the values of a context are written without tags. A date becomes a text and stays
one when it is read back, so values do not come back, but their JSON does: writing, reading and
writing again is the same as writing once (`Value.toJson_ofJson_toJson`). That the JSON is not null
has to be known besides, since a null there is read as no value at all.

The fields of a patch are read one by one, and each kind of field has a lemma of its own, for
the switches, for what is stripped, for the presence, for the context and for the messages
(`switch_back` and the lemmas behind it). A field that is not set is not written, so each of
them has two cases. The theorem on whole patches then looks every field up under its name and
puts the results together.

Main statements: `PreferencesPatch.read?_toJson` and `PreferencesPatch.toJson_settled`.
-/

namespace Conform

open Json

/-! ### Values as plain JSON -/

namespace Value

/-- The JSON of a number has no members that could be sorted. -/
theorem sorted_numberToJson (n : Number) : (numberToJson n).sorted = numberToJson n := by
  unfold numberToJson
  split
  · rfl
  · split <;> rfl

/-- What is read from the JSON of a number is written as that JSON. -/
theorem numberToJson_ofJson (n : Number) : (ofJson (numberToJson n)).toJson = numberToJson n := by
  unfold numberToJson
  cases hint : n.toSafeInt? with
  | none =>
    dsimp only
    split
    next hfinite =>
      show numberToJson n = _
      unfold numberToJson
      rw [hint, if_pos hfinite]
    next => rfl
  | some i =>
    have hspec := Number.ofInt_of_toSafeInt? hint
    have hsame : (Number.ofInt i).toSafeInt? = some i := by
      by_cases hzero : i = 0
      · rw [hzero]
        decide +kernel
      · rw [if_neg hzero] at hspec
        rw [hspec, hint]
    show numberToJson (Number.ofInt i) = _
    unfold numberToJson
    rw [hsame]

/-- What is read from JSON is a value. -/
theorem isDefined_ofJson (json : Json) : (ofJson json).isDefined = true := by cases json <;> rfl

/-- Members whose values come back come back. -/
theorem toJsonMembers_ofJson {members : List (String × Json)}
    (h : ∀ member ∈ members, (ofJson member.2).toJson = member.2) :
    toJsonMembers (ofJsonMembers members) = members := by
  induction members with
  | nil => rfl
  | cons member rest ih =>
    obtain ⟨name, json⟩ := member
    have hfirst : (ofJson json).toJson = json := h (name, json) (List.mem_cons_self ..)
    have hrest := ih fun m hm => h m (List.mem_cons_of_mem _ hm)
    have hdefined := isDefined_ofJson json
    rw [ofJsonMembers]
    cases hvalue : ofJson json with
    | undefined =>
      rw [hvalue] at hdefined
      exact nomatch hdefined
    | _ =>
      rw [hvalue] at hfirst
      rw [toJsonMembers, hfirst, hrest]
      exact fun heq => nomatch heq

mutual
/-- What is written as JSON is sorted. -/
theorem sorted_toJson (v : Value) : v.toJson.sorted = v.toJson := by
  cases v with
  | number n => exact sorted_numberToJson n
  | array items => rw [toJson, sorted, sorted_toJsonItems items]
  | object members =>
    rw [toJson, sorted, sortedMembers_sortMembers, sorted_toJsonMembers members,
      sortMembers_sortMembers]
  | _ => rfl

/-- The JSON of items is sorted. -/
theorem sorted_toJsonItems (items : List Value) :
    sortedItems (toJsonItems items) = toJsonItems items := by
  cases items with
  | nil => rfl
  | cons item rest => rw [toJsonItems, sortedItems, sorted_toJson item, sorted_toJsonItems rest]

/-- The values in the JSON of members are sorted. -/
theorem sorted_toJsonMembers (members : List (String × Value)) :
    sortedMembers (toJsonMembers members) = toJsonMembers members := by
  cases members with
  | nil => rfl
  | cons member rest =>
    obtain ⟨name, value⟩ := member
    have hvalue := sorted_toJson value
    have hrest := sorted_toJsonMembers rest
    cases value with
    | undefined => exact hrest
    | _ => rw [toJsonMembers, sortedMembers, hvalue, hrest]; exact fun heq => nomatch heq
end

mutual
/-- What is read from the JSON of a value is written as that JSON. -/
theorem toJson_ofJson_toJson (v : Value) : (ofJson v.toJson).toJson = v.toJson := by
  cases v with
  | number n => exact numberToJson_ofJson n
  | array items => rw [toJson, ofJson, toJson, toJsonItems_ofJson items]
  | object members =>
    have hascending := ascending_sortMembers (toJsonMembers members)
    rw [toJson, ofJson, toJson, toJsonMembers_ofJson fun member hmember =>
      toJson_ofJson_member members member (mem_sortMembers hmember),
        sortMembers_of_ascending hascending]
  | _ => rfl

/-- What is read from the JSON of items is written as that JSON. -/
theorem toJsonItems_ofJson (items : List Value) :
    toJsonItems (ofJsonItems (toJsonItems items)) = toJsonItems items := by
  cases items with
  | nil => rfl
  | cons item rest =>
    rw [toJsonItems, ofJsonItems, toJsonItems, toJson_ofJson_toJson item, toJsonItems_ofJson rest]

/-- What is read from the JSON of a member is written as that JSON. -/
theorem toJson_ofJson_member (members : List (String × Value)) (member : String × Json)
    (h : member ∈ toJsonMembers members) : (ofJson member.2).toJson = member.2 := by
  cases members with
  | nil => exact absurd h List.not_mem_nil
  | cons first rest =>
    obtain ⟨name, value⟩ := first
    have hvalue := toJson_ofJson_toJson value
    have hrest := toJson_ofJson_member rest member
    cases value with
    | undefined => exact hrest h
    | _ =>
      rw [toJsonMembers] at h
      · rcases List.mem_cons.mp h with rfl | h
        · exact hvalue
        · exact hrest h
      · exact fun heq => nomatch heq
end

end Value

namespace PreferencesPatch

/-! ### Patches -/

/-- What is said of preferences inside an argument of a rule: the codes of messages
ascend, no caller asks for no check of presence at all, and the context has a counterpart
in JSON that is not `null`. -/
structure Neat (p : PreferencesPatch) : Prop where
  messages : (Members.keys p.messages.entries).Pairwise (· < ·)
  presence : p.presence ≠ some .ignore
  context : ∀ v ∈ p.context, v.toJson.toSource.isNull = false

/-- A finite number is not written as null. -/
theorem isNull_toJson_number {n : Number} (h : n.isFinite = true) :
    (Value.number n).toJson.toSource.isNull = false := by
  show (Value.numberToJson n).toSource.isNull = false
  unfold Value.numberToJson
  split
  · rfl
  · rw [if_pos h]
    rfl

/-- What was not null when it was read is not written as null. -/
theorem isNull_toJson_ofJson {source : Source} {json : Json} (hfinite : source.isFinite = true)
    (hnull : source.isNull = false) (h : source.toJson? = some json) :
    (Value.ofJson json).toJson.toSource.isNull = false := by
  cases source with
  | null => exact absurd hnull (by simp [Source.isNull])
  | unreadable => exact absurd h (by simp [Source.toJson?])
  | array items =>
    obtain ⟨read, -, rfl⟩ := Option.map_eq_some_iff.mp h
    rfl
  | object members =>
    obtain ⟨read, -, rfl⟩ := Option.map_eq_some_iff.mp h
    rfl
  | int i =>
    obtain rfl := Option.some.inj h
    exact isNull_toJson_number hfinite
  | float n =>
    obtain rfl := Option.some.inj h
    exact isNull_toJson_number hfinite
  | _ =>
    obtain rfl := Option.some.inj h
    rfl

/-- No text is read as the presence that asks for nothing. -/
theorem presence_read? {source : Source} {presence : Presence}
    (h : Presence.read? source = some presence) : presence ≠ .ignore := by
  unfold Presence.read? at h
  rintro rfl
  split at h
  next => exact nomatch h
  next hignore => exact hignore h

/-- A patch that is read from proper data is neat. -/
theorem neat_of_read? {source : Source} (hproper : source.IsProper) {p : PreferencesPatch}
    (h : read? source = some p) : p.Neat := by
  unfold read? at h
  obtain ⟨fields, hfields, h⟩ := Option.bind_eq_some_iff.mp h
  obtain ⟨abortEarly, -, h⟩ := Option.bind_eq_some_iff.mp h
  obtain ⟨convert, -, h⟩ := Option.bind_eq_some_iff.mp h
  obtain ⟨allowUnknown, -, h⟩ := Option.bind_eq_some_iff.mp h
  obtain ⟨stripUnknown, -, h⟩ := Option.bind_eq_some_iff.mp h
  obtain ⟨presence, hpresence, h⟩ := Option.bind_eq_some_iff.mp h
  obtain ⟨context, hcontext, h⟩ := Option.bind_eq_some_iff.mp h
  obtain ⟨noDefaults, -, h⟩ := Option.bind_eq_some_iff.mp h
  obtain ⟨messages, hmessages, h⟩ := Option.bind_eq_some_iff.mp h
  obtain rfl := Option.some.inj h
  -- a field of proper data is proper itself
  have hfield {name : String} {s : Source} (hs : fields.get? name = some s) : s.IsProper :=
    Manifest.field_of (Source.inherited_isProper source hproper) hfields hs
  refine ⟨?_, ?_, fun v hv => ?_⟩
  · rcases Source.Fields.withDefault?_some hmessages with ⟨s, hs, hread⟩ | ⟨-, rfl⟩
    · -- a table read from proper data has its keys in order
      obtain ⟨table, htable, rfl⟩ : ∃ table, s.table? Source.string? = some table ∧
          MessageTable.ofList table = messages := Option.map_eq_some_iff.mp hread
      have hcodes : (Members.keys table).Pairwise (· < ·) := (hfield hs).table htable
      have hsame : Members.ofList table = table :=
        Members.insertAll_of_distinct (hcodes.imp fun hlt => ne_of_lt hlt)
      show (Members.keys (Members.ofList table)).Pairwise (· < ·)
      rw [hsame]
      exact hcodes
    · exact List.Pairwise.nil
  · rcases Source.Fields.withDefault?_some hpresence with ⟨s, -, hread⟩ | ⟨-, rfl⟩
    · obtain ⟨found, hfound, rfl⟩ := Option.map_eq_some_iff.mp hread
      exact fun heq => presence_read? hfound (Option.some.inj heq)
    · exact fun heq => nomatch heq
  · rcases Source.Fields.withDefault?_some hcontext with ⟨s, hs, hread⟩ | ⟨-, rfl⟩
    · obtain ⟨hnull, hvalue⟩ := Source.nullable?_some hread hv
      obtain ⟨json, hjson, rfl⟩ := Option.map_eq_some_iff.mp hvalue
      exact isNull_toJson_ofJson (hfield hs).isFinite hnull hjson
    · exact nomatch hv

/-- The patch that comes back. -/
def settled (p : PreferencesPatch) : PreferencesPatch :=
  { p with context := p.context.map fun v => .ofJson v.toJson }

/-- What comes back of a patch is written as the patch was. -/
theorem toJson_settled (p : PreferencesPatch) : p.settled.toJson = p.toJson := by
  have hcontext : optionalMember "context"
      (p.context.map fun v => Value.ofJson v.toJson) Value.toJson =
      optionalMember "context" p.context Value.toJson := by
    cases p.context with
    | none => rfl
    | some v => exact congrArg (fun json => [("context", json)]) v.toJson_ofJson_toJson
  unfold toJson settled
  rw [hcontext]

/-- The members of a written patch. -/
def members (p : PreferencesPatch) : List (String × Json) :=
  optionalMember "abortEarly" p.abortEarly .bool ++ optionalMember "convert" p.convert .bool ++
  optionalMember "allowUnknown" p.allowUnknown .bool ++
  optionalMember "stripUnknown" p.stripUnknown StripUnknown.toJson ++
  optionalMember "presence" p.presence (fun presence => .string presence.name) ++
  optionalMember "context" p.context Value.toJson ++
  optionalMember "noDefaults" p.noDefaults .bool ++ messagesToJson p.messages

/-- The messages are found if there are any. -/
@[simp] theorem get?_messagesToJson (table : MessageTable) (key : String) :
    Members.get? (messagesToJson table) key =
      if "messages" = key ∧ table.entries ≠ [] then
        some (.object (table.entries.map fun message => (message.1, .string message.2)))
      else none := by
  obtain ⟨messages, hdistinct⟩ := table
  cases messages with
  | nil => rw [if_neg fun h => h.2 rfl]; rfl
  | cons message rest =>
    show (if "messages" = key then _ else none) = _
    by_cases hk : "messages" = key
    · rw [if_pos hk, if_pos ⟨hk, List.cons_ne_nil _ _⟩]
    · rw [if_neg hk, if_neg fun h => hk h.1]

/-- The messages are written under their name, or not at all. -/
theorem keys_messagesToJson (table : MessageTable) :
    (Members.keys (messagesToJson table)).Sublist ["messages"] := by
  obtain ⟨messages, hdistinct⟩ := table
  cases messages with
  | nil => exact List.nil_sublist _
  | cons message rest => exact List.Sublist.refl _

/-- What is written of a patch are fields of preferences, in their order. -/
theorem keys_members (p : PreferencesPatch) :
    (Members.keys p.members).Sublist preferenceFields := by
  unfold members
  simp only [Members.keys_append]
  exact (((((((keys_optionalMember "abortEarly" _ _).append
    (keys_optionalMember "convert" _ _)).append
    (keys_optionalMember "allowUnknown" _ _)).append
    (keys_optionalMember "stripUnknown" _ _)).append
    (keys_optionalMember "presence" _ _)).append (keys_optionalMember "context" _ _)).append
    (keys_optionalMember "noDefaults" _ _)).append (keys_messagesToJson _)

end PreferencesPatch

/-! ### Patches read back -/

namespace MessageTable

variable {order : Order} {table : MessageTable}

/-- The table that comes back when members are found in the order. -/
def arranged (order : Order) (table : MessageTable) : MessageTable :=
  ⟨order.arrange table.entries, order.distinct_arrange table.distinct⟩

/-- A table of ascending codes stays in its order. -/
theorem arranged_of_ascending (h : (Members.keys table.entries).Pairwise (· < ·)) :
    table.arranged order = table :=
  MessageTable.ext (order.arrange_of_ascending h)

/-- A written table is read back. -/
theorem read?_toJson (table : MessageTable) :
    read?
      (order.source (.object (table.entries.map fun message => (message.1, .string message.2)))) =
      some (table.arranged order) := by
  have hback : Source.table? Source.string?
      (order.source (.object (table.entries.map fun message => (message.1, .string message.2)))) =
      some ((order.arrange table.entries).map fun message => (message.1, id message.2)) :=
    Source.table_back table.distinct fun message _ => by rw [Order.source_string]; rfl
  have hentries : ((order.arrange table.entries).map fun message => (message.1, id message.2)) =
      order.arrange table.entries := List.map_id _
  unfold read?
  rw [hback, hentries]
  refine congrArg some (MessageTable.ext ?_)
  exact Members.insertAll_of_distinct (order.distinct_arrange table.distinct)

end MessageTable

namespace PreferencesPatch

variable {order : Order} {p : PreferencesPatch}

/-- What can be written of a patch and asked for: no caller asks for no check of presence at all,
and the context has a counterpart in JSON that is not `null`. -/
structure Askable (p : PreferencesPatch) : Prop where
  presence : p.presence ≠ some .ignore
  context : ∀ v ∈ p.context, v.toJson.toSource.isNull = false

/-- What was read from data can be asked for. -/
theorem Neat.askable (h : p.Neat) : p.Askable := ⟨h.presence, h.context⟩

/-- The patch that comes back when members are found in the order. -/
def arranged (order : Order) (p : PreferencesPatch) : PreferencesPatch :=
  { p.settled with messages := p.messages.arranged order }

/-- In whichever order members are found, what was read from sorted data comes back in its order. -/
theorem Neat.arranged (h : p.Neat) : p.arranged order = p.settled := by
  unfold PreferencesPatch.arranged
  rw [MessageTable.arranged_of_ascending h.messages]
  rfl

section Fields

variable {fields : Source.Fields}
  (hget : ∀ name, fields.get? name = (Members.get? p.members name).map order.source)

include hget

/-- The four switches are read alike. -/
theorem switch_back (name : String) {o : Option Bool}
    (hname : Members.get? p.members name = o.map .bool) :
    fields.withDefault? name none (Source.nullable? Source.bool?) = some o := by
  have hback := Source.optional_back (r := Source.bool?) (f := id) hget hname fun b _ => by
    rw [Order.source_bool]
    exact ⟨rfl, rfl⟩
  rwa [Option.map_id_apply] at hback

/-- There is one switch for arrays and one for objects. -/
theorem stripUnknown_back :
    fields.withDefault? "stripUnknown" none (Source.nullable? StripUnknown.read?) =
      some p.stripUnknown := by
  have hname : Members.get? p.members "stripUnknown" = p.stripUnknown.map StripUnknown.toJson := by
    simp [members]
  have hback := Source.optional_back (r := StripUnknown.read?) (f := id) hget hname fun s _ => by
    obtain ⟨arrays, objects⟩ := s
    cases order <;> cases arrays <;> cases objects <;> exact ⟨rfl, rfl⟩
  rwa [Option.map_id_apply] at hback

/-- A presence goes by its name; the one that is never asked for has none. -/
theorem presence_back (hasked : p.presence ≠ some .ignore) :
    fields.withDefault? "presence" none (fun s => (Presence.read? s).map some) =
      some p.presence := by
  have hname : Members.get? p.members "presence" = p.presence.map fun presence =>
      .string presence.name := by
    simp [members]
  unfold Source.Fields.withDefault?
  rw [hget, hname]
  cases hp : p.presence with
  | none => rfl
  | some presence =>
    rw [hp] at hasked
    rw [Option.map_some, Option.map_some, Order.source_string]
    cases presence with
    | ignore => exact absurd rfl hasked
    | _ => rfl

/-- The context comes back as JSON has it. -/
theorem context_back (hcontext : ∀ v ∈ p.context, v.toJson.toSource.isNull = false) :
    fields.withDefault? "context" none (Source.nullable? Value.read?) = some p.settled.context := by
  have hname : Members.get? p.members "context" = p.context.map Value.toJson := by
    simp [members]
  refine Source.optional_back hget hname fun v hv => ?_
  refine ⟨order.isNull_source _ ▸ hcontext v hv, ?_⟩
  unfold Value.read?
  rw [Order.toJson?_source, v.sorted_toJson]
  rfl

/-- An empty table of messages is left out, and read as the default. -/
theorem messages_back : fields.withDefault? "messages" .empty MessageTable.read? =
    some (p.messages.arranged order) := by
  have hname : Members.get? p.members "messages" = if p.messages.entries ≠ [] then
      some (.object (p.messages.entries.map fun message => (message.1, Json.string message.2)))
    else none := by
    simp [members]
  refine Source.default_back hget hname (fun hnone => ?_) fun json hjson => ?_
  · by_cases hnil : p.messages.entries = []
    · refine MessageTable.ext ?_
      show [] = order.arrange p.messages.entries
      rw [hnil, Order.arrange_nil]
    · rw [if_pos hnil] at hnone
      exact nomatch hnone
  · by_cases hnil : p.messages.entries = []
    · rw [if_neg (not_not.mpr hnil)] at hjson
      exact nomatch hjson
    · rw [if_pos hnil] at hjson
      obtain rfl := Option.some.inj hjson
      exact p.messages.read?_toJson

end Fields

/-- A patch that can be asked for is read back. -/
theorem read?_toJson (h : p.Askable) : read? (order.source p.toJson) = some (p.arranged order) := by
  -- the fields of the description go by their names, in whatever order they stand
  have hnames : preferenceFields.Nodup := by decide
  obtain ⟨fields, hrecord, hget⟩ := order.record?_source hnames p.keys_members
  have habort := switch_back hget "abortEarly" (o := p.abortEarly) (by simp [members])
  have hconvert := switch_back hget "convert" (o := p.convert) (by simp [members])
  have hallow := switch_back hget "allowUnknown" (o := p.allowUnknown) (by simp [members])
  have hdefaults := switch_back hget "noDefaults" (o := p.noDefaults) (by simp [members])
  unfold read?
  rw [show (order.source p.toJson).record? preferenceFields = some fields from hrecord]
  dsimp only [Option.bind_eq_bind, Option.bind_some]
  rw [habort, hconvert, hallow, stripUnknown_back hget, presence_back hget h.presence,
    context_back hget h.context, hdefaults, messages_back hget]
  rfl

end PreferencesPatch

end Conform
