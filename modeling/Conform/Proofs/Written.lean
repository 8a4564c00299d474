import Conform.Manifest.Build
import Conform.Manifest.Describe
import Conform.Proofs.Calls
import Conform.Proofs.Orders

/-!
# Literals and references in descriptions

What a description says about a value, a reference or a member of a set is read back as what it was
about. For values that has to be assumed (`Literal.Faithful`): a date between two milliseconds, for
one, is written without the rest. References are read back whatever they say
(`Reference.Restorable`), because calls write them: the level, the table and the adjuster are set
apart from the key, and the key says everything else.

Values, references and templates are told apart by tags. A reader asks for one tag after another, so
it has to be known of each tag that it is found where it was put and nowhere else
(`untagged?_tagged_self`, `untagged?_tagged`). A literal that happens to look like a tagged one is
written as an escaped object, which is why a literal is never mistaken for a reference.

A reference is written as an object with at most six members, of which those that say nothing are
left out. So each of them is looked up by a lemma that says when it is there and with what
(`get?_ancestor` and its like), and all of them stand in a fixed order (`keys_members`); with these
the reader of references is run on what the writer wrote, without either being opened again.

Main statements: `Build.reference_describe`, `Build.item_describe` and `Build.default_describe`.
-/

namespace Conform

open Json Manifest

/-! ### What can be described -/

/-- What stands for the value in a description is decoded to the value. -/
def Literal.Faithful (value : Value) : Prop := decode (encode value) = .ok value

/-- The values in the table are faithful, and the adjuster is registered. -/
structure Reference.Describable (registry : Registry) (r : Reference) : Prop where
  table : ∀ entry ∈ r.table, Literal.Faithful entry.1 ∧ Literal.Faithful entry.2
  adjuster : ∀ name ∈ r.adjuster, (registry.adjusters name).isSome

/-- The member is read back from its description. -/
def SetItem.Describable (registry : Registry) : SetItem → Prop
  | .literal value => Literal.Faithful value
  | .reference r => r.Describable registry

/-- The default is read back from its description. -/
def Default.Describable (registry : Registry) : Default → Prop
  | .value v => Literal.Faithful v
  | .reference r => r.Describable registry
  | .function name => (registry.defaults name).isSome
  | .deep => True

/-- The argument is read back from its description, the schema in it apart. -/
def Argument.Describable {σ : Type} (registry : Registry) : Argument σ → Prop
  | .literal v => Literal.Faithful v
  | .reference r => r.Describable registry
  | .function name => (registry.customs name).isSome
  | _ => True

/-- What is particular to the type is read back from its description, the schemas in it apart. -/
def Form.Describable {σ : Type} (registry : Registry) : Form σ → Prop
  | .alternatives f => ∀ r ∈ f.references, r.Describable registry
  | .boolean f => ∀ item ∈ f.truthy.items ++ f.falsy.items, item.Describable registry
  | .lazy f => (registry.generators f.generator).isSome
  | _ => True

/-- Every value that the node mentions is faithful and every function registered, and no rule has a
schema among its arguments. -/
structure Schema.Describable (registry : Registry) (s : Schema) : Prop where
  items : ∀ item ∈ s.node.allowed.items ++ s.node.denied.items, item.Describable registry
  defaults : ∀ d ∈ s.node.flags.default.toList ++ s.node.flags.failover.toList,
    d.Describable registry
  rules : ∀ rule ∈ s.node.rules, rule.name ∉ ["has", "assert"]
  arguments : ∀ rule ∈ s.node.rules, ∀ arg ∈ rule.args, arg.Describable registry
  form : s.node.form.Describable registry
  remarks : ∀ v ∈ s.node.notes.examples ++ s.node.notes.metas, Literal.Faithful v

/-- Every value that the node mentions is faithful and every function registered. -/
structure Schema.Sayable (registry : Registry) (s : Schema) : Prop where
  items : ∀ item ∈ s.node.allowed.items ++ s.node.denied.items, item.Describable registry
  defaults : ∀ d ∈ s.node.flags.default.toList ++ s.node.flags.failover.toList,
    d.Describable registry
  arguments : ∀ rule ∈ s.node.rules, ∀ arg ∈ rule.args, arg.Describable registry
  form : s.node.form.Describable registry
  remarks : ∀ v ∈ s.node.notes.examples ++ s.node.notes.metas, Literal.Faithful v

/-- Having no schema among the arguments is no part of being sayable. -/
theorem Schema.Describable.sayable {registry : Registry} {s : Schema} (h : s.Describable registry) :
    s.Sayable registry :=
  ⟨h.items, h.defaults, h.arguments, h.form, h.remarks⟩

/-! ### Values -/

namespace Literal

/-- A number is written without names that could be sorted. -/
theorem sorted_encodeNumber (n : Number) : (encodeNumber n).sorted = encodeNumber n := by
  unfold encodeNumber
  split
  · rfl
  · split
    · rfl
    · unfold Value.numberToJson
      split
      · rfl
      · split <;> rfl

mutual
/-- The members of what stands for a value are sorted already. -/
theorem sorted_encode (value : Value) : (encode value).sorted = encode value := by
  cases value with
  | number n => exact sorted_encodeNumber n
  | array items =>
    rw [encode, sorted, sorted_encodeItems items]
  | object members =>
    have hmembers := sorted_encodeMembers members
    rw [encode, tagged, sorted, sortedMembers, sorted, sortedMembers_sortMembers, hmembers,
      sortMembers_sortMembers]
    rfl
  | _ => rfl

/-- Sorting changes nothing of encoded items. -/
theorem sorted_encodeItems (items : List Value) :
    sortedItems (encodeItems items) = encodeItems items := by
  cases items with
  | nil => rfl
  | cons item rest => rw [encodeItems, sortedItems, sorted_encode item, sorted_encodeItems rest]

/-- Sorting changes nothing of the values of encoded members. -/
theorem sorted_encodeMembers (members : List (String × Value)) :
    sortedMembers (encodeMembers members) = encodeMembers members := by
  cases members with
  | nil => rfl
  | cons entry rest =>
    obtain ⟨name, value⟩ := entry
    rw [encodeMembers, sortedMembers, sorted_encode value, sorted_encodeMembers rest]
end

/-- A tag is found where it was put. -/
theorem untagged?_tagged_self (tag : String) (json : Json) :
    Build.untagged? (tagged tag json) tag = some json :=
  if_pos rfl

/-- No other tag is found where one was put. -/
theorem untagged?_tagged {tag other : String} (h : tag ≠ other) (json : Json) :
    Build.untagged? (tagged tag json) other = none :=
  if_neg h

/-- The tags under which values are written. -/
def tags : List String := ["special", "date", "binary", "value"]

/-- A number that is written with a tag has that of a literal. -/
theorem untagged?_encodeNumber {tag : String} (h : tag ∉ tags) (n : Number) :
    Build.untagged? (encodeNumber n) tag = none := by
  have hspecial (name : String) : Build.untagged? (special name) tag = none := by
    refine untagged?_tagged (fun heq => h ?_) _
    rw [← heq]
    exact List.mem_cons_self ..
  unfold encodeNumber
  split
  · exact hspecial _
  · split
    · exact hspecial _
    · unfold Value.numberToJson
      split
      · rfl
      · split <;> rfl

/-- A value is not taken for anything else. -/
theorem untagged?_encode {tag : String} (h : tag ∉ tags) (value : Value) :
    Build.untagged? (encode value) tag = none := by
  have htag (name : String) (hname : name ∈ tags) (json : Json) :
      Build.untagged? (tagged name json) tag = none := by
    refine untagged?_tagged (fun heq => h ?_) json
    rw [← heq]
    exact hname
  cases value with
  | undefined => exact htag "special" (by decide) _
  | date t => exact htag "date" (by decide) _
  | binary bytes => exact htag "binary" (by decide) _
  | object members => exact htag "value" (by decide) _
  | number n => exact untagged?_encodeNumber h n
  | _ => rfl

/-- No value is written like a default made of the children's defaults. -/
theorem special_encode (value : Value) :
    Build.untaggedText? (encode value) "special" ≠ some "deep" := by
  cases value with
  | number n =>
    unfold encode encodeNumber
    split
    · decide
    · split
      · split <;> decide
      · unfold Value.numberToJson
        split
        · exact fun h => nomatch h
        · split <;> exact fun h => nomatch h
  | undefined => decide
  | object members => exact fun h => nomatch h
  | date t => exact fun h => nomatch h
  | binary bytes => exact fun h => nomatch h
  | _ => exact fun h => nomatch h

end Literal

/-! ### Entries of references -/

/-- A switch that is off is not written. -/
@[simp] theorem get?_switchMember (name : String) (on : Bool) (key : String) :
    Members.get? (switchMember name on) key = if name = key ∧
    on = true then some (.bool true) else none := by
  cases on with
  | false => rw [if_neg fun h => nomatch h.2]; rfl
  | true =>
    show (if name = key then _ else none) = _
    by_cases hk : name = key
    · rw [if_pos hk, if_pos ⟨hk, rfl⟩]
    · rw [if_neg hk, if_neg fun h => hk h.1]

/-- A text that is not there is not written. -/
@[simp] theorem get?_textMember (name : String) (text : Option String) (key : String) :
    Members.get? (textMember name text) key = if name = key then text.map Json.string else none :=
  get?_optionalMember name text Json.string key

/-- A switch is written under its name, or not at all. -/
theorem keys_switchMember (name : String) (on : Bool) :
    (Members.keys (switchMember name on)).Sublist [name] := by
  cases on with
  | false => exact List.nil_sublist _
  | true => exact List.Sublist.refl _

namespace Manifest.ReferenceEntry

variable (r : ReferenceEntry)

/-- The names under which a reference is written are among six, in their order. -/
theorem keys_members :
    (Members.keys r.members).Sublist ["key", "separator", "ancestor", "in", "map", "adjust"] := by
  unfold members
  rw [Members.keys_append, Members.keys_append, Members.keys_append, Members.keys_append]
  exact ((((List.Sublist.refl ["key", "separator"]).append
    (keys_optionalMember "ancestor" _ _)).append
    (keys_switchMember "in" _)).append (keys_listMember "map" _ _)).append
      (keys_optionalMember "adjust" _ _)

/-- The level is found where there is one. -/
theorem get?_ancestor :
    Members.get? r.members "ancestor" = r.ancestor.map fun n : Nat => Json.int n := by
  simp [members, Members.get?_cons]

/-- That the values of what is found count is written only if they do. -/
theorem get?_in :
    Members.get? r.members "in" = if r.inValues then some (.bool true) else none := by
  simp [members, Members.get?_cons]

/-- The table is written only if there is something in it. -/
theorem get?_map :
    Members.get? r.members "map" = if r.table = [] then none
      else some (.array (r.table.map fun entry => .array [entry.1, entry.2])) := by
  simp [members, Members.get?_cons]

/-- The adjuster is found where there is one. -/
theorem get?_adjust :
    Members.get? r.members "adjust" = r.adjuster.map Json.string := by
  simp [members, Members.get?_cons]

end Manifest.ReferenceEntry

namespace Manifest

variable {order : Order}

/-- A pair of sorted data is read back. -/
theorem pair?_source {row : Json × Json} (hfirst : row.1.sorted = row.1)
    (hsecond : row.2.sorted = row.2) : pair? (order.source (.array [row.1, row.2])) = some row := by
  rw [Order.source_array, List.map_cons, List.map_singleton, pair?, Order.toJson?_source,
    Order.toJson?_source, hfirst, hsecond]
  rfl

/-- The entry of a reference is read back, in whatever order its members are found. -/
theorem ReferenceEntry.read?_toJson {r : ReferenceEntry}
    (h : ∀ row ∈ r.table, row.1.sorted = row.1 ∧ row.2.sorted = row.2) :
    ReferenceEntry.read? (order.source r.toJson) = some r := by
  have hnames : ["key", "separator", "ancestor", "in", "map", "adjust"].Nodup := by decide
  obtain ⟨fields, hrecord, hget⟩ := order.record?_source hnames r.keys_members
  have hkey : fields.required? "key" Source.string? = some r.key :=
    Source.required_back hget rfl (by rw [Order.source_string]; rfl)
  have hseparator : fields.withDefault? "separator" '.' Source.char? = some r.separator :=
    Source.default_back hget rfl (fun hnone => nomatch hnone) fun json hjson => by
      obtain rfl := Option.some.inj hjson
      simp [Source.char?]
  have hancestor : fields.withDefault? "ancestor" none (Source.nullable? Source.count?) =
      some r.ancestor := by
    have hback :=
      Source.optional_back (r := Source.count?) (f := id) hget r.get?_ancestor fun n _ => by
      simp [Source.isNull, Source.count?]
    rwa [Option.map_id_apply] at hback
  -- what is not asked for is left out, and read as the default
  have hin : fields.withDefault? "in" false Source.bool? = some r.inValues := by
    refine Source.default_back hget r.get?_in (fun hnone => ?_) fun json hjson => ?_
    · cases hvalues : r.inValues with
      | false => rfl
      | true => simp [hvalues] at hnone
    · cases hvalues : r.inValues with
      | false => simp [hvalues] at hjson
      | true =>
        obtain rfl : Json.bool true = json := by simpa [hvalues] using hjson
        rw [Order.source_bool]
        rfl
  have hmap : fields.withDefault? "map" [] (Source.list? pair?) = some r.table := by
    have hname : Members.get? r.members "map" =
        if r.table ≠ [] then some (.array (r.table.map fun row => .array [row.1, row.2]))
        else none := by
      rw [r.get?_map, ite_not]
    have hback := Source.list_back (f := id) hget hname fun row hrow =>
      pair?_source (h row hrow).1 (h row hrow).2
    rwa [List.map_id] at hback
  have hadjust : fields.withDefault? "adjust" none (Source.nullable? Source.string?) =
      some r.adjuster :=
    Source.text_back hget r.get?_adjust
  unfold ReferenceEntry.read?
  rw [show (order.source r.toJson).record? ["key", "separator", "ancestor", "in", "map", "adjust"] =
    some fields from hrecord]
  dsimp only [Option.bind_eq_bind, Option.bind_some]
  rw [hkey, hseparator, hancestor, hin, hmap, hadjust]
  rfl

end Manifest

/-- What a reference maps is written as sorted data. -/
theorem Reference.sorted_table (r : Reference) :
    ∀ row ∈ r.describe.table, row.1.sorted = row.1 ∧ row.2.sorted = row.2 := by
  intro row hrow
  obtain ⟨entry, -, rfl⟩ := List.mem_map.mp hrow
  exact ⟨Literal.sorted_encode entry.1, Literal.sorted_encode entry.2⟩

/-- The entry of a reference is read back. -/
theorem Reference.read?_describe (r : Reference) :
    ReferenceEntry.read? r.describe.toJson.sorted.toSource = some r.describe :=
  @ReferenceEntry.read?_toJson .ascending _ r.sorted_table

/-! ### References -/

namespace Reference

/-- The reference from so many levels up, if that is set apart. -/
def atLevel (r : Reference) : Option Nat → Reference
  | some levels => r.withLevel levels
  | none => r

/-- Levels that are counted replace the level that is given. -/
theorem withLevel_atLevel (r : Reference) (level : Option Nat) (levels : Nat) :
    (r.atLevel level).withLevel levels = r.withLevel levels := by
  obtain ⟨key, path, target, separator, levelSet, inValues, table, adjuster⟩ := r
  cases level <;> cases target <;> rfl

/-- A reference is its key, its separator and what was said about it afterwards. -/
theorem Written.eq_atLevel {r : Reference} (h : r.Written) :
    ∃ key separator level inValues table adjuster,
      r = { (ofKey key separator).atLevel level with inValues, table, adjuster } := by
  induction h with
  | key key separator => exact ⟨key, separator, none, false, [], none, rfl⟩
  | @level r levels _ _ ih =>
    obtain ⟨key, separator, level, inValues, table, adjuster, rfl⟩ := ih
    refine ⟨key, separator, some levels, inValues, table, adjuster, ?_⟩
    have hcommute (r : Reference) :
        ({ r with inValues, table, adjuster } : Reference).withLevel levels =
        { r.withLevel levels with inValues, table, adjuster } := by
      obtain ⟨_, _, target, _, _, _, _, _⟩ := r
      cases target <;> rfl
    rw [hcommute, withLevel_atLevel]
    rfl
  | values _ ih =>
    obtain ⟨key, separator, level, inValues, table, adjuster, rfl⟩ := ih
    exact ⟨key, separator, level, true, table, adjuster, rfl⟩
  | table table _ ih =>
    obtain ⟨key, separator, level, inValues, _, adjuster, rfl⟩ := ih
    exact ⟨key, separator, level, inValues, table, adjuster, rfl⟩
  | adjuster name _ ih =>
    obtain ⟨key, separator, level, inValues, table, _, rfl⟩ := ih
    exact ⟨key, separator, level, inValues, table, some name, rfl⟩

/-- The level is read off a reference as far as it bears on it: the root and
the context have none. -/
theorem atLevel_setLevel? {r : Reference} (h : r.levelSet = false) (level : Option Nat) :
    r.atLevel (r.atLevel level).setLevel? = r.atLevel level := by
  obtain ⟨key, path, target, separator, levelSet, inValues, table, adjuster⟩ := r
  obtain rfl : levelSet = false := h
  cases level <;> cases target <;> rfl

/-- What a description says of the reference makes the reference. -/
def Restorable (r : Reference) : Prop :=
  { (ofKey r.key r.separator).atLevel r.setLevel? with
    inValues := r.inValues, table := r.table, adjuster := r.adjuster } = r

/-- A key with what was said about it afterwards can be restored. -/
theorem restorable_atLevel (key : String) (separator : Char) (level : Option Nat) (inValues : Bool)
    (table : List (Value × Value)) (adjuster : Option String) :
    Restorable { (ofKey key separator).atLevel level with inValues, table, adjuster } := by
  have hsame : ((ofKey key separator).atLevel level).key = key ∧
      ((ofKey key separator).atLevel level).separator = separator := by
    have hwith (r : Reference) (levels : Nat) : (r.withLevel levels).key = r.key ∧
        (r.withLevel levels).separator = r.separator := by
      obtain ⟨_, _, target, _, _, _, _, _⟩ := r
      cases target <;> exact ⟨rfl, rfl⟩
    cases level with
    | none => exact ⟨rfl, rfl⟩
    | some levels => exact hwith (ofKey key separator) levels
  have hlevel : (ofKey key separator).atLevel ((ofKey key separator).atLevel level).setLevel? =
      (ofKey key separator).atLevel level := atLevel_setLevel? rfl level
  show ({ (ofKey ((ofKey key separator).atLevel level).key
    ((ofKey key separator).atLevel level).separator).atLevel
    ((ofKey key separator).atLevel level).setLevel? with
      inValues, table, adjuster } : Reference) = _
  rw [hsame.1, hsame.2, hlevel]

/-- A reference that was written by calls is restored from its description. -/
theorem Written.restorable {r : Reference} (h : r.Written) : r.Restorable := by
  obtain ⟨key, separator, level, inValues, table, adjuster, rfl⟩ := h.eq_atLevel
  exact restorable_atLevel key separator level inValues table adjuster

end Reference

namespace Build

variable {registry : Registry}

/-- A name that is registered is accepted. -/
theorem registered_ok {α : Type} {find : String → Option α} {name : String}
    (h : (find name).isSome) : registered find name = .ok name :=
  if_pos h

/-- The described reference is the reference. -/
theorem reference_describe {r : Reference} (hr : r.Restorable) (hd : r.Describable registry) :
    reference registry r.describe = .ok r := by
  have htable : (r.describe.table.mapM fun entry => do
      return (← Literal.decode entry.1, ← Literal.decode entry.2)) = Except.ok r.table := by
    -- both sides of a row come back
    refine Attempt.mapM_map_self fun entry hentry => ?_
    obtain ⟨hsource, htarget⟩ := hd.table entry hentry
    show (Literal.decode (Literal.encode entry.1) >>= _) = _
    rw [hsource]
    show (Literal.decode (Literal.encode entry.2) >>= _) = _
    rw [htarget]
    rfl
  have hadjuster : r.adjuster.mapM (registered registry.adjusters) = Except.ok r.adjuster := by
    cases hname : r.adjuster with
    | none => rfl
    | some name =>
      show some <$> registered registry.adjusters name = _
      rw [registered_ok (hd.adjuster name hname)]
      rfl
  unfold reference
  show (r.describe.table.mapM (fun entry => do
      return (← Literal.decode entry.1, ← Literal.decode entry.2)) >>= _) = _
  rw [htable]
  show (r.adjuster.mapM (registered registry.adjusters) >>= _) = _
  rw [hadjuster]
  exact congrArg Except.ok hr

/-- Only a reference is taken for one. -/
theorem taggedReference?_of_untagged {json : Json} (h : untagged? json "ref" = none) :
    taggedReference? registry json = .ok none := by
  unfold taggedReference?
  rw [h]

/-- A literal is not mistaken for a reference. -/
theorem taggedReference?_encode (value : Value) :
    taggedReference? registry (Literal.encode value) = .ok none :=
  taggedReference?_of_untagged (Literal.untagged?_encode (by decide) value)

/-- A reference is read back from its description. -/
theorem taggedReference?_describe {r : Reference} (hr : r.Restorable)
    (hd : r.Describable registry) :
    taggedReference? registry (Describe.reference r) = .ok (some r) := by
  unfold taggedReference? Describe.reference
  rw [Literal.untagged?_tagged_self]
  dsimp only
  rw [r.read?_describe]
  dsimp only
  rw [reference_describe hr hd]
  rfl

/-- As a member of a set, what a value is written as is a literal, if it is anything. -/
theorem item_encode (value : Value) :
    item registry (Literal.encode value) =
      SetItem.literal <$> Literal.decode (Literal.encode value) := by
  unfold item
  rw [taggedReference?_encode]
  cases Literal.decode (Literal.encode value) <;> rfl

/-- As a default, what a value is written as is a literal, if it is anything. -/
theorem default_encode (value : Value) :
    default registry (Literal.encode value) =
      Default.value <$> Literal.decode (Literal.encode value) := by
  have hfunction : untaggedText? (Literal.encode value) "function" = none := by
    unfold untaggedText?
    rw [Literal.untagged?_encode (by decide)]
    rfl
  unfold default
  rw [taggedReference?_encode, Attempt.ok_bind, hfunction]
  dsimp only
  rw [if_neg (Literal.special_encode value)]
  cases Literal.decode (Literal.encode value) <;> rfl

/-- The described member of a set is the member. -/
theorem item_describe {i : SetItem} (hr : ∀ r ∈ i.reference?, r.Restorable)
    (hd : i.Describable registry) : item registry (Describe.item i) = .ok i := by
  cases i with
  | literal value =>
    rw [show Describe.item (.literal value) = Literal.encode value from rfl, item_encode,
      show Literal.decode (Literal.encode value) = .ok value from hd]
    rfl
  | reference r =>
    unfold item
    show (taggedReference? registry (Describe.reference r) >>= _) = _
    rw [taggedReference?_describe (hr r rfl) hd]
    rfl

/-- The described default is the default. -/
theorem default_describe {d : Default} (hr : ∀ r ∈ d.reference?, r.Restorable)
    (hd : d.Describable registry) : default registry (Describe.default d) = .ok d := by
  cases d with
  | value v =>
    rw [show Describe.default (.value v) = Literal.encode v from rfl, default_encode,
      show Literal.decode (Literal.encode v) = .ok v from hd]
    rfl
  | reference r =>
    unfold default
    show (taggedReference? registry (Describe.reference r) >>= _) = _
    rw [taggedReference?_describe (hr r rfl) hd]
    rfl
  | function name =>
    show (registered registry.defaults name >>= _) = _
    rw [registered_ok hd]
    rfl
  | deep => rfl

end Build

end Conform
