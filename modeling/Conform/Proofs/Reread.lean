import Conform.Proofs.Patches
import Conform.Proofs.Sheets

/-!
# Descriptions written as data and read again

A description is written as a text, or as data whose members are sorted: so it is inside
another one, as an argument of a rule. What is read of it is the description but for the order
of flags, arguments and children, which is the one in which they are found, and for the
context of its preferences (`Sheet.arranged`). Nothing else is lost of a sheet that is `Tidy`,
as the sheets of built schemas are.

A sheet has more than twenty fields of a few shapes. It is written as blocks, one for each field and
empty where the field says nothing (`Sheet.toJson_blocks`), and each block has no name but that of
its field (`Sheet.keys_blocks`). So a field can be found by its place among the blocks, and there is
one lemma for each shape of field (`Sheet.optional_field`, `Sheet.list_field` and so on), which is
applied to the number of the field and its name. A new field of a known shape is one more line.

The descriptions inside a sheet are a parameter, as in the definition of sheets. What is assumed of
them is that they are read back (`ReadsBack`), and what is shown of sheets is the step by which the
same goes up the tree of descriptions.

Main statement: `Sheet.read?_toJson`.
-/

namespace Conform

open Json

namespace Members

variable {names : List String} {blocks : List (List (String × Json))}

/-- Blocks of members, one for each name, with no other names. -/
theorem keys_flatten
    (h : List.Forall₂ (fun name block => (keys block).Sublist [name]) names blocks) :
    (keys blocks.flatten).Sublist names := by
  induction h with
  | nil => exact List.Sublist.refl _
  | cons hblock _ ih =>
    rw [List.flatten_cons, keys_append]
    exact hblock.append ih

/-- What a name has among the members it has in its block. -/
theorem get?_flatten (hnames : names.Nodup)
    (h : List.Forall₂ (fun name block => (keys block).Sublist [name]) names blocks)
    {i : Nat} {name : String}
    {block : List (String × Json)} (hname : names[i]? = some name)
    (hblock : blocks[i]? = some block) : get? blocks.flatten name = get? block name := by
  induction h generalizing i with
  | nil => exact absurd hname (by simp)
  | @cons first block' names blocks hfirst hrest ih =>
    obtain ⟨hnew, hnodup⟩ := List.nodup_cons.mp hnames
    rw [List.flatten_cons, get?_append]
    cases i with
    | zero =>
      obtain rfl : first = name := Option.some.inj hname
      obtain rfl : block' = block := Option.some.inj hblock
      have hnone : get? blocks.flatten first = none :=
        (get?_eq_none_iff _ _).mpr fun hin => hnew ((keys_flatten hrest).subset hin)
      rw [hnone]
      cases get? block' first <;> rfl
    | succ i =>
      have hin : name ∈ names := List.mem_of_getElem? hname
      have hnone : get? block' name = none := (get?_eq_none_iff _ _).mpr fun hkey =>
        hnew (List.mem_singleton.mp (hfirst.subset hkey) ▸ hin)
      rw [hnone]
      exact ih hnodup hname hblock

end Members

namespace Manifest

variable {δ ε : Type} {order : Order}

/-! ### Entries -/

/-- A text is read back. -/
theorem text_source (text : String) : Source.string? (order.source (.string text)) = some text := by
  rw [Order.source_string]
  rfl

/-- Members of a table of data: no key stands twice, and the data is sorted. -/
def IsTable (members : List (String × Json)) : Prop :=
  Members.Distinct members ∧ ∀ member ∈ members, member.2.sorted = member.2

/-- Members that are written unless there are none are read back in the order in
which they are found. -/
theorem table_field {fields : Source.Fields} {members given : List (String × Json)}
    (hget : ∀ name, fields.get? name = (Members.get? members name).map order.source) {name : String}
    (hname : Members.get? members name = if given.isEmpty then none else some (.object given))
    (h : IsTable given) :
    fields.withDefault? name [] (Source.table? Source.toJson?) = some (order.arrange given) := by
  refine Source.default_back hget hname (fun hnone => ?_) fun json hjson => ?_
  · cases given with
    | nil => exact order.arrange_nil.symm
    | cons member rest => exact nomatch hnone
  · cases given with
    | nil => exact nomatch hjson
    | cons member rest =>
      obtain rfl := Option.some.inj hjson
      exact Source.members_back h.1 h.2

/-- The rule with its arguments in the order of their names. -/
def RuleEntry.resorted (rule : RuleEntry) : RuleEntry := { rule with args := sortMembers rule.args }

/-- The rule with its arguments in that order. -/
def RuleEntry.arranged (order : Order) (rule : RuleEntry) : RuleEntry :=
  { rule with args := order.arrange rule.args }

/-- A rule is read back, its arguments in the order in which they are found. -/
theorem RuleEntry.read?_toJson {rule : RuleEntry} (h : IsTable rule.args) :
    RuleEntry.read? (order.source rule.toJson) = some (rule.arranged order) := by
  have hnames : ["name", "args"].Nodup := by decide
  have hkeys : (Members.keys (("name", Json.string rule.name) ::
      if rule.args.isEmpty then [] else [("args", .object rule.args)])).Sublist
      ["name", "args"] := by
    cases rule.args with
    | nil => exact (List.nil_sublist _).cons_cons _
    | cons arg rest => exact List.Sublist.refl _
  obtain ⟨fields, hrecord, hget⟩ := order.record?_source hnames hkeys
  have hname : fields.required? "name" Source.string? = some rule.name :=
    Source.required_back hget rfl (text_source _)
  have hargs : fields.withDefault? "args" [] (Source.table? Source.toJson?) =
      some (order.arrange rule.args) :=
    table_field hget (by cases rule.args <;> rfl) h
  unfold RuleEntry.read?
  rw [show (order.source rule.toJson).record? ["name", "args"] = some fields from hrecord]
  dsimp only [Option.bind_eq_bind, Option.bind_some]
  rw [hname, hargs]
  rfl

/-- The options of a renaming are read back. -/
theorem renameOptions?_toJson (options : RenameOptions) :
    renameOptions? (order.source
      (.object [("alias", .bool options.keepSource), ("multiple", .bool options.multiple),
      ("override", .bool options.override), ("ignoreUndefined", .bool options.ignoreUndefined)])) =
      some options := by
  have hnames : ["alias", "multiple", "override", "ignoreUndefined"].Nodup := by decide
  have hkeys :
      (Members.keys [("alias", Json.bool options.keepSource), ("multiple", .bool options.multiple),
      ("override", .bool options.override),
      ("ignoreUndefined", .bool options.ignoreUndefined)]).Sublist
      ["alias", "multiple", "override", "ignoreUndefined"] := List.Sublist.refl _
  obtain ⟨fields, hrecord, hget⟩ := order.record?_source hnames hkeys
  have hswitch (name : String) (on : Bool)
      (hname : fields.get? name = some (order.source (.bool on))) :
      fields.withDefault? name false Source.bool? = some on := by
    unfold Source.Fields.withDefault?
    rw [hname, Order.source_bool]
    rfl
  unfold renameOptions?
  rw [hrecord]
  dsimp only [Option.bind_eq_bind, Option.bind_some]
  rw [hswitch "alias" _ (hget _), hswitch "multiple" _ (hget _), hswitch "override" _ (hget _),
    hswitch "ignoreUndefined" _ (hget _)]
  rfl

/-- A renaming is read back. -/
theorem rename?_toJson (rename : Rename) :
    rename? (order.source (renameToJson rename)) = some rename := by
  have hnames : ["from", "to", "options"].Nodup := by decide
  have hkeys :
      (Members.keys [("from", Json.string rename.source), ("to", .string rename.target), ("options",
      Json.object [("alias", .bool rename.options.keepSource),
        ("multiple", .bool rename.options.multiple), ("override", .bool rename.options.override),
        ("ignoreUndefined", .bool rename.options.ignoreUndefined)])]).Sublist
        ["from", "to", "options"] :=
    List.Sublist.refl _
  obtain ⟨fields, hrecord, hget⟩ := order.record?_source hnames hkeys
  have hsource : fields.required? "from" Source.string? = some rename.source :=
    Source.required_back hget rfl (text_source _)
  have htarget : fields.required? "to" Source.string? = some rename.target :=
    Source.required_back hget rfl (text_source _)
  have hsaid : fields.withDefault? "options" {} renameOptions? = some rename.options := by
    unfold Source.Fields.withDefault?
    rw [hget]
    exact renameOptions?_toJson rename.options
  unfold rename?
  rw [show (order.source (renameToJson rename)).record? ["from", "to", "options"] =
    some fields from hrecord]
  dsimp only [Option.bind_eq_bind, Option.bind_some]
  rw [hsource, htarget, hsaid]
  rfl

/-- A dependency is read back. -/
theorem dependency?_toJson (d : Dependency) :
    dependency? (order.source (dependencyToJson d)) = some d := by
  have hnames : ["rel", "key", "peers"].Nodup := by decide
  have hkeys : (Members.keys (("rel", Json.string d.relation.name) :: textMember "key" d.key ++
      [("peers", .array (d.peers.map Json.string))])).Sublist ["rel", "key", "peers"] := by
    rw [Members.keys_append]
    exact ((keys_optionalMember "key" _ _).cons_cons "rel").append (List.Sublist.refl _)
  obtain ⟨fields, hrecord, hget⟩ := order.record?_source hnames hkeys
  have hrelation : fields.required? "rel" (fun s => s.choice?.bind Relation.ofName?) =
      some d.relation :=
    Source.required_back hget rfl
      (by rw [Order.source_string]; exact Relation.ofName?_name d.relation)
  have hkey : fields.withDefault? "key" none (Source.nullable? Source.string?) = some d.key :=
    Source.text_back hget (by simp [Members.get?_cons])
  have hpeers : fields.required? "peers" (Source.list? Source.string?) = some d.peers := by
    have hname : Members.get? (("rel", Json.string d.relation.name) :: textMember "key" d.key ++
        [("peers", .array (d.peers.map Json.string))]) "peers" =
        some (.array (d.peers.map Json.string)) := by
      simp [Members.get?_cons]
    refine Source.required_back hget hname ?_
    rw [Order.source_array, List.map_map]
    exact Attempt.mapM_map_self fun peer _ => text_source peer
  unfold dependency?
  rw [show (order.source (dependencyToJson d)).record? ["rel", "key", "peers"] =
    some fields from hrecord]
  dsimp only [Option.bind_eq_bind, Option.bind_some]
  rw [hrelation, hkey, hpeers]
  rfl

/-- A replacement is read back. -/
theorem replacement?_toJson (entry : String × String) :
    replacement? (order.source (replacementToJson entry)) = some entry := by
  have hnames : ["pattern", "replacement"].Nodup := by decide
  have hkeys :
      (Members.keys [("pattern", Json.string entry.1), ("replacement", .string entry.2)]).Sublist
      ["pattern", "replacement"] := List.Sublist.refl _
  obtain ⟨fields, hrecord, hget⟩ := order.record?_source hnames hkeys
  have hpattern : fields.required? "pattern" Source.string? = some entry.1 :=
    Source.required_back hget rfl (text_source _)
  have hreplacement : fields.required? "replacement" Source.string? = some entry.2 :=
    Source.required_back hget rfl (text_source _)
  unfold replacement?
  rw [show (order.source (replacementToJson entry)).record? ["pattern", "replacement"] =
    some fields from hrecord]
  dsimp only [Option.bind_eq_bind, Option.bind_some]
  rw [hpattern, hreplacement]
  rfl

/-! ### Entries with descriptions inside -/

section Inner

variable {inner : δ → Json} {r : Source → Option ε} {f : δ → ε}

/-- What is written of the description is read to be what the change makes of it. -/
structure ReadsBack (order : Order) (inner : δ → Json) (r : Source → Option ε) (f : δ → ε)
    (d : δ) : Prop where
  isNull : (inner d).toSource.isNull = false
  read : r (order.source (inner d)) = some (f d)

section Field

variable {fields : Source.Fields} {members : List (String × Json)}
  (hget : ∀ name, fields.get? name = (Members.get? members name).map order.source)
  {name : String}
include hget

/-- A description that need not be there is read back from its field. -/
theorem one_back {o : Option δ} (hname : Members.get? members name = o.map inner)
    (h : ∀ d ∈ o.toList, ReadsBack order inner r f d) :
    fields.withDefault? name none (Source.nullable? r) = some (o.map f) := by
  refine Source.optional_back hget hname fun d hd => ?_
  have hback := h d (Option.mem_toList.mpr hd)
  exact ⟨order.isNull_source _ ▸ hback.isNull, hback.read⟩

end Field

/-- A pattern of keys is read back, if the descriptions in it are. -/
theorem PatternEntry.read?_toJson {p : PatternEntry δ}
    (h : ∀ d ∈ p.inner, ReadsBack order inner r f d) :
    PatternEntry.read? r (order.source (p.toJson inner)) = some (p.map f) := by
  have hnames : ["regex", "schema", "rule"].Nodup := by decide
  have hkeys :
      (Members.keys (textMember "regex" p.regex ++ optionalMember "schema" p.schema inner ++
      [("rule", inner p.rule)])).Sublist ["regex", "schema", "rule"] := by
    rw [Members.keys_append, Members.keys_append]
    exact ((keys_optionalMember "regex" _ _).append (keys_optionalMember "schema" _ _)).append
      (List.Sublist.refl _)
  obtain ⟨fields, hrecord, hget⟩ := order.record?_source hnames hkeys
  have hregex : fields.withDefault? "regex" none (Source.nullable? Source.string?) = some p.regex :=
    Source.text_back hget (by simp [Members.get?_cons])
  have hschema : fields.withDefault? "schema" none (Source.nullable? r) = some (p.schema.map f) :=
    one_back hget (by simp [Members.get?_cons]) fun d hd => h d (List.mem_append_left _ hd)
  have hrule : fields.required? "rule" r = some (f p.rule) :=
    Source.required_back hget (by simp [Members.get?_cons])
      (h p.rule (List.mem_append_right _ (List.mem_singleton_self _))).read
  unfold PatternEntry.read?
  rw [show (order.source (p.toJson inner)).record? ["regex", "schema", "rule"] =
    some fields from hrecord]
  dsimp only [Option.bind_eq_bind, Option.bind_some]
  rw [hregex, hschema, hrule]
  rfl

/-- A case is read back, if the descriptions in it are. -/
theorem case?_toJson {c : Case δ} (h : ∀ d ∈ c.schemas, ReadsBack order inner r f d) :
    case? r (order.source (caseToJson inner c)) = some (c.map f) := by
  have hnames : ["is", "then"].Nodup := by decide
  have hkeys : (Members.keys
      (optionalMember "is" c.test inner ++ optionalMember "then" c.branch inner)).Sublist
      ["is", "then"] := by
    rw [Members.keys_append]
    exact (keys_optionalMember "is" _ _).append (keys_optionalMember "then" _ _)
  obtain ⟨fields, hrecord, hget⟩ := order.record?_source hnames hkeys
  have htest : fields.withDefault? "is" none (Source.nullable? r) = some (c.test.map f) :=
    one_back hget (by simp) fun d hd => h d (List.mem_append_left _ hd)
  have hbranch : fields.withDefault? "then" none (Source.nullable? r) = some (c.branch.map f) :=
    one_back hget (by simp) fun d hd => h d (List.mem_append_right _ hd)
  unfold case?
  rw [show (order.source (caseToJson inner c)).record? ["is", "then"] = some fields from hrecord]
  dsimp only [Option.bind_eq_bind, Option.bind_some]
  rw [htest, hbranch]
  rfl

/-- The members of a written entry of alternatives. -/
def MatchEntry.members (inner : δ → Json) (m : MatchEntry δ) : List (String × Json) :=
  optionalMember "schema" m.schema inner ++
    optionalMember "ref" m.reference ReferenceEntry.toJson ++
    optionalMember "condition" m.condition inner ++
    listMember "switch" m.cases (caseToJson inner) ++ optionalMember "otherwise" m.otherwise inner

/-- An entry of alternatives is read back, if the descriptions in it are. -/
theorem MatchEntry.read?_toJson {m : MatchEntry δ} (h : ∀ d ∈ m.inner, ReadsBack order inner r f d)
    (href : ∀ ref ∈ m.reference, ∀ row ∈ ref.table, row.1.sorted = row.1 ∧ row.2.sorted = row.2) :
    MatchEntry.read? r (order.source (m.toJson inner)) = some (m.map f) := by
  -- the five fields go by their names, in whatever order they stand
  have hnames : ["schema", "ref", "condition", "switch", "otherwise"].Nodup := by decide
  have hkeys : (Members.keys (m.members inner)).Sublist
      ["schema", "ref", "condition", "switch", "otherwise"] := by
    unfold members
    rw [Members.keys_append, Members.keys_append, Members.keys_append, Members.keys_append]
    exact ((((keys_optionalMember "schema" _ _).append (keys_optionalMember "ref" _ _)).append
      (keys_optionalMember "condition" _ _)).append (keys_listMember "switch" _ _)).append
      (keys_optionalMember "otherwise" _ _)
  obtain ⟨fields, hrecord, hget⟩ := order.record?_source hnames hkeys
  have hschema : fields.withDefault? "schema" none (Source.nullable? r) = some (m.schema.map f) :=
    one_back hget (by simp [members]) fun d hd => h d (m.mem_inner (.schema hd))
  have hreference : fields.withDefault? "ref" none (Source.nullable? ReferenceEntry.read?) =
      some m.reference := by
    have hname : Members.get? (m.members inner) "ref" = m.reference.map ReferenceEntry.toJson := by
      simp [members]
    have hback := Source.optional_back (f := id) hget hname fun ref hin =>
      ⟨order.isNull_source _, ReferenceEntry.read?_toJson (href ref hin)⟩
    rwa [Option.map_id_apply] at hback
  have hcondition : fields.withDefault? "condition" none (Source.nullable? r) =
      some (m.condition.map f) :=
    one_back hget (by simp [members]) fun d hd => h d (m.mem_inner (.condition hd))
  have hcases : fields.withDefault? "switch" [] (Source.list? (case? r)) =
      some (m.cases.map (Case.map f)) := by
    have hname : Members.get? (m.members inner) "switch" =
        if m.cases ≠ [] then some (.array (m.cases.map (caseToJson inner))) else none := by
      simp [members]
    refine Source.list_back hget hname fun c hc => case?_toJson fun d hd => ?_
    exact h d (m.mem_inner (.case hc hd))
  have hotherwise : fields.withDefault? "otherwise" none (Source.nullable? r) =
      some (m.otherwise.map f) :=
    one_back hget (by simp [members]) fun d hd => h d (m.mem_inner (.otherwise hd))
  unfold MatchEntry.read?
  rw [show (order.source (m.toJson inner)).record?
    ["schema", "ref", "condition", "switch", "otherwise"] = some fields from hrecord]
  dsimp only [Option.bind_eq_bind, Option.bind_some]
  rw [hschema, hreference, hcondition, hcases, hotherwise]
  rfl

/-! ### Sheets -/

/-- The sheet with its flags, arguments and children in that order and its preferences settled. -/
def Sheet.arranged (order : Order) (s : Sheet δ) : Sheet δ :=
  { s with
    flags := order.arrange s.flags
    preferences := s.preferences.map (PreferencesPatch.arranged order)
    rules := s.rules.map (RuleEntry.arranged order)
    keys := s.keys.map order.arrange }

/-- The sheet with its flags and arguments in the order of their names and
its preferences settled. -/
def Sheet.resorted (s : Sheet δ) : Sheet δ :=
  { s with
    flags := sortMembers s.flags
    preferences := s.preferences.map PreferencesPatch.settled
    rules := s.rules.map RuleEntry.resorted }

/-- Nothing that a sheet says is lost when it is written. -/
structure Sheet.Tidy (s : Sheet δ) : Prop where
  flags : IsTable s.flags
  preferences : ∀ p ∈ s.preferences, p.Askable
  allow : ∀ json ∈ s.allow, json.sorted = json
  invalid : ∀ json ∈ s.invalid, json.sorted = json
  args : ∀ rule ∈ s.rules, IsTable rule.args
  keys : ∀ children ∈ s.keys, Members.Distinct children
  references : ∀ m ∈ s.entries, ∀ ref ∈ m.reference, ∀ row ∈ ref.table, row.1.sorted = row.1 ∧
    row.2.sorted = row.2
  truthy : ∀ json ∈ s.truthy, json.sorted = json
  falsy : ∀ json ∈ s.falsy, json.sorted = json
  examples : ∀ json ∈ s.examples, json.sorted = json
  metas : ∀ json ∈ s.metas, json.sorted = json

/-- Where children ascend and preferences are neat, only flags and arguments are
put in another order. -/
theorem Sheet.Tidy.resorted {s : Sheet δ} (h : s.Tidy)
    (hkeys : ∀ children ∈ s.keys, (Members.keys children).Pairwise (· < ·))
    (hpreferences : ∀ p ∈ s.preferences, p.Neat) : s.arranged .ascending = s.resorted := by
  have hrules : s.rules.map (RuleEntry.arranged .ascending) = s.rules.map RuleEntry.resorted :=
    List.map_congr_left fun rule hrule => by
      unfold RuleEntry.arranged RuleEntry.resorted
      rw [Order.arrange_members (h.args rule hrule).1]
  have hpatches : s.preferences.map (PreferencesPatch.arranged .ascending) =
      s.preferences.map PreferencesPatch.settled :=
    Option.map_congr fun p hp => (hpreferences p hp).arranged
  have hchildren : s.keys.map (Order.arrange .ascending) = s.keys := by
    cases hs : s.keys with
    | none => rfl
    | some children =>
      exact congrArg some (Order.arrange_of_ascending .ascending (hkeys children hs))
  unfold Sheet.arranged Sheet.resorted
  rw [Order.arrange_members h.flags.1, hrules, hpatches, hchildren]

/-- Flags are written under their name, or not at all. -/
theorem keys_flags (flags : List (String × Json)) :
    (Members.keys (if flags.isEmpty then [] else [("flags", Json.object flags)])).Sublist
    ["flags"] := by
  cases flags with
  | nil => exact List.nil_sublist _
  | cons flag rest => exact List.Sublist.refl _

/-- The members of a written sheet, field by field. -/
def Sheet.blocks (inner : δ → Json) (s : Sheet δ) : List (List (String × Json)) :=
  [[("type", .string s.kind)],
    if s.flags.isEmpty then [] else [("flags", .object s.flags)],
    optionalMember "empty" s.empty inner,
    optionalMember "preferences" s.preferences PreferencesPatch.toJson,
    listMember "allow" s.allow id,
    listMember "invalid" s.invalid id,
    listMember "rules" s.rules RuleEntry.toJson,
    optionalMember "keys" s.keys fun children =>
    .object (children.map fun entry => (entry.1, inner entry.2)),
    listMember "renames" s.renames renameToJson,
    listMember "dependencies" s.dependencies dependencyToJson,
    listMember "patterns" s.patterns (PatternEntry.toJson inner),
    listMember "items" s.items inner,
    listMember "ordered" s.ordered inner,
    listMember "matches" s.entries (MatchEntry.toJson inner),
    optionalMember "base" s.base inner,
    listMember "truthy" s.truthy id,
    listMember "falsy" s.falsy id,
    listMember "replacements" s.replacements replacementToJson,
    optionalMember "generator" s.generator .string,
    listMember "notes" s.notes .string,
    listMember "tags" s.tags .string,
    listMember "examples" s.examples id,
    listMember "metas" s.metas id]

/-- A sheet is written block by block. -/
theorem Sheet.toJson_blocks (inner : δ → Json) (s : Sheet δ) :
    s.toJson inner = .object (s.blocks inner).flatten := by
  unfold toJson blocks
  simp only [List.flatten_cons, List.flatten_nil, List.append_assoc, List.append_nil]
  rfl

/-- Each block has at most the name of its field. -/
theorem Sheet.keys_blocks (inner : δ → Json) (s : Sheet δ) :
    List.Forall₂ (fun name block => (Members.keys block).Sublist [name]) sheetFields
      (s.blocks inner) :=
  .cons (List.Sublist.refl _) <| .cons (keys_flags _) <| .cons (keys_optionalMember ..) <|
    .cons (keys_optionalMember ..) <| .cons (keys_listMember ..) <| .cons (keys_listMember ..) <|
    .cons (keys_listMember ..) <| .cons (keys_optionalMember ..) <| .cons (keys_listMember ..) <|
    .cons (keys_listMember ..) <| .cons (keys_listMember ..) <| .cons (keys_listMember ..) <|
    .cons (keys_listMember ..) <| .cons (keys_listMember ..) <| .cons (keys_optionalMember ..) <|
    .cons (keys_listMember ..) <| .cons (keys_listMember ..) <| .cons (keys_listMember ..) <|
    .cons (keys_optionalMember ..) <| .cons (keys_listMember ..) <| .cons (keys_listMember ..) <|
    .cons (keys_listMember ..) <| .cons (keys_listMember ..) .nil

section Written

variable {s : Sheet δ} {fields : Source.Fields}
  (hget : ∀ name, fields.get? name = (Members.get? (s.blocks inner).flatten name).map order.source)
include hget

/-- Every field is looked up in its own block. -/
theorem Sheet.get?_block (i : Nat) {name : String} {block : List (String × Json)}
    (hname : sheetFields[i]? = some name) (hblock : (s.blocks inner)[i]? = some block) :
    fields.get? name = (Members.get? block name).map order.source := by
  have hnames : sheetFields.Nodup := by decide
  rw [hget, Members.get?_flatten hnames (s.keys_blocks inner) hname hblock]

/-- What need not be there is read back from its field. -/
theorem Sheet.optional_field (i : Nat) {α β : Type} {read : Source → Option β}
    {name : String} {o : Option α}
    {toJson : α → Json} {g : α → β} (hname : sheetFields[i]? = some name)
    (hblock : (s.blocks inner)[i]? = some (optionalMember name o toJson))
    (hread : ∀ a ∈ o, (order.source (toJson a)).isNull = false ∧
      read (order.source (toJson a)) = some (g a)) :
    fields.withDefault? name none (Source.nullable? read) = some (o.map g) := by
  have hmembers : Members.get? (s.blocks inner).flatten name = o.map toJson := by
    rw [Members.get?_flatten (by decide) (s.keys_blocks inner) hname hblock,
      get?_optionalMember, if_pos rfl]
  exact Source.optional_back hget hmembers hread

/-- A list is read back from its field. -/
theorem Sheet.list_field (i : Nat) {α β : Type} {read : Source → Option β}
    {name : String} {items : List α}
    {toJson : α → Json} {g : α → β} (hname : sheetFields[i]? = some name)
    (hblock : (s.blocks inner)[i]? = some (listMember name items toJson))
    (hread : ∀ a ∈ items, read (order.source (toJson a)) = some (g a)) :
    fields.withDefault? name [] (Source.list? read) = some (items.map g) := by
  refine Source.list_back hget ?_ hread
  rw [Members.get?_flatten (by decide) (s.keys_blocks inner) hname hblock, get?_listMember]
  simp

/-- A list of what is read as it was written. -/
theorem Sheet.kept_field (i : Nat) {α : Type} {read : Source → Option α}
    {name : String} {items : List α} {toJson : α → Json} (hname : sheetFields[i]? = some name)
    (hblock : (s.blocks inner)[i]? = some (listMember name items toJson))
    (hread : ∀ a ∈ items, read (order.source (toJson a)) = some a) :
    fields.withDefault? name [] (Source.list? read) = some items :=
  (Sheet.list_field hget i (g := id) hname hblock hread).trans (congrArg some (List.map_id _))

/-- A list of sorted data is read back from its field. -/
theorem Sheet.data_field (i : Nat) {name : String} {items : List Json}
    (hname : sheetFields[i]? = some name)
    (hblock : (s.blocks inner)[i]? = some (listMember name items id))
    (hsorted : ∀ json ∈ items, json.sorted = json) :
    fields.withDefault? name [] (Source.list? Source.toJson?) = some items :=
  Sheet.kept_field hget i hname hblock fun json hjson => Source.data_back (hsorted json hjson)

/-- A description that need not be there is read back from its field. -/
theorem Sheet.inner_field (h : ∀ d ∈ s.inner, ReadsBack order inner r f d) (i : Nat)
    {name : String} {o : Option δ}
    (hname : sheetFields[i]? = some name)
    (hblock : (s.blocks inner)[i]? = some (optionalMember name o inner))
    (hin : ∀ d ∈ o.toList, d ∈ s.inner) :
    fields.withDefault? name none (Source.nullable? r) = some (o.map f) := by
  refine Sheet.optional_field hget i hname hblock fun d hd => ?_
  have hback := h d (hin d (Option.mem_toList.mpr hd))
  exact ⟨order.isNull_source _ ▸ hback.isNull, hback.read⟩

/-- Field by field, a tidy sheet is read back, what is inside as it is read. -/
theorem Sheet.reads_blocks (htidy : s.Tidy) (h : ∀ d ∈ s.inner, ReadsBack order inner r f d) :
    ((s.arranged order).map f).Reads r fields where
  kind := by
    unfold Source.Fields.withDefault?
    rw [Sheet.get?_block hget 0 rfl rfl]
    exact text_source s.kind
  flags := by
    -- flags are a table of their own and go by their names
    have hnames : sheetFields.Nodup := by decide
    have hname : Members.get? (s.blocks inner).flatten "flags" =
        if s.flags.isEmpty then none else some (.object s.flags) := by
      rw [Members.get?_flatten (i := 1) hnames (s.keys_blocks inner) rfl rfl]
      cases s.flags <;> rfl
    exact table_field hget hname htidy.flags
  empty := Sheet.inner_field hget h 2 rfl rfl fun d hd => s.mem_inner (.empty hd)
  preferences := Sheet.optional_field hget 3 rfl rfl fun p hp =>
    ⟨order.isNull_source _, PreferencesPatch.read?_toJson (htidy.preferences p hp)⟩
  allow := Sheet.data_field hget 4 rfl rfl htidy.allow
  invalid := Sheet.data_field hget 5 rfl rfl htidy.invalid
  rules := Sheet.list_field hget 6 rfl rfl fun rule hrule =>
    RuleEntry.read?_toJson (htidy.args rule hrule)
  keys := by
    -- children are a table: read back in the order in which it was written
    have hback : fields.withDefault? "keys" none (Source.nullable? (Source.table? r)) =
        some (s.keys.map fun children => (order.arrange children).map fun entry =>
          (entry.1, f entry.2)) := by
      refine Sheet.optional_field hget 7 rfl rfl fun children hchildren =>
        ⟨order.isNull_source _, ?_⟩
      refine Source.table_back (htidy.keys children hchildren) fun entry hentry =>
        (h entry.2 ?_).read
      exact s.mem_inner (.child (Option.mem_def.mp hchildren) hentry)
    refine hback.trans (congrArg some ?_)
    show _ = (s.keys.map order.arrange).map (mapChildren f)
    rw [Option.map_map]
    rfl
  renames := Sheet.kept_field hget 8 rfl rfl fun rename _ => rename?_toJson rename
  dependencies := Sheet.kept_field hget 9 rfl rfl fun d _ => dependency?_toJson d
  patterns := by
    refine Sheet.list_field hget 10 rfl rfl fun p hp => PatternEntry.read?_toJson fun d hd => h d ?_
    exact s.mem_inner (.pattern hp hd)
  items := Sheet.list_field hget 11 rfl rfl fun d hd => (h d (s.mem_inner (.item hd))).read
  ordered := Sheet.list_field hget 12 rfl rfl fun d hd => (h d (s.mem_inner (.ordered hd))).read
  entries := by
    refine Sheet.list_field hget 13 rfl rfl fun m hm =>
      MatchEntry.read?_toJson (fun d hd => h d ?_) (htidy.references m hm)
    exact s.mem_inner (.entry hm hd)
  base := Sheet.inner_field hget h 14 rfl rfl fun d hd => s.mem_inner (.base hd)
  truthy := Sheet.data_field hget 15 rfl rfl htidy.truthy
  falsy := Sheet.data_field hget 16 rfl rfl htidy.falsy
  replacements := Sheet.kept_field hget 17 rfl rfl fun entry _ => replacement?_toJson entry
  generator :=
    (Sheet.optional_field hget 18 (g := id) rfl rfl fun text _ =>
      ⟨order.isNull_source _, text_source text⟩).trans
    (congrArg some (Option.map_id_apply ..))
  notes := Sheet.kept_field hget 19 rfl rfl fun text _ => text_source text
  tags := Sheet.kept_field hget 20 rfl rfl fun text _ => text_source text
  examples := Sheet.data_field hget 21 rfl rfl htidy.examples
  metas := Sheet.data_field hget 22 rfl rfl htidy.metas

end Written

/-- A tidy sheet is read back, what is inside as it is read. -/
theorem Sheet.read?_toJson {s : Sheet δ} (htidy : s.Tidy)
    (h : ∀ d ∈ s.inner, ReadsBack order inner r f d) :
    Sheet.read? r (order.source (s.toJson inner)) = some ((s.arranged order).map f) := by
  have hnames : sheetFields.Nodup := by decide
  obtain ⟨fields, hrecord, hget⟩ :=
    order.record?_source hnames (Members.keys_flatten (s.keys_blocks inner))
  rw [Sheet.toJson_blocks]
  exact Sheet.read?_iff.mpr ⟨fields, hrecord, Sheet.reads_blocks hget htidy h⟩

end Inner

end Manifest

end Conform
