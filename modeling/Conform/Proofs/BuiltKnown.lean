import Conform.Proofs.BuiltAccepted
import Conform.Proofs.Proper
import Conform.Proofs.RoundTrip
import Conform.Proofs.Settled

/-!
# What built nodes mention

Building looks every function up by its name, and decodes every value from data. Data that was
read is sorted at every depth, so the names in the objects among the values ascend. Node by
node, what a built schema mentions is known (`Mention.Known`): a function is registered, and a
value has ascending names.

The proofs go along the steps of building. Each step that makes something of a part of a sheet has
one lemma, which takes that the part is proper, and that the step succeeds, and says of everything
that the result mentions that it is known. References, members of sets, defaults and arguments are
built from data and look names up in the registry; sets and lists collect them; and each of the
changes that are made to a node one after another keeps what is said of the mentions of the node.

Schemas inside are not looked at here. They are built before the node they stand in, by the
same steps, so that the statement about a schema goes up its tree by the induction that
building itself comes with.

Main statement: `Build.known_schema`.
-/

namespace Conform

open Json Manifest

/-! ### Literals -/

namespace Literal

/-- What a tag stands for has no names in it. -/
theorem ascending_ofTag {tag text : String} {v : Value} (h : ofTag tag text = .ok v) :
    v.hasAscendingNames = true := by
  unfold ofTag at h
  split at h
  next =>
    unfold ofSpecial at h
    split at h
    all_goals first
      | exact Except.ok.inj h ▸ rfl
      | exact absurd h (by simp)
  next =>
    split at h
    next => exact Except.ok.inj h ▸ rfl
    next => exact absurd h (by simp)
  next =>
    split at h
    next => exact Except.ok.inj h ▸ rfl
    next => exact absurd h (by simp)
  next => exact absurd h (by simp)

/-- Decoding keeps the names. -/
theorem keys_decodeMembers {members : List (String × Json)} {decoded : List (String × Value)}
    (h : decodeMembers members = .ok decoded) : Members.keys decoded = Members.keys members := by
  induction members generalizing decoded with
  | nil => exact Except.ok.inj h ▸ rfl
  | cons member rest ih =>
    obtain ⟨name, json⟩ := member
    rw [decodeMembers] at h
    obtain ⟨value, -, h⟩ := Attempt.bind_ok h
    obtain ⟨others, hothers, h⟩ := Attempt.bind_ok h
    obtain rfl := Except.ok.inj h
    exact congrArg (name :: ·) (ih hothers)

mutual
/-- The names in a value that is decoded from sorted data ascend. -/
theorem ascending_decode {json : Json} {v : Value} (hjson : json.Proper) (h : decode json = .ok v) :
    v.hasAscendingNames = true := by
  cases json with
  | array items =>
    rw [decode] at h
    obtain ⟨decoded, hdecoded, h⟩ := Attempt.bind_ok h
    obtain rfl := Except.ok.inj h
    exact Value.everywhere_iff.mpr
      ⟨rfl, ascending_decodeItems (fun item hitem => hjson.item hitem) hdecoded⟩
  | object members =>
    obtain ⟨-, hinside⟩ := hjson.members
    -- an object is a literal only with one member, which names what it is
    cases members with
    | nil => exact absurd h (by simp [decode])
    | cons member rest =>
      obtain ⟨tag, content⟩ := member
      cases rest with
      | cons => cases content <;> exact absurd h (by simp [decode])
      | nil =>
        have hcontent : content.Proper := hinside (tag, content) (List.mem_cons_self ..)
        cases content with
        | string text =>
          rw [decode] at h
          exact ascending_ofTag h
        | object members =>
          rw [decode] at h
          split at h
          next =>
            obtain ⟨decoded, hdecoded, h⟩ := Attempt.bind_ok h
            obtain rfl := Except.ok.inj h
            obtain ⟨hascending, hproper⟩ := hcontent.members
            refine Value.everywhere_iff.mpr
              ⟨decide_eq_true ?_, ascending_decodeMembers hproper hdecoded⟩
            rw [keys_decodeMembers hdecoded]
            exact hascending
          next => exact absurd h (by simp [throw, throwThe, MonadExceptOf.throw])
        | _ => exact absurd h (by simp [decode])
  | _ =>
    rw [decode] at h
    exact Except.ok.inj h ▸ rfl

/-- The names in decoded items ascend. -/
theorem ascending_decodeItems {items : List Json} {decoded : List Value}
    (hitems : ∀ item ∈ items, item.Proper)
    (h : decodeItems items = .ok decoded) : ∀ v ∈ decoded, v.hasAscendingNames = true := by
  cases items with
  | nil =>
    obtain rfl := Except.ok.inj h
    exact List.forall_mem_nil _
  | cons item rest =>
    obtain ⟨hitem, hrest⟩ := List.forall_mem_cons.mp hitems
    rw [decodeItems] at h
    obtain ⟨value, hvalue, h⟩ := Attempt.bind_ok h
    obtain ⟨others, hothers, h⟩ := Attempt.bind_ok h
    obtain rfl := Except.ok.inj h
    exact List.forall_mem_cons.mpr
      ⟨ascending_decode hitem hvalue, ascending_decodeItems hrest hothers⟩

/-- The names in decoded members ascend. -/
theorem ascending_decodeMembers {members : List (String × Json)} {decoded : List (String × Value)}
    (hmembers : ∀ member ∈ members, member.2.Proper) (h : decodeMembers members = .ok decoded) :
    ∀ v ∈ Members.values decoded, v.hasAscendingNames = true := by
  cases members with
  | nil =>
    obtain rfl := Except.ok.inj h
    exact List.forall_mem_nil _
  | cons member rest =>
    obtain ⟨name, json⟩ := member
    obtain ⟨hfirst, hrest⟩ := List.forall_mem_cons.mp hmembers
    rw [decodeMembers] at h
    obtain ⟨value, hvalue, h⟩ := Attempt.bind_ok h
    obtain ⟨others, hothers, h⟩ := Attempt.bind_ok h
    obtain rfl := Except.ok.inj h
    exact List.forall_mem_cons.mpr
      ⟨ascending_decode hfirst hvalue, ascending_decodeMembers hrest hothers⟩
end

end Literal

namespace Build

variable {registry : Registry} {make : Manifest → Attempt Schema} {sheet : Sheet Manifest}

/-! ### References -/

/-- What a built reference mentions is known. -/
theorem known_reference {entry : ReferenceEntry} (hentry : entry.Proper) {r : Reference}
    (h : reference registry entry = .ok r) : ∀ m ∈ r.mentions, m.Known registry := by
  obtain ⟨table, htable, h⟩ := Attempt.bind_ok h
  obtain ⟨adjuster, hadjuster, h⟩ := Attempt.bind_ok h
  obtain rfl := Except.ok.inj h
  intro m hm
  rcases List.mem_append.mp hm with hm | hm
  · obtain ⟨row, hrow, hm⟩ := List.mem_flatMap.mp hm
    obtain ⟨given, hgiven, hstep⟩ := Attempt.mem_of_mapM htable hrow
    obtain ⟨source, hsource, hstep⟩ := Attempt.bind_ok hstep
    obtain ⟨target, htarget, hstep⟩ := Attempt.bind_ok hstep
    obtain rfl := Except.ok.inj hstep
    obtain ⟨hfirst, hsecond⟩ := hentry given hgiven
    rcases List.mem_cons.mp hm with rfl | hm
    · exact Literal.ascending_decode hfirst hsource
    · obtain rfl := List.mem_singleton.mp hm
      exact Literal.ascending_decode hsecond htarget
  · obtain ⟨name, hname, rfl⟩ := List.mem_map.mp hm
    obtain ⟨given, -, hstep⟩ := Attempt.option_mapM_ok hadjuster (Option.mem_toList.mp hname)
    exact registered_isSome hstep

/-- What stands under a tag in proper data is proper. -/
theorem proper_untagged {json content : Json} {tag : String} (hjson : json.Proper)
    (h : untagged? json tag = some content) : content.Proper := by
  unfold untagged? at h
  split at h
  next name inside =>
    split at h
    next =>
      obtain rfl := Option.some.inj h
      exact hjson.members.2 (name, inside) (List.mem_singleton_self _)
    next => exact absurd h (by simp)
  next => exact absurd h (by simp)

/-- What a tagged reference mentions is known. -/
theorem known_tagged {json : Json} (hjson : json.Proper) {r : Reference}
    (h : taggedReference? registry json = .ok (some r)) : ∀ m ∈ r.mentions, m.Known registry := by
  rcases taggedReference?_ok h with
      ⟨hnone, -⟩ | ⟨content, entry, found, hcontent, hentry, hr, hsome⟩
  · exact absurd hnone (by simp)
  · obtain rfl := Option.some.inj hsome
    exact known_reference (ReferenceEntry.proper (proper_untagged hjson hcontent).finite hentry) hr

/-! ### Members of sets and defaults -/

/-- What a built member of a set mentions is known. -/
theorem known_item {json : Json} (hjson : json.Proper) {i : SetItem}
    (h : item registry json = .ok i) : ∀ m ∈ i.mentions, m.Known registry := by
  rcases item_ok h with ⟨r, hfound, rfl⟩ | ⟨v, hv, rfl⟩
  · exact known_tagged hjson hfound
  · exact List.forall_mem_singleton.mpr (Literal.ascending_decode hjson hv)

/-- What built members of a set mention is known. -/
theorem known_items {items : List Json} (hitems : ∀ json ∈ items, json.Proper)
    {found : List SetItem}
    (h : items.mapM (item registry) = .ok found) :
    ∀ i ∈ found, ∀ m ∈ i.mentions, m.Known registry := by
  intro i hi
  obtain ⟨json, hjson, hstep⟩ := Attempt.mem_of_mapM h hi
  exact known_item (hitems json hjson) hstep

/-- What a built set mentions is known. -/
theorem known_set {items : List Json} (hitems : ∀ json ∈ items, json.Proper) {s : ValueSet}
    (h : set registry items = .ok s) : ∀ m ∈ s.mentions, m.Known registry := by
  obtain ⟨found, hfound, h⟩ := Attempt.bind_ok h
  obtain rfl := Except.ok.inj h
  have hall {items : List SetItem}
      (hitems : ∀ i ∈ items, ∀ m ∈ i.mentions, m.Known registry) {start : ValueSet}
      (hstart : ∀ m ∈ start.mentions, m.Known registry) :
      ∀ m ∈ (start.addAll items).mentions, m.Known registry := by
    unfold ValueSet.addAll
    induction items generalizing start with
    | nil => exact hstart
    | cons i rest ih =>
      obtain ⟨hi, hrest⟩ := List.forall_mem_cons.mp hitems
      exact ih hrest (ValueSet.mentions_add hstart hi)
  exact hall (known_items hitems hfound) (List.forall_mem_nil _)

/-- What a built default mentions is known. -/
theorem known_default {json : Json} (hjson : json.Proper) {d : Default}
    (h : default registry json = .ok d) : ∀ m ∈ d.mentions, m.Known registry := by
  cases default_ok h with
  | reference htagged => exact known_tagged hjson htagged
  | function hname => exact List.forall_mem_singleton.mpr hname
  -- what the defaults of children make up mentions nothing
  | deep => exact List.forall_mem_nil _
  | value hv => exact List.forall_mem_singleton.mpr (Literal.ascending_decode hjson hv)

/-! ### Rules -/

/-- What a built argument mentions is known. -/
theorem known_argument {p : Parameter} {json : Json} (hjson : json.Proper) {arg : Argument Schema}
    (h : argument registry make p json = .ok arg) : ∀ m ∈ arg.mentions, m.Known registry := by
  cases argument_ok h with
  | reference htagged => exact known_tagged hjson htagged
  | pattern | schema => exact List.forall_mem_nil _
  | function _ hname => exact List.forall_mem_singleton.mpr hname
  | literal _ _ hv => exact List.forall_mem_singleton.mpr (Literal.ascending_decode hjson hv)

/-- What the argument for a parameter mentions is known. -/
theorem known_argumentOf {rule : RuleEntry}
    (hrule : ∀ arg ∈ rule.args, arg.2.Proper) {p : Parameter}
    {arg : Argument Schema} (h : argumentOf registry make rule p = .ok arg) :
    ∀ m ∈ arg.mentions, m.Known registry := by
  unfold argumentOf at h
  split at h
  next hget => exact known_argument (hrule _ (Members.mem_of_get? hget)) h
  -- what stands in for a missing argument has no names
  all_goals
    obtain rfl := Except.ok.inj h
    exact List.forall_mem_singleton.mpr rfl

/-- What a rule that is added mentions is known. -/
theorem Adds.known {kind : Kind} {entry : RuleEntry} (hentry : ∀ arg ∈ entry.args, arg.2.Proper)
    {rule : Rule Schema} (h : Adds registry make kind entry rule) :
    ∀ m ∈ rule.mentions, m.Known registry := by
  obtain ⟨spec, -, -, -, hargs⟩ := h
  intro m hm
  obtain ⟨arg, harg, hm⟩ := List.mem_flatMap.mp hm
  obtain ⟨p, hpair⟩ := mem_zip_of_right hargs.length_eq harg
  exact known_argumentOf hentry ((List.forall₂_iff_zip.mp hargs).2 hpair) m hm

/-- Adding a rule mentions nothing that is not known. -/
theorem known_addRule {n n' : Node Schema} {entry : RuleEntry}
    (hentry : ∀ arg ∈ entry.args, arg.2.Proper)
    (hn : ∀ m ∈ n.mentions, m.Known registry) (h : addRule registry make n entry = .ok n') :
    ∀ m ∈ n'.mentions, m.Known registry := by
  obtain ⟨rule, hadds, rfl⟩ := adds_addRule h
  obtain ⟨hallowed, hdenied, hflags, hrules, hform, hnotes⟩ := Node.forall_mentions.mp hn
  refine Node.forall_mentions.mpr ⟨hallowed, hdenied, hflags, fun m hm => ?_, hform, hnotes⟩
  obtain ⟨r, hr, hin⟩ := List.mem_flatMap.mp hm
  rcases Schema.mem_appendRule hr with hold | rfl
  · exact hrules m (List.mem_flatMap.mpr ⟨r, hold, hin⟩)
  · exact hadds.known hentry m hin

/-! ### Forms -/

/-- What the reference of a built entry mentions is known. -/
theorem known_matchEntry {entry : MatchEntry Manifest}
    (hentry : ∀ ref ∈ entry.reference, ref.Proper)
    {given : Match Schema} (h : BuildsMatch registry make entry given) :
    ∀ r ∈ given.reference?, ∀ m ∈ r.mentions, m.Known registry := by
  intro r hr
  cases h with
  | attempt => exact nomatch hr
  | conditional _ hcondition =>
    cases hcondition with
    | reference href hfound =>
      obtain rfl := Option.some.inj hr
      exact known_reference (hentry _ href) hfound
    | schema => exact nomatch hr

/-- What a built form mentions is known. -/
theorem known_form {kind : Kind} {given : Form Schema} (hsheet : sheet.Proper)
    (h : BuildsForm registry make sheet kind given) : ∀ m ∈ given.mentions, m.Known registry := by
  cases h with
  | alternatives hentries =>
    intro m hm
    obtain ⟨r, hr, hm⟩ := List.mem_flatMap.mp hm
    obtain ⟨given, hgiven, hr⟩ := List.mem_filterMap.mp hr
    obtain ⟨entry, hentry, hmatch⟩ := Attempt.exists_of_mem_forall₂ hentries hgiven
    exact known_matchEntry (hsheet.references entry hentry) hmatch r hr m hm
  | boolean htruthy hfalsy =>
    exact List.forall_mem_append.mpr
      ⟨known_set hsheet.truthy htruthy, known_set hsheet.falsy hfalsy⟩
  | lazy hgenerator => exact List.forall_mem_singleton.mpr hgenerator
  | any | array | binary | date | number | object | string => exact List.forall_mem_nil _

/-! ### Nodes -/

/-- Setting flags mentions nothing that is not known. -/
theorem known_setFlags {n n' : Node Schema} (hsheet : sheet.Proper)
    (hn : ∀ m ∈ n.mentions, m.Known registry)
    (h : setFlags registry make sheet n = .ok n') : ∀ m ∈ n'.mentions, m.Known registry := by
  obtain ⟨flags, empty, description, unit, -, hinitial, hfailover, rfl⟩ := setFlags_ok h
  obtain ⟨hallowed, hdenied, -, hrules, hform, hnotes⟩ := Node.forall_mentions.mp hn
  -- of the flags, only the two defaults mention anything
  have hdefault {name : String} {o : Option Default}
      (ho : (Members.get? sheet.flags name).mapM (default registry) = .ok o) :
      ∀ d ∈ o.toList, ∀ m ∈ d.mentions, m.Known registry := by
    intro d hd
    obtain ⟨json, hjson, hstep⟩ := Attempt.option_mapM_ok ho (Option.mem_toList.mp hd)
    exact known_default (hsheet.flags _ (Members.mem_of_get? hjson)) hstep
  refine Node.forall_mentions.mpr ⟨hallowed, hdenied, fun m hm => ?_, hrules, hform, hnotes⟩
  obtain ⟨d, hd, hm⟩ := List.mem_flatMap.mp hm
  rcases List.mem_append.mp hd with hd | hd
  · exact hdefault hinitial d hd m hm
  · exact hdefault hfailover d hd m hm

/-- What a built node mentions is known, if its sheet was read. -/
theorem known_schema {s : Schema} (hsheet : sheet.Proper) (h : schema registry make sheet = .ok s) :
    s.Known registry := by
  obtain ⟨kind, form, n, allowed, denied, m, notes, -, hform, hn, hallowed, hdenied, hm,
      hexamples, hmetas, rfl⟩ :=
    schema_ok h
  have hnew : ∀ m ∈ ({ form } : Node Schema).mentions, m.Known registry :=
    Node.forall_mentions.mpr ⟨List.forall_mem_nil _, List.forall_mem_nil _, List.forall_mem_nil _,
      List.forall_mem_nil _, known_form hsheet (form_ok hform), List.forall_mem_nil _⟩
  have hsets := Node.mentions_foldl (.inr rfl) (known_items hsheet.invalid hdenied)
    (Node.mentions_foldl (.inl rfl) (known_items hsheet.allow hallowed)
      (known_setFlags hsheet hnew hn))
  have hrules : ∀ x ∈ m.mentions, x.Known registry :=
    Attempt.foldlM_ok (P := fun n : Node Schema => ∀ x ∈ n.mentions, x.Known registry)
      (fun n rule n' hrule hn hstep => known_addRule (hsheet.args rule hrule) hn hstep) hsets hm
  have hvalues {items : List Json} (hitems : ∀ json ∈ items, json.Proper) {values : List Value}
      (hdecode : items.mapM Literal.decode = .ok values) : ∀ v ∈ values,
      v.hasAscendingNames = true := by
    intro v hv
    obtain ⟨json, hjson, hstep⟩ := Attempt.mem_of_mapM hdecode hv
    exact Literal.ascending_decode (hitems json hjson) hstep
  obtain ⟨hallowed, hdenied, hflags, hrules, hform, -⟩ := Node.forall_mentions.mp hrules
  refine Node.forall_mentions.mpr ⟨hallowed, hdenied, hflags, hrules, hform, fun x hx => ?_⟩
  obtain ⟨v, hv, rfl⟩ := List.mem_map.mp hx
  rcases List.mem_append.mp hv with hv | hv
  · exact hvalues hsheet.examples hexamples v hv
  · exact hvalues hsheet.metas hmetas v hv

end Build

end Conform
